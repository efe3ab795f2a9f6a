import Mathlib.Logic.Relation
import SecretSync.Proofs.Cluster.Body
import SecretSync.Proofs.Effect.Keeping

/-!
The lifetime of one resource, to which others write at any time. Each body that the resource gets has a
version of its own, so that a body can be told by its version. Main statement:
`Tracks.eq_of_accepts`.
-/

namespace SecretSync

open Cluster (HasMetadata snapshotOf)
open Table (Distinct)

-- The bodies that a resource has had, the last one first, and whether the resource is there.
structure Lifetime where
  bodies : List Value
  isLive : Bool

namespace Lifetime

variable {l l' : Lifetime} {body : Value}

def live (l : Lifetime) : Option Value :=
  if l.isLive then l.bodies.head? else none

theorem bodies_of_live (h : l.live = some body) : ∃ rest, l.bodies = body :: rest := by
  simp only [live] at h
  split at h
  case isTrue => exact List.head?_eq_some_iff.mp h
  case isFalse => cases h

-- No body before had the version.
def IsFresh (l : Lifetime) (version : Value) : Prop :=
  version.isGiven = true ∧ ∀ old ∈ l.bodies, (Cluster.version old).same version = false

structure IsBody (body : Value) : Prop where
  metadata : ∃ members, HasMetadata body members ∧ Distinct members
  version  : (Cluster.version body).isGiven = true

structure IsProper (l : Lifetime) : Prop where
  each  : ∀ body ∈ l.bodies, IsBody body
  apart : l.bodies.Pairwise fun body old =>
    (Cluster.version old).same (Cluster.version body) = false

-- What others do: they write a body, or remove the resource.
inductive Edited (l : Lifetime) : Lifetime → Prop
  | written {body : Value} (isBody : IsBody body) (fresh : l.IsFresh (Cluster.version body)) :
      Edited l ⟨body :: l.bodies, true⟩
  | removed : Edited l ⟨l.bodies, false⟩

-- What a call about the resource does if it is accepted. A resource may be gone as soon as its finalizers
-- are changed, and the answer to the change tells the new body or nothing.
def Accepts (l : Lifetime) : (call : ClusterCall) → call.Answer → Lifetime → Prop
  | .getObject _, body, l' => l.live = some body ∧ l' = l
  | .patchObject _ patch, told, l' =>
    ∃ body version isLive, l.live = some body ∧ Cluster.accepts body patch = true ∧ l.IsFresh version ∧
      let changed := Cluster.withVersion version (Cluster.withFinalizers patch.finalizers body)
      l' = ⟨changed :: l.bodies, isLive⟩ ∧ (told = changed ∨ told = .null)
  | _, _, _ => False

-- Others write as often as they like between two calls. A call that is refused changes nothing.
def api (id : ResourceId) : Api Lifetime where
  changes := Relation.ReflTransGen Edited
  replies l call
    | .ok answer, l' => call.subject = id ∧ Accepts l call answer l'
    | .error _, l' => l' = l

namespace IsProper

theorem cons (h : l.IsProper) {isLive : Bool} (isBody : IsBody body)
    (fresh : l.IsFresh (Cluster.version body)) : IsProper ⟨body :: l.bodies, isLive⟩ where
  each := List.forall_mem_cons.mpr ⟨isBody, h.each⟩
  apart := List.pairwise_cons.mpr ⟨fresh.right, h.apart⟩

theorem edited (h : l.IsProper) (edit : l.Edited l') : l'.IsProper := by
  cases edit
  case written isBody fresh => exact h.cons isBody fresh
  case removed => exact ⟨h.each, h.apart⟩

end IsProper

-- The snapshot is of a body that the resource has had.
structure Tracks (l : Lifetime) (s : Snapshot) : Prop where
  proper : l.IsProper
  known  : ∃ body ∈ l.bodies, s = snapshotOf body

namespace Tracks

variable {s : Snapshot}

theorem edited (h : l.Tracks s) (edit : l.Edited l') : l'.Tracks s := by
  refine ⟨h.proper.edited edit, ?_⟩
  have ⟨body, mem, eq⟩ := h.known
  cases edit
  case written => exact ⟨body, .tail _ mem, eq⟩
  case removed => exact ⟨body, mem, eq⟩

theorem changed (h : l.Tracks s) (changes : Relation.ReflTransGen Edited l l') : l'.Tracks s := by
  induction changes
  case refl => exact h
  case tail edit hi => exact hi.edited edit

-- A change that is accepted was made from the body that is there.
theorem eq_of_accepts (h : l.Tracks s) (found : l.live = some body) (change : Guard.Change)
    (fits : Cluster.accepts body (change.patch s) = true) : s = snapshotOf body := by
  have ⟨old, mem, eq⟩ := h.known
  have ⟨rest, bodies⟩ := bodies_of_live found
  subst eq
  have given : (snapshotOf old).resourceVersion.isGiven = true := (h.proper.each old mem).version
  simp only [Cluster.accepts, Guard.Change.patch, given, if_true] at fits
  have apart := h.proper.apart
  rw [bodies] at apart mem
  cases mem
  case head => rfl
  case tail mem =>
    -- Any other body has another version.
    have differs := (List.pairwise_cons.mp apart).left old mem
    exact absurd (fits.symm.trans differs) nofun

end Tracks
end Lifetime

end SecretSync
