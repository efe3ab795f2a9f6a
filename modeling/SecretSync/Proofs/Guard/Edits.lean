import SecretSync.Proofs.Cluster.Lifetime
import SecretSync.Proofs.Guard.Snapshots

/-!
Changes of finalizers while others write to the resource. The list of finalizers is written as a whole,
from a snapshot that may be outdated, and yet nothing of what others have written in the meantime is
lost. Main statement: `edits_of_run`.
-/

namespace SecretSync

open Cluster (HasMetadata finalizersName snapshotOf)
open Table (Distinct)

namespace Step

variable {τ κ : Type}

-- Whether the call is a change of a resource.
def isPatch : Step τ κ → Bool
  | ⟨.cluster (.patchObject _ _), _, _, _⟩ => true
  | _ => false

def isAccepted : Step τ κ → Bool
  | ⟨.cluster (.patchObject _ _), .ok _, _, _⟩ => true
  | _ => false

theorem isAccepted_of_not_isPatch {step : Step τ κ} (h : step.isPatch = false) :
    step.isAccepted = false := by
  cases accepted : step.isAccepted
  case false => rfl
  case true =>
    simp only [isAccepted] at accepted
    split at accepted
    · simp [isPatch] at h
    · cases accepted

end Step

namespace Guard

variable {τ : Type} {id : ResourceId} {s s' : Snapshot} {w w' : World τ Lifetime} {change : Change}

-- The change was made to what was there: `body` became `changed`.
structure Change.Makes (change : Change) (body changed : Value) : Prop where
  finalizers : Cluster.finalizers changed = change.apply (Cluster.finalizers body)
  cleared    : change.clears = true → Cluster.finalizers changed = [] →
    ∃ members, HasMetadata changed members ∧ members.get? finalizersName = none

theorem Change.patch_finalizers (change : Change) (s : Snapshot) :
    ((change.patch s).finalizers = none ∧ change.apply s.finalizers = []) ∨
      ((change.patch s).finalizers = some (change.apply s.finalizers) ∧
        (change.clears = true → change.apply s.finalizers ≠ [])) := by
  simp only [patch]
  split
  case isTrue h => exact .inl ⟨rfl, List.isEmpty_iff.mp (Bool.and_eq_true_iff.mp h).right⟩
  case isFalse h => exact .inr ⟨rfl, fun clears empty => h (by simp [clears, empty])⟩

theorem Change.makes (change : Change) {body : Value} (isBody : Lifetime.IsBody body) (version : Value) :
    change.Makes body (Cluster.withVersion version
      (Cluster.withFinalizers (change.patch (snapshotOf body)).finalizers body)) := by
  have ⟨members, metadata, distinct⟩ := isBody.metadata
  -- The field goes if nothing is left to be listed in it.
  cases change.patch_finalizers (snapshotOf body)
  case inl h =>
    have ⟨removed, empty⟩ := h
    rw [removed]
    constructor
    case finalizers => exact (Cluster.finalizers_cleared metadata distinct).trans empty.symm
    case cleared => exact fun _ _ => ⟨_, metadata.patched, Cluster.get?_cleared distinct⟩
  case inr h =>
    have ⟨kept, filled⟩ := h
    rw [kept]
    constructor
    case finalizers => exact Cluster.finalizers_patched metadata
    case cleared =>
      intro clears empty
      rw [Cluster.finalizers_patched metadata] at empty
      exact absurd empty (filled clears)

-- What has come of the calls of a change: at most one of them was accepted, and that one made the change
-- to what was there then, which is now known.
structure Edits (change : Change) (s : Snapshot) (made : List (Step τ Lifetime)) : Prop where
  sent     : made.countP Step.isPatch ≤ 2
  accepted : made.countP Step.isAccepted ≤ 1
  written  : ∀ step ∈ made, step.isAccepted = true → ∃ body changed, step.before.live = some body ∧
    step.after.bodies = changed :: step.before.bodies ∧ change.Makes body changed ∧
    s.finalizers = Cluster.finalizers changed

-- Calls before the accepted one make no difference as long as there are not too many.
theorem Edits.after {change : Change} {s : Snapshot} {front made : List (Step τ Lifetime)}
    (h : Edits change s made) (sent : (front ++ made).countP Step.isPatch ≤ 2)
    (refused : front.countP Step.isAccepted = 0) : Edits change s (front ++ made) where
  sent := sent
  accepted := by simpa [refused] using h.accepted
  written step mem accepted := by
    cases List.mem_append.mp mem
    case inl mem => exact absurd accepted (List.countP_eq_zero.mp refused step mem)
    case inr mem => exact h.written step mem accepted

structure Refused (made : List (Step τ Lifetime)) : Prop where
  sent     : made.countP Step.isPatch ≤ 2
  accepted : made.countP Step.isAccepted = 0

theorem refused_nil : Refused ([] : List (Step τ Lifetime)) :=
  ⟨Nat.zero_le 2, rfl⟩

theorem Refused.edits {made : List (Step τ Lifetime)} (h : Refused made) (change : Change)
    (s : Snapshot) : Edits change s made where
  sent := h.sent
  accepted := h.accepted ▸ Nat.zero_le 1
  written step mem accepted := absurd accepted (List.countP_eq_zero.mp h.accepted step mem)

theorem metadataOf_eq {body : Value} {members : Table Text Value} (h : HasMetadata body members) :
    metadataOf body = .ok (.object members) := by
  have ⟨outer, eq, found⟩ := h
  have given : (Value.object members).orEmpty = .object members := by
    cases members
    all_goals rfl
  simp only [metadataOf, eq, Value.member, found, Option.getD_some, Result.bind_eq_ok_iff]
  exact ⟨_, rfl, congrArg Except.ok given⟩

-- The answer to a change can be read.
theorem noteReply_reads {told : Value}
    (readable : told = .null ∨ ∃ members, HasMetadata told members) :
    (noteReply told : Op τ Snapshot Unit).Ensures (Lifetime.api id) s w
      (fun _ s' w' => s'.finalizers = s.finalizers ∧ w' = w) fun _ _ _ => False := by
  cases readable
  case inl null =>
    subst null
    exact (Op.ensures_pure _).mpr ⟨rfl, rfl⟩
  case inr object =>
    have ⟨members, metadata⟩ := object
    have read := metadataOf_eq metadata
    have ⟨outer, eq, _⟩ := metadata
    subst eq
    simp only [noteReply, Op.ensures_bind, Op.ensures_ofResult, read]
    exact (Op.ensures_modify _).mpr ⟨rfl, rfl⟩

theorem write_edits (tracks : w.state.Tracks s) :
    (write id change : Op τ Snapshot Unit).Ensures (Lifetime.api id) s w
      (fun _ s' w' => ∃ step, w'.steps = w.steps ++ [step] ∧ step.isPatch = true ∧ Edits change s' [step])
      fun _ s' w' => ∃ step, w'.steps = w.steps ++ [step] ∧ step.isPatch = true ∧
        step.isAccepted = false ∧ w'.state.Tracks s' := by
  simp only [write, Op.ensures_bind, Op.ensures_get, Op.ensures_modify]
  refine (Op.ensures_cluster _).mpr fun reply before after changed replied => ?_
  have tracks := tracks.changed changed
  cases reply
  case error =>
    -- The snapshot stays one of a body that the resource once had, whatever others did meanwhile.
    have same : after = before := replied
    subst same
    exact ⟨_, rfl, rfl, rfl, tracks⟩
  case ok told =>
    obtain ⟨_, body, version, isLive, found, fits, fresh, stored, answered⟩ := replied
    -- This is where nobody can have come in between.
    have same := tracks.eq_of_accepts found change fits
    obtain ⟨rest, bodies⟩ := Lifetime.bodies_of_live found
    have isBody := tracks.proper.each body (by simp [bodies])
    have makes : change.Makes body _ := change.makes isBody version
    obtain ⟨members, metadata, _⟩ := isBody.metadata
    have readable : told = .null ∨ ∃ members, HasMetadata told members := by
      cases answered
      case inl told => exact .inr ⟨_, told ▸ metadata.patched⟩
      case inr null => exact .inl null
    refine (noteReply_reads readable).mono ?_ fun _ _ _ h => h.elim
    rintro _ s' w' ⟨kept, eq⟩
    subst eq
    refine ⟨_, rfl, rfl, ?_⟩
    constructor
    case sent => exact Nat.le_succ 1
    case accepted => exact Nat.le_refl 1
    case written =>
      intro step mem _
      have here := List.mem_singleton.mp mem
      subst here same
      exact ⟨body, _, found, congrArg Lifetime.bodies stored, makes, kept.trans makes.finalizers.symm⟩

theorem refresh_tracks (tracks : w.state.Tracks s) :
    (refresh id : Op τ Snapshot Unit).Ensures (Lifetime.api id) s w
      (fun _ s' w' => ∃ step, w'.steps = w.steps ++ [step] ∧ step.isPatch = false ∧ w'.state.Tracks s')
      fun _ _ w' => ∃ step, w'.steps = w.steps ++ [step] ∧ step.isPatch = false := by
  refine Op.ensures_bind.mpr ((Op.ensures_cluster _).mpr fun reply before after changed replied => ?_)
  have tracks := tracks.changed changed
  cases reply
  case error => exact ⟨_, rfl, rfl⟩
  case ok body =>
    have ⟨_, found, same⟩ := replied
    subst same
    have ⟨rest, bodies⟩ := Lifetime.bodies_of_live found
    -- What is read is the last of the bodies until others write again.
    have mem : body ∈ after.bodies := by simp [bodies]
    apply (noteBody_reads body).mono
    case hok =>
      rintro _ s' w' ⟨unchanged, known⟩
      subst unchanged
      exact ⟨_, rfl, rfl, tracks.proper, body, mem, known⟩
    case hfail =>
      rintro _ _ w' ⟨unchanged, _⟩
      subst unchanged
      exact ⟨_, rfl, rfl⟩

theorem change_edits (tracks : w.state.Tracks s) :
    (Guard.change id change : Op τ Snapshot Unit).Ensures (Lifetime.api id) s w
      (fun _ s' w' => ∃ made, w'.steps = w.steps ++ made ∧ Edits change s' made)
      fun _ _ w' => ∃ made, w'.steps = w.steps ++ made ∧ Refused made := by
  refine Op.ensures_bind.mpr ((Op.ensures_attempt _).mpr ((write_edits tracks).mono ?_ ?_))
  · intro _ s₁ w₁ ⟨step, steps, _, edits⟩
    exact (Op.ensures_pure _).mpr ⟨[step], steps, edits⟩
  · intro fault s₁ w₁ ⟨step, steps, isPatch, isAccepted, tracks⟩
    simp only
    split
    case isFalse =>
      refine (Op.ensures_throw _).mpr ⟨[step], steps, ?_⟩
      constructor <;> simp [isPatch, isAccepted]
    case isTrue =>
      -- The first change was refused, so it is made once more to what is there now.
      refine Op.ensures_bind.mpr ((refresh_tracks tracks).mono ?_ ?_)
      · intro _ s₂ w₂ ⟨step₂, steps₂, notPatch, tracks⟩
        have notAccepted := Step.isAccepted_of_not_isPatch notPatch
        refine (write_edits tracks).mono ?_ ?_
        · intro _ s₃ w₃ ⟨step₃, steps₃, isPatch₃, edits⟩
          refine ⟨[step, step₂] ++ [step₃], by simp [steps₃, steps₂, steps], edits.after ?_ ?_⟩
          · simp [isPatch, notPatch, isPatch₃]
          · simp [isAccepted, notAccepted]
        · intro _ s₃ w₃ ⟨step₃, steps₃, isPatch₃, isAccepted₃, _⟩
          refine ⟨[step, step₂, step₃], by simp [steps₃, steps₂, steps], ?_⟩
          constructor <;> simp [isPatch, notPatch, isPatch₃, isAccepted, notAccepted, isAccepted₃]
      · intro _ s₂ w₂ ⟨step₂, steps₂, notPatch⟩
        have notAccepted := Step.isAccepted_of_not_isPatch notPatch
        refine ⟨[step, step₂], by simp [steps₂, steps], ?_⟩
        constructor <;> simp [isPatch, notPatch, isAccepted, notAccepted]

theorem add_edits (tracks : w.state.Tracks s) (finalizer : Text) :
    (add id finalizer : Op τ Snapshot Bool).Ensures (Lifetime.api id) s w
      (fun _ s' w' => ∃ made, w'.steps = w.steps ++ made ∧ Edits (addition finalizer) s' made)
      fun _ _ w' => ∃ made, w'.steps = w.steps ++ made ∧ Refused made := by
  simp only [add, Op.ensures_bind, Op.ensures_get]
  split
  -- Nothing is sent if the snapshot has the guard.
  case isTrue => exact (Op.ensures_pure _).mpr ⟨[], by simp, refused_nil.edits _ _⟩
  case isFalse =>
    refine Op.ensures_bind.mpr ((change_edits tracks).mono ?_ fun _ _ _ refused => refused)
    exact fun _ _ _ edits => (Op.ensures_pure _).mpr edits

theorem release_edits (tracks : w.state.Tracks s) (finalizer : Text) :
    (release id finalizer : Op τ Snapshot Bool).Ensures (Lifetime.api id) s w
      (fun _ s' w' => ∃ made, w'.steps = w.steps ++ made ∧ Edits (removal finalizer) s' made)
      fun _ _ w' => ∃ made, w'.steps = w.steps ++ made ∧ Refused made := by
  simp only [release, Op.ensures_bind, Op.ensures_get]
  split
  case isFalse => exact (Op.ensures_pure _).mpr ⟨[], by simp, refused_nil.edits _ _⟩
  case isTrue =>
    refine Op.ensures_bind.mpr ((Op.ensures_attempt _).mpr ((change_edits tracks).mono ?_ ?_))
    · exact fun _ _ _ edits => (Op.ensures_pure _).mpr edits
    · rintro fault s₁ w₁ ⟨made, steps, refused⟩
      simp only
      split
      case isFalse => exact (Op.ensures_throw _).mpr ⟨made, steps, refused⟩
      case isTrue =>
        -- The resource is gone, and its guard with it.
        simp only [Op.ensures_bind, Op.ensures_modify, Op.ensures_pure]
        exact ⟨made, steps, refused.edits _ _⟩

theorem Edits.of_ensures {op : Op τ Snapshot Bool} {r : Result Bool}
    (h : op.Ensures (Lifetime.api id) s w
      (fun _ s' w' => ∃ made, w'.steps = w.steps ++ made ∧ Edits change s' made)
      fun _ _ w' => ∃ made, w'.steps = w.steps ++ made ∧ Refused made)
    (run : op.Run (Lifetime.api id) s w r s' w') :
    ∃ made, w'.steps = w.steps ++ made ∧ Edits change s' made ∧
      ∀ fault, r = .error fault → made.countP Step.isAccepted = 0 := by
  have ended := h r s' w' run
  cases r
  case ok =>
    have ⟨made, steps, edits⟩ := ended
    exact ⟨made, steps, edits, nofun⟩
  case error =>
    have ⟨made, steps, refused⟩ := ended
    exact ⟨made, steps, refused.edits _ _, fun _ _ => refused.accepted⟩

section

open Classical

theorem addition_eq (finalizer : Text) :
    addition finalizer = ⟨fun l => if .text finalizer ∈ l then l else l ++ [.text finalizer], false⟩ := by
  simp only [addition, Change.mk.injEq, and_true]
  funext l
  simp only [added, hasFinalizer_iff]

theorem removal_eq (finalizer : Text) :
    removal finalizer = ⟨fun l => l.filter fun v => v ≠ .text finalizer, true⟩ := by
  simp only [removal, Change.mk.injEq, and_true]
  funext l
  refine List.filter_congr fun v _ => ?_
  rw [Bool.eq_iff_iff]
  simp [← Value.same_text_iff]

-- A change from any body that the resource once had comes to what it would be if it were made at one
-- instant to what is there then, or to nothing.
theorem edits_of_run (proper : w.state.IsProper) {body : Value} (known : body ∈ w.state.bodies)
    (finalizer : Text) :
    (∀ r s' w', (add id finalizer : Op τ Snapshot Bool).Run (Lifetime.api id) (snapshotOf body) w r s' w' →
      ∃ made, w'.steps = w.steps ++ made ∧
        Edits ⟨fun l => if .text finalizer ∈ l then l else l ++ [.text finalizer], false⟩ s' made ∧
        ∀ fault, r = .error fault → made.countP Step.isAccepted = 0) ∧
    ∀ r s' w', (release id finalizer : Op τ Snapshot Bool).Run (Lifetime.api id) (snapshotOf body) w r s' w' →
      ∃ made, w'.steps = w.steps ++ made ∧
        Edits ⟨fun l => l.filter fun v => v ≠ .text finalizer, true⟩ s' made ∧
        ∀ fault, r = .error fault → made.countP Step.isAccepted = 0 := by
  have tracks : w.state.Tracks (snapshotOf body) := ⟨proper, body, known, rfl⟩
  rw [← addition_eq, ← removal_eq]
  constructor
  case left => exact fun _ _ _ run => Edits.of_ensures (add_edits tracks finalizer) run
  case right => exact fun _ _ _ run => Edits.of_ensures (release_edits tracks finalizer) run

end

-- Somebody else adds a finalizer after the snapshot was taken. The first change is refused, and the second
-- one keeps what was added.

def sharedBody (version : Text) (finalizers : List Value) : Value :=
  .object [("metadata", .object [("resourceVersion", .text version), ("finalizers", .list finalizers)])]

def sharedId : ResourceId := ⟨.text "default", .text "app"⟩

def foreignFinalizer : Value := "example.com/cleanup"

def earlier : Lifetime := ⟨[sharedBody "1" []], true⟩

def later : Lifetime := ⟨sharedBody "2" [foreignFinalizer] :: earlier.bodies, true⟩

def latest : Lifetime :=
  ⟨sharedBody "3" [foreignFinalizer, .text defaultFinalizer] :: later.bodies, true⟩

theorem edits_of_run_shared :
    ∃ (s' : Snapshot) (w' : World Float Lifetime),
      (add sharedId defaultFinalizer).Run (Lifetime.api sharedId) (snapshotOf (sharedBody "1" []))
          ⟨earlier, []⟩ (.ok true) s' w' ∧
        s'.finalizers = [foreignFinalizer, .text defaultFinalizer] ∧
        w'.steps.countP Step.isPatch = 2 ∧ w'.steps.countP Step.isAccepted = 1 ∧
        Edits ⟨open Classical in fun l =>
          if .text defaultFinalizer ∈ l then l else l ++ [.text defaultFinalizer], false⟩ s' w'.steps := by
  have first : Lifetime.IsBody (sharedBody "1" []) := ⟨⟨_, ⟨_, rfl, rfl⟩, rfl, rfl, trivial⟩, rfl⟩
  have second : Lifetime.IsBody (sharedBody "2" [foreignFinalizer]) :=
    ⟨⟨_, ⟨_, rfl, rfl⟩, rfl, rfl, trivial⟩, rfl⟩
  have proper : earlier.IsProper :=
    ⟨List.forall_mem_singleton.mpr first, List.pairwise_singleton ..⟩
  have edited : earlier.Edited later := .written second ⟨rfl, List.forall_mem_singleton.mpr rfl⟩
  have told : (Lifetime.api sharedId).replies later (.getObject sharedId)
      (.ok (sharedBody "2" [foreignFinalizer])) later :=
    ⟨rfl, rfl, rfl⟩
  have accepted : (Lifetime.api sharedId).replies later (.patchObject sharedId
      ((addition defaultFinalizer).patch (snapshotOf (sharedBody "2" [foreignFinalizer])))) (.ok .null)
      latest := by
    have fresh : later.IsFresh "3" :=
      ⟨rfl, List.forall_mem_cons.mpr ⟨rfl, List.forall_mem_singleton.mpr rfl⟩⟩
    exact ⟨rfl, _, "3", true, rfl, rfl, fresh, rfl, .inr rfl⟩
  have refused : (Lifetime.api sharedId).replies later (.patchObject sharedId
      ((addition defaultFinalizer).patch (snapshotOf (sharedBody "1" [])))) (.error Cluster.conflict) later :=
    rfl
  have refreshed {w : World Float Lifetime} (hw : w.state = later) (s : Snapshot) :
      (refresh sharedId).Run (Lifetime.api sharedId) s w (.ok ())
        (snapshotOf (sharedBody "2" [foreignFinalizer]))
        (w.next (.cluster (.getObject sharedId)) (.ok (sharedBody "2" [foreignFinalizer])) later later) :=
    .bind (.cluster (hw ▸ .refl) told) (.bind (.ofResult (.ok _)) (.bind (.ofResult (.ok _))
      (.bind (.modify _) (.bind (.ofResult (.ok _)) (.modify _)))))
  have changed : (Guard.change sharedId (addition defaultFinalizer)).Run (Lifetime.api sharedId)
      (snapshotOf (sharedBody "1" [])) (⟨earlier, []⟩ : World Float Lifetime) (.ok ()) _ _ :=
    .bind (.attempt (write_refused (.single edited) refused))
      (.bind (refreshed rfl _) (write_accepted .refl accepted))
  have run : (add sharedId defaultFinalizer).Run (Lifetime.api sharedId) (snapshotOf (sharedBody "1" []))
      (⟨earlier, []⟩ : World Float Lifetime) (.ok true) _ _ :=
    .bind .get (.bind changed (.pure true))
  have ⟨made, steps, edits, _⟩ := (edits_of_run proper (.head _) defaultFinalizer).left _ _ _ run
  have made_eq : made = _ := steps.symm
  subst made_eq
  exact ⟨_, _, run, rfl, rfl, rfl, edits⟩

end Guard

end SecretSync
