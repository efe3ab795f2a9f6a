import SecretSync.Proofs.Target.Keeping

/-!
Secrets whose labels tell the truth. If nobody else writes secrets, whatever the operator does to one
leaves its label describing its data, and one that it has made hold content does. Main statement:
`Target.ensure_faithful`.
-/

namespace SecretSync

open Table (Distinct)

abbrev Secrets := Table ResourceId Secret

namespace Secrets

-- Every secret records the fingerprint of what it holds, or none that can be read.
structure AreFaithful (secrets : Secrets) : Prop where
  distinct : Distinct secrets
  each : ∀ {id s}, secrets.get? id = some s → s.IsFaithful ∧ s.IsDistinct

-- The secret of a resource holds content.
def Hold (secrets : Secrets) (id : ResourceId) (content : Content) : Prop :=
  ∃ s held n, secrets.get? id = some s ∧ s.Holds content held n

namespace AreFaithful

variable {secrets : Secrets} {id : ResourceId} {s : Secret}

theorem put (h : AreFaithful secrets) (faithful : s.IsFaithful) (distinct : s.IsDistinct) :
    AreFaithful (secrets.put id s) where
  distinct := h.distinct.put id s
  each {other _} found := by
    rw [Table.get?_put] at found
    split at found
    case isTrue =>
      cases found
      exact ⟨faithful, distinct⟩
    case isFalse => exact h.each found

theorem remove (h : AreFaithful secrets) : AreFaithful (secrets.remove id) where
  distinct := h.distinct.remove id
  each {other _} found := by
    rw [Table.get?_remove id other h.distinct] at found
    split at found
    case isTrue => cases found
    case isFalse => exact h.each found

end AreFaithful
end Secrets

open Secrets (AreFaithful Hold)

abbrev Cluster.IsFaithful (c : Cluster) : Prop :=
  AreFaithful c.secrets

theorem Cluster.isFaithful_congr {c c' : Cluster} (same : c'.secrets = c.secrets) (h : c.IsFaithful) :
    c'.IsFaithful := by
  rw [IsFaithful, same]
  exact h

namespace Target

variable {τ σ : Type} {others : Cluster → Cluster → Prop} {fails : Cluster → ClusterCall → Fault → Prop}
  {s : σ} {w : World τ Cluster} {id : ResourceId} {content : Content}

variable (apart : ∀ {c c'}, others c c' → c'.secrets = c.secrets)
include apart

theorem create_faithful (hw : w.state.IsFaithful) (distinct : Distinct content) :
    (create id content : Op τ σ _).Maintains (Cluster.api others fails) Cluster.IsFaithful s w
      fun _ _ w' => Hold w'.state.secrets id content := by
  refine .bind_ofResult hw fun manifest made => Cluster.maintains_call fun before changed => ?_
  have ⟨⟨held, n, holds⟩, distinct'⟩ := Secret.holds_created made distinct
  have faithful := Cluster.isFaithful_congr (apart changed) hw
  refine ⟨faithful, fun _ after ⟨_, stored⟩ => ?_⟩
  subst stored
  refine ⟨faithful.put holds.isFaithful distinct', ?_⟩
  exact ⟨_, held, n, Table.get?_put_self .., holds⟩

theorem amend_faithful {existing : Secret} {n : Nat} (hw : w.state.IsFaithful)
    (distinct : Distinct content) (live : w.state.secrets.get? id = some existing)
    (fingerprint : content.fingerprint = .ok n) :
    (amend id content (some existing) (some n) : Op τ σ _).Maintains (Cluster.api others fails)
      Cluster.IsFaithful s w fun _ _ w' => Hold w'.state.secrets id content := by
  simp only [amend, pure_bind]
  refine .bind_ofResult hw fun patch made => Cluster.maintains_call fun before changed => ?_
  have ⟨⟨held, holds⟩, distinct'⟩ :=
    Secret.holds_patched made fingerprint distinct (hw.each live).right
  have faithful := Cluster.isFaithful_congr (apart changed) hw
  refine ⟨faithful, fun _ after ⟨found, known, stored⟩ => ?_⟩
  -- The secret is still the one that the patch was made from.
  rw [apart changed, live] at known
  cases known
  subst stored
  refine ⟨faithful.put holds.isFaithful distinct', ?_⟩
  exact ⟨_, held, n, Table.get?_put_self .., holds⟩

theorem update_faithful {existing : Secret} (hw : w.state.IsFaithful)
    (distinct : Distinct content) (live : w.state.secrets.get? id = some existing) :
    (update id content existing : Op τ σ _).Maintains (Cluster.api others fails) Cluster.IsFaithful s w
      fun _ _ w' => Hold w'.state.secrets id content := by
  refine .bind_ofResult hw fun n fingerprint => .bind_ofResult hw fun label recorded => ?_
  split
  case isTrue same =>
    -- A label that tells the truth tells it of what the secret holds.
    subst same
    have ⟨held, k, decoded, hk, eq⟩ := (hw.each live).left n recorded
    have eq : n = k := Int.ofNat.inj eq
    subst eq
    exact .pure hw ⟨existing, held, n, live, decoded, hk, fingerprint, recorded⟩
  case isFalse =>
    exact .bind (amend_faithful apart hw distinct live fingerprint) fun _ _ _ hw hold => .pure hw hold

-- Making a secret hold content, given what it was known to be or nothing.
theorem ensure_faithful {given : Option Secret} (hw : w.state.IsFaithful)
    (distinct : Distinct content)
    (live : ∀ existing, given = some existing → w.state.secrets.get? id = some existing) :
    (ensure id content given : Op τ σ _).Maintains (Cluster.api others fails) Cluster.IsFaithful s w
      fun _ _ w' => Hold w'.state.secrets id content := by
  cases given
  case some existing =>
    rw [ensure_some]
    exact update_faithful apart hw distinct (live existing rfl)
  case none =>
    have read : (read id).Maintains (Cluster.api others fails) Cluster.IsFaithful s w _ :=
      read_maintains fun _ changed => Cluster.isFaithful_congr (apart changed) hw
    refine .bind read fun found _ _ hw known => ?_
    cases found
    case some existing => exact update_faithful apart hw distinct (known.right existing rfl)
    case none => exact .bind (create_faithful apart hw distinct) fun _ _ _ hw hold => .pure hw hold

theorem remove_faithful (hw : w.state.IsFaithful) :
    (remove id : Op τ σ _).KeepsFrom (Cluster.api others fails) Cluster.IsFaithful s w := by
  refine remove_maintains (Q := fun _ => True) fun c changed => ?_
  have faithful := Cluster.isFaithful_congr (apart changed) hw
  refine ⟨faithful, fun c' ⟨_, removed⟩ => ?_, fun _ _ _ => trivial⟩
  subst removed
  exact ⟨faithful.remove, trivial⟩

end Target

end SecretSync
