import SecretSync.Proofs.Cluster.Body

/-!
Changing a guard, while something is kept true of the cluster. What an accepted change brings about is so
after a change that succeeds. Main statement: `Guard.add_maintains`.
-/

namespace SecretSync.Guard

open Cluster (Accepts)

variable {τ : Type} {fails : Cluster → ClusterCall → Fault → Prop} {P Q : Cluster → Prop} {id : ResourceId}
  {s : Snapshot} {w : World τ Cluster}

theorem noteReply_maintains {κ : Type} {api : Api κ} {P : κ → Prop} (reply : Value) {s : Snapshot}
    {w : World τ κ} (hw : P w.state) :
    (noteReply reply : Op τ Snapshot Unit).Maintains api P s w fun _ _ w' => w' = w := by
  cases reply
  case object members =>
    exact .bind_ofResult hw fun _ _ => .bind_ofResult hw fun _ _ => .modify hw rfl
  all_goals exact .pure hw rfl

section

variable {change : Change} (hw : P w.state)
  (brings : ∀ {c c' s told}, P c → Accepts c (.patchObject id (change.patch s)) told c' → P c' ∧ Q c')
include hw brings

theorem write_maintains :
    (write id change : Op τ Snapshot Unit).Maintains (Cluster.api Eq fails) P s w
      fun _ _ w' => Q w'.state := by
  have accepted : (Op.cluster (.patchObject id (change.patch s))).Maintains (Cluster.api Eq fails) P s w
      fun _ _ w' => Q w'.state := by
    refine Cluster.maintains_call fun before same => ?_
    subst same
    exact ⟨hw, fun _ _ => brings hw⟩
  refine .bind_get (.bind accepted fun reply _ _ hw brought => .bind_modify ?_)
  exact (noteReply_maintains reply hw).mono fun _ _ _ _ same => same ▸ brought

theorem change_maintains :
    (Guard.change id change : Op τ Snapshot Unit).Maintains (Cluster.api Eq fails) P s w
      fun _ _ w' => Q w'.state := by
  refine .bind (.attempt (write_maintains hw brings)) fun result s₁ w₁ hw brought => ?_
  cases result
  case ok => exact .pure hw (brought () rfl)
  case error fault =>
    simp only
    split
    case isFalse => exact .throw hw fault
    case isTrue =>
      -- The change is made once more, to what is there now.
      have again : (refresh id : Op τ Snapshot Unit).Keeps (Cluster.api Eq fails) P := by
        apply Op.Asks.keeps (refresh_asks id change) fun same held => same ▸ held
        intro c call reply c' asked replied held
        cases reply
        case error => exact replied.right ▸ held
        case ok told =>
          have accepted : Accepts c call told c' := replied
          cases call
          case getObject => exact accepted.right ▸ held
          case patchObject =>
            have ⟨same, _, made⟩ := asked
            subst same made
            exact (brings held accepted).left
          all_goals exact asked.elim
      exact .bind (again s₁ w₁ hw) fun _ _ _ hw _ => write_maintains hw brings

end

theorem add_maintains {finalizer : Text} (hw : P w.state)
    (known : .text finalizer ∈ s.finalizers → Q w.state)
    (brings : ∀ {c c' s told}, P c → Accepts c (.patchObject id ((addition finalizer).patch s)) told c' →
      P c' ∧ Q c') :
    (add id finalizer : Op τ Snapshot Bool).Maintains (Cluster.api Eq fails) P s w
      fun _ _ w' => Q w'.state := by
  apply Op.Maintains.bind_get
  split
  case isTrue has => exact .pure hw (known (hasFinalizer_iff.mp has))
  case isFalse => exact .bind (change_maintains hw brings) fun _ _ _ hw brought => .pure hw brought

end SecretSync.Guard
