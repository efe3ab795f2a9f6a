import SecretSync.Cluster.State
import SecretSync.Proofs.Effect.Separate
import SecretSync.Proofs.Table

/-!
A cluster keeps resources apart: its answer to a call about one resource is made from what there is of that
resource, and the others stay as they are. Which calls it refuses may depend on the call. Main statement:
`separates_standing`.
-/

namespace SecretSync

open Table (Distinct)

namespace Cluster

variable {c c' : Cluster}

def holding (c : Cluster) (id : ResourceId) : Holding where
  secret := c.secrets.get? id
  object := c.objects.get? id

-- Whatever has a name has it once.
def IsDistinct (c : Cluster) : Prop :=
  Distinct c.secrets ∧ Distinct c.objects

theorem IsDistinct.answer (h : c.IsDistinct) (call : ClusterCall) : (c.answer call).2.IsDistinct := by
  have ⟨secrets, objects⟩ := h
  cases call
  all_goals simp only [Cluster.answer]
  case readSecret | getObject =>
    split
    all_goals exact h
  case createSecret id _ =>
    split
    case isTrue => exact h
    case isFalse => exact ⟨secrets.put id _, objects⟩
  case deleteSecret id =>
    split
    case isTrue => exact ⟨secrets.remove id, objects⟩
    case isFalse => exact h
  case patchSecret id _ =>
    split
    case h_2 => exact h
    case h_1 =>
      split
      case isTrue => exact ⟨secrets.put id _, objects⟩
      case isFalse => exact h
  case patchObject id _ =>
    split
    case h_2 => exact h
    case h_1 =>
      split
      case isFalse => exact h
      case isTrue =>
        simp only [patchObject]
        split
        all_goals exact ⟨secrets, objects.put id _⟩

theorem holding_answer_eq (distinct : c.IsDistinct) (distinct' : c'.IsDistinct) {call : ClusterCall}
    (same : c.holding call.subject = c'.holding call.subject) :
    (c.answer call).1 = (c'.answer call).1 ∧
      (c.answer call).2.holding call.subject = (c'.answer call).2.holding call.subject := by
  have secret := congrArg Holding.secret same
  have object := congrArg Holding.object same
  simp only [holding] at secret object
  cases call
  all_goals
    simp only [ClusterCall.subject] at secret object
    simp only [answer, Table.has, patchObject, ClusterCall.subject, secret, object]
    repeat' split
    all_goals simp [holding, putSecret, Table.get?_put_self, Table.get?_remove, distinct.left, distinct'.left, *]

theorem holding_answer_of_ne {call : ClusterCall} {other : ResourceId}
    (apart : (call.subject == other) = false) :
    (c.answer call).2.holding other = c.holding other := by
  cases call
  all_goals
    simp only [ClusterCall.subject] at apart
    simp only [answer, patchObject]
    repeat' split
    all_goals simp [holding, putSecret, Table.get?_put, Table.get?_remove_of_ne, apart]

theorem holding_congr {id other : ResourceId} (same : (id == other) = true) :
    c.holding id = c.holding other := by
  simp only [holding, Table.get?_congr same]

-- A cluster that answers all calls but those that it refuses, at a time that does not pass.
def standing (refuses : ClusterCall → Option Fault) (told : (call : RemoteCall) → Result call.Answer) :
    Responder Int { c : Cluster // c.IsDistinct }
  | .cluster call => fun c =>
    match refuses call with
    | some fault => (.error fault, c)
    | none => ((c.val.answer call).1, ⟨(c.val.answer call).2, c.property.answer call⟩)
  | .remote call => fun c => (told call, c)
  | .now => fun c => (0, c)
  | .wait _ => fun c => ((), c)

theorem separates_standing (refuses : ClusterCall → Option Fault)
    (told : (call : RemoteCall) → Result call.Answer) :
    (standing refuses told).Separates (fun c => c.val.holding) told 0 where
  tells _ _ := rfl
  stopped _ := rfl
  outside call _ outside := by
    cases call
    case cluster => exact absurd trivial outside
    all_goals rfl
  reply call x y same := by
    simp only [standing]
    split
    case h_1 => rfl
    case h_2 => exact (holding_answer_eq x.property y.property same).left
  subject call x y same := by
    simp only [standing]
    split
    case h_1 => exact same
    case h_2 => exact (holding_answer_eq x.property y.property same).right
  others call x other apart := by
    simp only [standing]
    split
    case h_1 => rfl
    case h_2 => exact holding_answer_of_ne apart
  congr _ _ _ same := holding_congr same

end Cluster

end SecretSync
