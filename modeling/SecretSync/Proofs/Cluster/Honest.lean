import SecretSync.Proofs.Cluster.Api
import SecretSync.Proofs.Effect.Responder

/-!
Runs against an honest cluster can be computed. What the cluster that the operator is run against accepts is
accepted as it may be, and as long as it refuses nothing but calls for what is not there, it is honest. Main
statements: `accepts_answer`, `exists_run_honest`.
-/

namespace SecretSync.Cluster

-- The cluster that the operator is run against does what it may.
theorem accepts_answer {c c' : Cluster} {call : ClusterCall} {answer : call.Answer}
    (h : c.answer call = (.ok answer, c')) : Accepts c call answer c' := by
  cases call
  case readSecret id =>
    simp only [Cluster.answer] at h
    split at h
    case h_1 found =>
      cases h
      exact ⟨found, rfl⟩
    case h_2 => cases h
  case createSecret id manifest =>
    simp only [Cluster.answer] at h
    split at h
    case isTrue => cases h
    case isFalse free =>
      cases h
      exact ⟨by simpa [Table.has] using free, rfl⟩
  case patchSecret id patch =>
    simp only [Cluster.answer] at h
    split at h
    case h_1 found =>
      split at h
      case isTrue =>
        cases h
        exact ⟨_, found, rfl⟩
      case isFalse => cases h
    case h_2 => cases h
  case deleteSecret id =>
    simp only [Cluster.answer] at h
    split at h
    case isTrue held =>
      cases h
      exact ⟨by simpa [Table.has, Option.isSome_iff_ne_none] using held, rfl⟩
    case isFalse => cases h
  case getObject id =>
    simp only [Cluster.answer] at h
    split at h
    case h_1 found =>
      cases h
      exact ⟨found, rfl⟩
    case h_2 => cases h
  case patchObject id patch =>
    simp only [Cluster.answer, Cluster.patchObject] at h
    split at h
    case h_1 body found =>
      split at h
      case isTrue fits =>
        split at h
        case h_1 version _ =>
          cases h
          exact ⟨body, version, found, fits, .kept⟩
        case h_2 => cases h
      case isFalse => cases h
    case h_2 => cases h

instance (c : Cluster) (call : ClusterCall) : Decidable (c.Lacks call) :=
  match call with
  | .readSecret _ => inferInstanceAs (Decidable (_ = none))
  | .createSecret _ _ => inferInstanceAs (Decidable (_ = none))
  | .patchSecret _ _ => inferInstanceAs (Decidable (_ = none))
  | .deleteSecret _ => inferInstanceAs (Decidable (_ = none))
  | .getObject _ => inferInstanceAs (Decidable (_ = none))
  | .patchObject _ _ => inferInstanceAs (Decidable (_ = none))

-- A cluster that answers, with whether it has refused only calls for what was not there. Remote services
-- never change, and no time passes.
def answering (told : (call : RemoteCall) → Result call.Answer) : Responder Int (Cluster × Bool)
  | .cluster call => fun (c, honest) =>
    match c.answer call with
    | (.ok answer, c') => (.ok answer, c', honest)
    | (.error _, _) => (.error notFound, c, honest && decide (c.Lacks call))
  | .remote call => fun x => (told call, x)
  | .now => fun x => (0, x)
  | .wait _ => fun x => ((), x)

theorem serves_answering (told : (call : RemoteCall) → Result call.Answer) :
    (answering told).Serves honest (fun x => x.1) fun x => x.2 = true where
  before call x fine := by
    cases call
    case cluster call =>
      obtain ⟨c, so⟩ := x
      simp only [answering] at fine
      split at fine
      case h_1 => exact fine
      case h_2 => exact (Bool.and_eq_true_iff.mp fine).left
    all_goals exact fine
  answers call x w same fine := by
    cases call
    case cluster call =>
      obtain ⟨c, so⟩ := x
      simp only [answering] at same fine ⊢
      split at fine
      case h_1 answer c' accepted =>
        exact ⟨_, .cluster rfl (same ▸ accepts_answer accepted), rfl⟩
      case h_2 =>
        have lacks : c.Lacks call := of_decide_eq_true (Bool.and_eq_true_iff.mp fine).right
        exact ⟨_, .cluster rfl ⟨⟨same ▸ lacks, rfl⟩, rfl⟩, same⟩
    case remote => exact ⟨_, .remote rfl, same⟩
    case now => exact ⟨_, .now rfl, same⟩
    case wait => exact ⟨_, .wait rfl, same⟩

-- What is computed with it is a run against an honest cluster.
theorem exists_run_honest {σ α : Type} {told : (call : RemoteCall) → Result call.Answer} {op : Op Int σ α}
    {s : σ} {x : Cluster × Bool} {y : (Result α × σ) × Cluster × Bool} {w : World Int Cluster}
    (h : op.answered (answering told) s x = y) (same : w.state = x.1) (fine : y.2.2 = true) :
    ∃ w', op.Run honest s w y.1.1 y.1.2 w' ∧ w'.state = y.2.1 :=
  Op.exists_run_of_serves (answering told) (serves_answering told) h same fine

end SecretSync.Cluster
