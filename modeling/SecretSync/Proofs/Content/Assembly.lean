import SecretSync.Content.Assembly
import SecretSync.Proofs.Content.Fingerprint
import SecretSync.Proofs.Effect.Run

/-!
What holds of a content however it was put together. Main statement: `distinct_assemble`.
-/

namespace SecretSync

open Table (Distinct)

namespace Content

variable {ν : Type}

theorem distinct_merge {merged : Table Key ν} (distinct : Distinct merged) (toMerge : Table Key ν) :
    Distinct (merge merged toMerge) := by
  induction toMerge generalizing merged
  case nil => exact distinct
  case cons entry _ hi => exact hi (distinct.putNew entry.1 entry.2)

theorem distinct_foldl_merge {merged : Table Key ν} (distinct : Distinct merged)
    (contents : List (Table Key ν)) : Distinct (contents.foldl merge merged) := by
  induction contents generalizing merged
  case nil => exact distinct
  case cons content _ hi => exact hi (distinct_merge distinct content)

theorem distinct_sorted {t inOrder : Table Key ν} (distinct : Distinct t)
    (h : sorted t = .ok inOrder) : Distinct inOrder :=
  distinct.perm (perm_sorted h).symm

variable {τ κ : Type} [Timeline τ] {api : Api κ}

theorem distinct_assemble (settings : Settings τ) (ttl : Span τ) (sources : List Source)
    (s : Session τ) (w : World τ κ) :
    (assemble settings ttl sources).Ensures api s w (fun content _ _ => Distinct content)
      fun _ _ _ => True := by
  refine Op.ensures_bind.mpr ((Op.Ensures.trivial _ s w).mono ?_ fun _ _ _ => id)
  intro contents _ _ _
  rw [Op.ensures_ofResult]
  cases inOrder : sorted (contents.foldl merge [])
  case error => exact trivial
  case ok => exact distinct_sorted (@distinct_foldl_merge _ [] trivial contents) inOrder

end Content

end SecretSync
