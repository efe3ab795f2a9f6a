import SecretSync.Proofs.Json.Literal
import SecretSync.Proofs.Table

/-!
What JSON text can hold. Main statement: `IsJson.isDocument`.
-/

namespace SecretSync

-- The documents whose texts are of a kind and whose integers have no more digits than a numeral.
inductive Value.IsJson (Kind : Text → Prop) : Value → Prop
  | null : IsJson Kind .null
  | bool (b : Bool) : IsJson Kind (.bool b)
  | int {n : Int} (short : (Text.ofNat n.natAbs).length ≤ Numeral.maxDigits) : IsJson Kind (.int n)
  | float (x : Float) : IsJson Kind (.float x)
  | text {t : Text} (kind : Kind t) : IsJson Kind (.text t)
  | list {items : List Value} (each : ∀ v ∈ items, IsJson Kind v) : IsJson Kind (.list items)
  | object {members : List (Text × Value)} (distinct : Table.Distinct members)
      (names : ∀ member ∈ members, Kind member.1) (each : ∀ member ∈ members, IsJson Kind member.2) :
      IsJson Kind (.object members)

-- The documents without floats whose texts are free of surrogates and whose integers have no more digits
-- than a numeral.
inductive Value.IsPlain : Value → Prop
  | null : IsPlain .null
  | bool (b : Bool) : IsPlain (.bool b)
  | int {n : Int} (short : (Text.ofNat n.natAbs).length ≤ Numeral.maxDigits) : IsPlain (.int n)
  | text {t : Text} (scalar : t.isScalar = true) : IsPlain (.text t)
  | list {items : List Value} (each : ∀ v ∈ items, IsPlain v) : IsPlain (.list items)
  | object {members : List (Text × Value)} (distinct : Table.Distinct members)
      (names : ∀ member ∈ members, member.1.isScalar = true) (each : ∀ member ∈ members, IsPlain member.2) :
      IsPlain (.object members)

mutual

-- How deep the lists and objects in a value are nested.
def Value.depth : Value → Nat
  | .list items => depthOfItems items + 1
  | .object members => depthOfMembers members + 1
  | _ => 0

def Value.depthOfItems : List Value → Nat
  | [] => 0
  | v :: vs => max v.depth (depthOfItems vs)

def Value.depthOfMembers : List (Text × Value) → Nat
  | [] => 0
  | (_, v) :: rest => max v.depth (depthOfMembers rest)

end

namespace Json

theorem areDocuments_of_forall {items : List Value} (h : ∀ v ∈ items, isDocument v = true) :
    areDocuments items = true := by
  induction items
  case nil => rfl
  case cons v vs hi =>
    have ⟨first, others⟩ := List.forall_mem_cons.mp h
    rw [areDocuments, first, hi others]
    rfl

theorem membersAreDocuments_of_forall {ms : List (Text × Value)} (h : ∀ member ∈ ms, isDocument member.2 = true) :
    membersAreDocuments ms = true := by
  induction ms
  case nil => rfl
  case cons member ms hi =>
    have ⟨first, others⟩ := List.forall_mem_cons.mp h
    rw [membersAreDocuments.eq_def]
    simp only [first, hi others]
    rfl

end Json

namespace Value

theorem depthOfItems_le_iff {items : List Value} {n : Nat} :
    depthOfItems items ≤ n ↔ ∀ v ∈ items, v.depth ≤ n := by
  induction items
  case nil => simp [depthOfItems]
  case cons v vs hi => rw [depthOfItems, Nat.max_le, hi, List.forall_mem_cons]

theorem depthOfMembers_le_iff {members : List (Text × Value)} {n : Nat} :
    depthOfMembers members ≤ n ↔ ∀ member ∈ members, member.2.depth ≤ n := by
  induction members
  case nil => simp [depthOfMembers]
  case cons member rest hi => rw [depthOfMembers, Nat.max_le, hi, List.forall_mem_cons]

@[simp]
theorem depth_list_le_iff {items : List Value} {n : Nat} :
    (list items).depth ≤ n + 1 ↔ ∀ v ∈ items, v.depth ≤ n := by
  rw [depth, Nat.add_le_add_iff_right, depthOfItems_le_iff]

@[simp]
theorem depth_object_le_iff {members : List (Text × Value)} {n : Nat} :
    (object members).depth ≤ n + 1 ↔ ∀ member ∈ members, member.2.depth ≤ n := by
  rw [depth, Nat.add_le_add_iff_right, depthOfMembers_le_iff]

theorem depth_object_le_of_subset {members others : List (Text × Value)} (subset : members ⊆ others) :
    (object members).depth ≤ (object others).depth :=
  depth_object_le_iff.mpr fun _ mem => depthOfMembers_le_iff.mp (Nat.le_refl _) _ (subset mem)

theorem depth_le_of_mem {member : Text × Value} {members : List (Text × Value)} (mem : member ∈ members) :
    member.2.depth ≤ (object members).depth :=
  Nat.le_succ_of_le (depthOfMembers_le_iff.mp (Nat.le_refl _) member mem)

variable {Kind Kind' : Text → Prop} {v : Value}

theorem IsJson.mono (h : ∀ t, Kind t → Kind' t) (json : v.IsJson Kind) : v.IsJson Kind' := by
  induction json
  case null => exact .null
  case bool b => exact .bool b
  case int short => exact .int short
  case float x => exact .float x
  case text kind => exact .text (h _ kind)
  case list each => exact .list each
  case object distinct names _ each => exact .object distinct (fun member mem => h _ (names member mem)) each

theorem IsPlain.isJson (plain : v.IsPlain) : v.IsJson (·.isScalar = true) := by
  induction plain
  case null => exact .null
  case bool b => exact .bool b
  case int short => exact .int short
  case text scalar => exact .text scalar
  case list each => exact .list each
  case object distinct names _ each => exact .object distinct names each

theorem IsPlain.isJoined (plain : v.IsPlain) : v.IsJson Text.IsJoined :=
  plain.isJson.mono fun _ => Text.isJoined_of_isScalar

theorem IsJson.isDocument (json : v.IsJson Kind) : Json.isDocument v = true := by
  induction json
  case null => rfl
  case bool => rfl
  case int => rfl
  case float => rfl
  case text => rfl
  case list each => exact Json.areDocuments_of_forall each
  case object each => exact Json.membersAreDocuments_of_forall each

theorem IsJson.print_eq (json : v.IsJson Kind) : Json.print v = .ok (Json.render v) :=
  if_pos json.isDocument

end Value

end SecretSync
