import SecretSync.Fault

/-!
When a computation in steps succeeds: each step succeeds, with what the steps before it gave. It fails with
what one of its steps fails with.
-/

namespace SecretSync.Result

variable {α β : Type}

@[simp]
theorem pure_eq_ok_iff {a b : α} : (pure a : Result α) = .ok b ↔ a = b := by
  constructor
  case mp => exact Except.ok.inj
  case mpr => exact congrArg _

@[simp]
theorem bind_eq_ok_iff {result : Result α} {f : α → Result β} {b : β} :
    (result >>= f) = .ok b ↔ ∃ a, result = .ok a ∧ f a = .ok b := by
  cases result
  case ok a => exact ⟨fun h => ⟨a, rfl, h⟩, fun ⟨_, eq, h⟩ => Except.ok.inj eq ▸ h⟩
  case error => exact ⟨nofun, nofun⟩

@[simp]
theorem ofOption_eq_ok_iff {fault : Fault} {o : Option α} {a : α} :
    ofOption fault o = .ok a ↔ o = some a := by
  cases o
  case none => exact ⟨nofun, nofun⟩
  case some =>
    constructor
    case mp => exact fun h => congrArg _ (Except.ok.inj h)
    case mpr => exact fun h => congrArg _ (Option.some.inj h)

theorem toOption_eq_some_iff {result : Result α} {a : α} :
    result.toOption = some a ↔ result = .ok a := by
  cases result
  case ok =>
    constructor
    case mp => exact fun h => congrArg _ (Option.some.inj h)
    case mpr => exact fun h => congrArg _ (Except.ok.inj h)
  case error => exact ⟨nofun, nofun⟩

theorem toOption_bind_congr {result result' : Result α} {f : α → Result β}
    (h : result.toOption = result'.toOption) : (result >>= f).toOption = (result' >>= f).toOption := by
  cases result
  all_goals
    cases result'
    all_goals cases h
    all_goals rfl

theorem mapM_eq_ok_map {f : α → Result β} {g : α → β} {items : List α}
    (h : ∀ item ∈ items, f item = .ok (g item)) : items.mapM f = .ok (items.map g) := by
  induction items
  case nil => rfl
  case cons item rest hi =>
    have ⟨first, others⟩ := List.forall_mem_cons.mp h
    rw [List.mapM_cons, first, hi others]
    rfl

-- Every fault of the computation is of a kind.
def FailsOnly (Kind : Fault → Prop) (result : Result α) : Prop :=
  ∀ fault, result = .error fault → Kind fault

variable {Kind : Fault → Prop}

theorem failsOnly_ok (a : α) : FailsOnly Kind (.ok a : Result α) :=
  nofun

theorem failsOnly_error {fault : Fault} (h : Kind fault) : FailsOnly Kind (.error fault : Result α) := by
  intro other eq
  cases eq
  exact h

theorem failsOnly_ofOption {fault : Fault} (o : Option α) (h : Kind fault) :
    FailsOnly Kind (ofOption fault o) := by
  cases o
  case none => exact failsOnly_error h
  case some a => exact failsOnly_ok a

theorem FailsOnly.mono {Kind' : Fault → Prop} {result : Result α} (h : FailsOnly Kind result)
    (weaker : ∀ fault, Kind fault → Kind' fault) : FailsOnly Kind' result :=
  fun fault eq => weaker fault (h fault eq)

theorem FailsOnly.bind {result : Result α} {f : α → Result β} (first : FailsOnly Kind result)
    (next : ∀ a, FailsOnly Kind (f a)) : FailsOnly Kind (result >>= f) := by
  cases result
  case ok a => exact next a
  case error fault => exact failsOnly_error (first fault rfl)

theorem FailsOnly.recover {result : Result α} (h : FailsOnly Kind result) (fallback : α) :
    FailsOnly Kind (result.recover fallback) := by
  cases result
  case ok a => exact failsOnly_ok a
  case error fault =>
    rw [Result.recover]
    split
    case isTrue => exact failsOnly_ok fallback
    case isFalse => exact h

end SecretSync.Result
