import SecretSync.Json.Parser
import SecretSync.Proofs.Result

/-!
What can go wrong in reading JSON text: the text is not of the form it should be, or its brackets are nested deeper
than there is room for. Main statements: `scalar_failsOnly` and the laws of `Refuses`.
-/

namespace SecretSync.Json

open Result (FailsOnly failsOnly_ok failsOnly_error failsOnly_ofOption)

-- The faults that readers of single values recover from.
abbrev Unreadable (fault : Fault) : Prop := fault.isUnreadableValue = true

theorem malformed : Unreadable .malformedJson :=
  rfl

theorem string_failsOnly (t : Text) : FailsOnly Unreadable (string t) := by
  rw [string]
  exact (failsOnly_ofOption _ malformed).bind fun _ => failsOnly_ok _

theorem unsignedNumber_failsOnly (negative : Bool) (t : Text) :
    FailsOnly Unreadable (unsignedNumber negative t) := by
  have unreadable : Unreadable .unreadable := rfl
  rw [unsignedNumber]
  refine (failsOnly_ofOption _ malformed).bind fun read => ?_
  obtain ⟨whole, rest⟩ := read
  dsimp only
  split
  case h_1 => exact (failsOnly_ofOption _ unreadable).bind fun _ => failsOnly_ok _
  case h_2 => exact failsOnly_ok _

theorem scalar_failsOnly (t : Text) : FailsOnly Unreadable (scalar t) := by
  rw [scalar.eq_def]
  split
  case h_1 found _ => exact failsOnly_ok found
  case h_2 =>
    split
    case h_1 =>
      split
      all_goals exact unsignedNumber_failsOnly _ _
    case h_2 => exact failsOnly_error malformed

-- The brackets that a text opens, inside of string literals too.
def openings (t : Text) : Nat :=
  t.countP fun c : CodePoint => c = '[' ∨ c = '{'

-- What reading a text fails with, when brackets in it can be nested so deep: the text is not of the form it should
-- be, or it opens more brackets than that.
def Refuses (room : Nat) (t : Text) (fault : Fault) : Prop :=
  Unreadable fault ∨ (fault = .nestedTooDeeply ∧ room < openings t)

variable {room : Nat} {s t : Text} {fault : Fault}

theorem Refuses.of_suffix (h : Refuses room s fault) (suffix : s <:+ t) : Refuses room t fault :=
  h.imp_right fun ⟨eq, more⟩ => ⟨eq, Nat.lt_of_lt_of_le more suffix.sublist.countP_le⟩

theorem Refuses.enter {c : CodePoint} (h : Refuses room t fault) (opens : c = '[' ∨ c = '{') :
    Refuses (room + 1) (c :: t) fault :=
  h.imp_right fun ⟨eq, more⟩ => ⟨eq, by simpa [openings, List.countP_cons, opens] using more⟩

-- Without any room there is none for a bracket.
theorem refuses_bracket {c : CodePoint} (opens : c = '[' ∨ c = '{') (cs : Text) :
    Refuses 0 (c :: cs) .nestedTooDeeply :=
  .inr ⟨rfl, by simp [openings, opens]⟩

end SecretSync.Json
