import SecretSync.Proofs.Number.Decimal
import SecretSync.Proofs.Sorting.Latest
import SecretSync.Proofs.Text.Split
import SecretSync.Remote.Google

/-!
Which version of a Google secret is chosen. Of those that count it is the latest one, in whatever order they are
listed, but numerals with too many digits are not read. Main statements: `selectVersion_of_readable`,
`selectVersion_of_overlong`, `selectVersion_perm`.
-/

namespace SecretSync

open Numeral (maxDigits)

-- The name of a version ends in a numeral.
structure SecretVersion.IsNumbered (version : SecretVersion) (numeral : Text) : Prop where
  named   : ∃ front : Text, version.name = front ++ CodePoint.ofChar '/' :: numeral
  decimal : numeral.IsDecimal

namespace Google

variable {pin : Option Text} {version : SecretVersion} {numeral : Text}

-- Whether a version counts under a pin, by the numeral that its name ends in.
def Counts (pin : Option Text) (numeral : Text) : Prop :=
  ∀ digits, pin = some digits → numeral.decimal ≤ digits.decimal

instance : Decidable (Counts pin numeral) :=
  match pin with
  | none => isTrue fun _ eq => nomatch eq
  | some digits =>
    decidable_of_iff (numeral.decimal ≤ digits.decimal) ⟨fun le _ eq => Option.some.inj eq ▸ le, fun h => h _ rfl⟩

-- Numerals are only compared under a pin, and then neither may have too many digits.
def IsOverlong (pin : Option Text) (numeral : Text) : Prop :=
  ∃ digits, pin = some digits ∧ (maxDigits < digits.length ∨ maxDigits < numeral.length)

theorem versionNumber_eq (numbered : version.IsNumbered numeral) :
    versionNumber version =
      if numeral.length ≤ maxDigits then .ok (numeral.decimal : Int) else .error .unreadable := by
  obtain ⟨front, named⟩ := numbered.named
  rw [versionNumber, named, Text.afterLast?_append front (numbered.decimal.free (by decide))]
  change Result.ofOption .unreadable (Numeral.int? numeral) = _
  rw [Numeral.int?_of_isDecimal numbered.decimal]
  split <;> rfl

section

variable (numbered : version.IsNumbered numeral) (pinned : ∀ digits, pin = some digits → digits.IsDecimal)
include numbered pinned

theorem qualifies_of_readable (readable : ¬IsOverlong pin numeral) :
    qualifies pin version = .ok (decide (Counts pin numeral)) := by
  cases pin
  case none => rw [decide_eq_true (show Counts none numeral from nofun)]; rfl
  case some digits =>
    have short : numeral.length ≤ maxDigits := Nat.le_of_not_lt fun long => readable ⟨_, rfl, .inr long⟩
    have shortPin : digits.length ≤ maxDigits := Nat.le_of_not_lt fun long => readable ⟨_, rfl, .inl long⟩
    rw [qualifies, versionNumber_eq numbered, if_pos short, Numeral.int?_of_isDecimal (pinned _ rfl), if_pos shortPin]
    simp [Counts, bind, Except.bind, pure, Except.pure, Result.ofOption]

theorem qualifies_of_overlong (overlong : IsOverlong pin numeral) : qualifies pin version = .error .unreadable := by
  obtain ⟨digits, eq, long⟩ := overlong
  subst eq
  rw [qualifies, versionNumber_eq numbered, Numeral.int?_of_isDecimal (pinned _ rfl)]
  by_cases short : numeral.length ≤ maxDigits
  case neg => rw [if_neg short]; rfl
  case pos =>
    have longPin : ¬digits.length ≤ maxDigits := by omega
    rw [if_pos short, if_neg longPin]
    rfl

end

-- The loop over the versions keeps the first of the latest ones that count.
theorem latest_eq_foldl {counts : SecretVersion → Bool} {versions : List SecretVersion}
    (readable : ∀ v ∈ versions, qualifies pin v = .ok (counts v)) (best : Option SecretVersion) :
    latest pin best versions =
      .ok ((versions.filter counts).foldl (List.argAux fun a b => b.created < a.created) best) := by
  induction versions generalizing best
  case nil => rfl
  case cons v rest hi =>
    have ⟨first, others⟩ := List.forall_mem_cons.mp readable
    have kept : List.argAux (fun a b => b.created < a.created) best v = some (later best v) := by
      cases best
      case none => rfl
      case some b =>
        simp only [List.argAux, later]
        split <;> rfl
    rw [latest, first, List.filter_cons]
    cases counts v
    case true =>
      rw [if_pos rfl, List.foldl_cons, kept]
      exact hi others _
    case false => exact hi others best

theorem latest_of_unreadable {versions : List SecretVersion}
    (each : ∀ v ∈ versions, (∃ b, qualifies pin v = .ok b) ∨ qualifies pin v = .error .unreadable)
    (unreadable : ∃ v ∈ versions, qualifies pin v = .error .unreadable) (best : Option SecretVersion) :
    latest pin best versions = .error .unreadable := by
  induction versions generalizing best
  case nil => simp at unreadable
  case cons v rest hi =>
    have ⟨first, others⟩ := List.forall_mem_cons.mp each
    rw [latest]
    rcases first with ⟨b, read⟩ | failed
    case inr => rw [failed]; rfl
    case inl =>
      have later : ∃ v ∈ rest, qualifies pin v = .error .unreadable := by
        simpa [List.exists_mem_cons_iff, read] using unreadable
      rw [read]
      cases b
      all_goals exact hi others later _

theorem selectVersion_eq (name : GoogleName) (versions : List SecretVersion) :
    selectVersion name versions =
      latest name.pin none (Sorting.sort (Sorting.earlier SecretVersion.created) versions) >>=
        Result.ofOption (.noActiveVersion (.text name.secret)) :=
  bind_congr fun best => by cases best <;> rfl

section

variable {name : GoogleName} {versions : List SecretVersion} {numeral : SecretVersion → Text}
  (numbered : ∀ v ∈ versions, v.IsNumbered (numeral v))
  (pinned : ∀ digits, name.pin = some digits → digits.IsDecimal)
include numbered pinned

theorem selectVersion_of_readable (readable : ∀ v ∈ versions, ¬IsOverlong name.pin (numeral v)) :
    selectVersion name versions =
      Result.ofOption (.noActiveVersion (.text name.secret))
        (Sorting.latest? SecretVersion.created (fun v => Counts name.pin (numeral v)) versions) := by
  have each : ∀ v ∈ Sorting.sort (Sorting.earlier SecretVersion.created) versions,
      qualifies name.pin v = .ok (decide (Counts name.pin (numeral v))) := by
    intro v mem
    have mem : v ∈ versions := (Sorting.perm_sort _ versions).mem_iff.mp mem
    exact qualifies_of_readable (numbered v mem) pinned (readable v mem)
  rw [selectVersion_eq, latest_eq_foldl each, ← Sorting.latest?_sort]
  rfl

theorem selectVersion_of_overlong (overlong : ∃ v ∈ versions, IsOverlong name.pin (numeral v)) :
    selectVersion name versions = .error .unreadable := by
  have failed : latest name.pin none (Sorting.sort (Sorting.earlier SecretVersion.created) versions) =
      .error .unreadable := by
    apply latest_of_unreadable
    case each =>
      intro v mem
      have mem : v ∈ versions := (Sorting.perm_sort _ versions).mem_iff.mp mem
      by_cases long : IsOverlong name.pin (numeral v)
      case pos => exact .inr (qualifies_of_overlong (numbered v mem) pinned long)
      case neg => exact .inl ⟨_, qualifies_of_readable (numbered v mem) pinned long⟩
    case unreadable =>
      obtain ⟨v, mem, long⟩ := overlong
      exact ⟨v, (Sorting.perm_sort _ versions).mem_iff.mpr mem, qualifies_of_overlong (numbered v mem) pinned long⟩
  rw [selectVersion_eq, failed]
  rfl

-- At different times it does not matter in which order the versions are listed.
theorem selectVersion_perm {others : List SecretVersion} (perm : others.Perm versions)
    (apart : (versions.map SecretVersion.created).Nodup) :
    selectVersion name others = selectVersion name versions := by
  have numbered' : ∀ v ∈ others, v.IsNumbered (numeral v) := fun v mem => numbered v (perm.mem_iff.mp mem)
  by_cases overlong : ∃ v ∈ versions, IsOverlong name.pin (numeral v)
  case pos =>
    have overlong' : ∃ v ∈ others, IsOverlong name.pin (numeral v) := by
      obtain ⟨v, mem, long⟩ := overlong
      exact ⟨v, perm.mem_iff.mpr mem, long⟩
    rw [selectVersion_of_overlong numbered pinned overlong, selectVersion_of_overlong numbered' pinned overlong']
  case neg =>
    have readable : ∀ v ∈ versions, ¬IsOverlong name.pin (numeral v) := fun v mem long => overlong ⟨v, mem, long⟩
    have readable' : ∀ v ∈ others, ¬IsOverlong name.pin (numeral v) :=
      fun v mem => readable v (perm.mem_iff.mp mem)
    rw [selectVersion_of_readable numbered pinned readable, selectVersion_of_readable numbered' pinned readable',
      Sorting.latest?_perm perm apart]

end

end Google

end SecretSync
