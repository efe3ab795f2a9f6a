import SecretSync.Proofs.Number.Decimal
import SecretSync.Proofs.Text.Split
import SecretSync.Remote.Google

/-!
How names of Google secrets are written: project and secret, and perhaps the version that is pinned or the word for
the latest one. Such a text is an address, and no other text is one. Main statements: `Spells.ofText?_eq`,
`Address.exists_writes`, `Address.Writes.unique`.
-/

namespace SecretSync.GoogleName

open Text (IsSplit)

variable {t : Text} {name : GoogleName} {pin : Option Text}

-- A part of a name between slashes.
structure IsPart (t : Text) : Prop where
  nonempty : t ≠ []
  free     : CodePoint.ofChar '/' ∉ t

-- What stands for a version, and the digits that it pins.
inductive Version : Text → Option Text → Prop
  | latest : Version "latest" none
  | pinned {digits : Text} (decimal : digits.IsDecimal) : Version digits (some digits)

-- The name of a secret, without a version.
def parent (project secret : Text) : Text :=
  Text.join ['/'] ["projects", project, "secrets", secret]

-- A text names a secret with or without a version, behind which there may be a line end.
inductive Spells : Text → GoogleName → Prop
  | bare {project secret : Text} (inProject : IsPart project) (isSecret : IsPart secret) :
    Spells (parent project secret) ⟨parent project secret, none⟩
  | version {project secret version : Text} {pin : Option Text} (inProject : IsPart project)
    (isSecret : IsPart secret) (of : Version version pin) :
    Spells (Text.join ['/'] [parent project secret, "versions", version]) ⟨parent project secret, pin⟩
  | line {project secret version : Text} {pin : Option Text} (inProject : IsPart project)
    (isSecret : IsPart secret) (of : Version version pin) :
    Spells (Text.join ['/'] [parent project secret, "versions", version ++ [CodePoint.ofChar '\n']])
      ⟨parent project secret, pin⟩

theorem Version.free {c : CodePoint} (version : Version t pin) (apart : c.digit? = none)
    (other : c ∉ Text.ofString "latest") : c ∉ t := by
  cases version
  case latest => exact other
  case pinned decimal => exact decimal.free apart

theorem Version.slash_free (version : Version t pin) : CodePoint.ofChar '/' ∉ t :=
  version.free (by decide) (by decide)

theorem Version.slash_free_line (version : Version t pin) : CodePoint.ofChar '/' ∉ t ++ [CodePoint.ofChar '\n'] := by
  rw [List.mem_append]
  exact not_or.mpr ⟨version.slash_free, by decide⟩

theorem dropNewline_eq_self (h : CodePoint.ofChar '\n' ∉ t) : dropNewline t = t := by
  rw [dropNewline]
  exact if_neg fun last => h (List.mem_of_getLast? last)

theorem dropNewline_append : dropNewline (t ++ [CodePoint.ofChar '\n']) = t := by
  have last : (t ++ [CodePoint.ofChar '\n']).getLast? = some (CodePoint.ofChar '\n') := List.getLast?_concat
  rw [dropNewline]
  exact (if_pos last).trans List.dropLast_concat

theorem ne_latest_of_isDecimal {digits : Text} (decimal : digits.IsDecimal) : digits ≠ Text.ofString "latest" := by
  intro eq
  have letter := decimal.digits 'l' (eq ▸ List.mem_cons_self)
  exact absurd letter (by decide)

theorem version?_of_version (version : Version t pin) {s : Text} (h : dropNewline s = t) : version? s = some pin := by
  rw [version?, h]
  cases version
  case latest => rfl
  case pinned decimal =>
    have apart := ne_latest_of_isDecimal decimal
    have digits : (!t.isEmpty && t.all (·.digit?.isSome)) = true := by
      simpa [decimal.nonempty] using decimal.digits
    exact (if_neg apart).trans (if_pos digits)

theorem isSecret_parts {project secret : Text} (inProject : IsPart project) (isSecret : IsPart secret) :
    ofText?.isSecret "projects" project "secrets" secret = true := by
  simp [ofText?.isSecret, inProject.nonempty, isSecret.nonempty]

theorem split_parent {project secret : Text} (inProject : IsPart project) (isSecret : IsPart secret) :
    Text.split '/' (parent project secret) =
      [Text.ofString "projects", project, Text.ofString "secrets", secret] := by
  refine Text.isSplit_iff.mp ⟨List.cons_ne_nil _ _, ?_, rfl⟩
  simp only [List.forall_mem_cons]
  exact ⟨by decide, inProject.free, by decide, isSecret.free, List.forall_mem_nil _⟩

theorem split_version {project secret s : Text} (inProject : IsPart project) (isSecret : IsPart secret)
    (free : CodePoint.ofChar '/' ∉ s) : Text.split '/' (Text.join ['/'] [parent project secret, "versions", s]) =
      [Text.ofString "projects", project, Text.ofString "secrets", secret, Text.ofString "versions", s] := by
  refine Text.isSplit_iff.mp ⟨List.cons_ne_nil _ _, ?_, by simp [Text.join, parent]⟩
  simp only [List.forall_mem_cons]
  exact ⟨by decide, inProject.free, by decide, isSecret.free, by decide, free, List.forall_mem_nil _⟩

theorem ofText?_parent {project secret : Text} (inProject : IsPart project) (isSecret : IsPart secret) :
    ofText? (parent project secret) = some ⟨parent project secret, none⟩ := by
  simp only [ofText?, split_parent inProject isSecret, isSecret_parts inProject isSecret, if_true]
  rfl

theorem ofText?_version {project secret version s : Text} (inProject : IsPart project) (isSecret : IsPart secret)
    (of : Version version pin) (h : dropNewline s = version) (free : CodePoint.ofChar '/' ∉ s) :
    ofText? (Text.join ['/'] [parent project secret, "versions", s]) = some ⟨parent project secret, pin⟩ := by
  simp only [ofText?, split_version inProject isSecret free, isSecret_parts inProject isSecret, Bool.true_and,
    decide_true, if_true, version?_of_version of h]
  rfl

-- What is written as a name is read as it.
theorem Spells.ofText?_eq (spells : Spells t name) : ofText? t = some name := by
  cases spells
  case bare inProject isSecret => exact ofText?_parent inProject isSecret
  case version inProject isSecret of =>
    exact ofText?_version inProject isSecret of (dropNewline_eq_self (of.free (by decide) (by decide))) of.slash_free
  case line inProject isSecret of =>
    exact ofText?_version inProject isSecret of dropNewline_append of.slash_free_line

theorem Version.isDecimal {digits : Text} (version : Version t (some digits)) : digits.IsDecimal := by
  cases version
  assumption

theorem Spells.isDecimal (spells : Spells t name) {digits : Text} (pinned : name.pin = some digits) :
    digits.IsDecimal := by
  cases spells
  case bare => cases pinned
  case version of =>
    cases pinned
    exact of.isDecimal
  case line of =>
    cases pinned
    exact of.isDecimal

theorem Version.pin_eq (version : Version t pin) : (some t).filter (· ≠ Text.ofString "latest") = pin := by
  cases version
  case latest => rfl
  case pinned decimal => simp [ne_latest_of_isDecimal decimal]

theorem eq_dropNewline (t : Text) : t = dropNewline t ∨ t = dropNewline t ++ [CodePoint.ofChar '\n'] := by
  rw [dropNewline]
  split
  case isFalse => exact .inl rfl
  case isTrue last =>
    obtain ⟨front, eq⟩ := List.getLast?_eq_some_iff.mp last
    exact .inr (by rw [eq, List.dropLast_concat]; rfl)

theorem version_of_version? (h : version? t = some pin) : Version (dropNewline t) pin := by
  simp only [version?] at h
  split at h
  case isTrue word =>
    cases h
    exact word ▸ .latest
  case isFalse =>
    split at h
    case isFalse => cases h
    case isTrue digits =>
      cases h
      simp only [Bool.and_eq_true, Bool.not_eq_true', List.isEmpty_eq_false_iff, List.all_eq_true] at digits
      exact .pinned ⟨digits.left, digits.right⟩

-- Where Google keeps a secret: in a project and under a name of its own. What stands for a version is kept as it is
-- written.
structure Address where
  project : Text
  secret  : Text
  version : Option Text

namespace Address

variable {a b : Address}

-- What is asked for at an address. The word for the latest version pins nothing.
def googleName (a : Address) : GoogleName where
  secret := parent a.project a.secret
  pin    := a.version.filter (· ≠ Text.ofString "latest")

-- A text is an address, behind which there may be a line end if a version is given.
inductive Writes : Address → Text → Prop
  | bare {project secret : Text} (inProject : IsPart project) (isSecret : IsPart secret) :
    Writes ⟨project, secret, none⟩ (parent project secret)
  | version {project secret version : Text} {pin : Option Text} (inProject : IsPart project)
    (isSecret : IsPart secret) (of : Version version pin) :
    Writes ⟨project, secret, some version⟩ (Text.join ['/'] [parent project secret, "versions", version])
  | line {project secret version : Text} {pin : Option Text} (inProject : IsPart project)
    (isSecret : IsPart secret) (of : Version version pin) :
    Writes ⟨project, secret, some version⟩
      (Text.join ['/'] [parent project secret, "versions", version ++ [CodePoint.ofChar '\n']])

theorem Writes.spells (writes : a.Writes t) : Spells t a.googleName := by
  cases writes
  case bare inProject isSecret => exact .bare inProject isSecret
  case version inProject isSecret of =>
    rw [googleName, of.pin_eq]
    exact .version inProject isSecret of
  case line inProject isSecret of =>
    rw [googleName, of.pin_eq]
    exact .line inProject isSecret of

-- The parts between slashes are those of the address.
theorem Writes.split_eq (writes : a.Writes t) :
    (a.version = none ∧
      Text.split '/' t = [Text.ofString "projects", a.project, Text.ofString "secrets", a.secret]) ∨
    ∃ s, a.version = some (dropNewline s) ∧ Text.split '/' t =
      [Text.ofString "projects", a.project, Text.ofString "secrets", a.secret, Text.ofString "versions", s] := by
  cases writes
  case bare inProject isSecret => exact .inl ⟨rfl, split_parent inProject isSecret⟩
  case version inProject isSecret of =>
    have same := dropNewline_eq_self (of.free (by decide) (by decide))
    exact .inr ⟨_, congrArg some same.symm, split_version inProject isSecret of.slash_free⟩
  case line inProject isSecret of =>
    exact .inr ⟨_, congrArg some dropNewline_append.symm, split_version inProject isSecret of.slash_free_line⟩

-- There is one way to take an address out of a text.
theorem Writes.unique (writes : a.Writes t) (writes' : b.Writes t) : a = b := by
  obtain ⟨project, secret, version⟩ := a
  obtain ⟨project', secret', version'⟩ := b
  rcases writes.split_eq with ⟨bare, parts⟩ | ⟨s, written, parts⟩
  all_goals
    rcases writes'.split_eq with ⟨bare', parts'⟩ | ⟨s', written', parts'⟩
    all_goals cases parts.symm.trans parts'
  case inl.inl => simp_all
  case inr.inr => simp_all

theorem parts_of_isSecret {projects project secrets secret : Text}
    (h : ofText?.isSecret projects project secrets secret = true) :
    projects = Text.ofString "projects" ∧ project ≠ [] ∧ secrets = Text.ofString "secrets" ∧ secret ≠ [] := by
  simpa [ofText?.isSecret, and_assoc] using h

-- What is read as a name is written as an address.
theorem exists_writes (h : (ofText? t).isSome = true) : ∃ a : Address, a.Writes t := by
  have ⟨_, free, joined⟩ := Text.isSplit_split '/' t
  simp only [ofText?] at h
  split at h
  case h_3 => cases h
  case h_1 projects project secrets secret parts =>
    rw [parts] at free joined
    simp only [List.forall_mem_cons] at free
    split at h
    case isFalse => cases h
    case isTrue known =>
      obtain ⟨rfl, inProject, rfl, isSecret⟩ := parts_of_isSecret known
      subst joined
      exact ⟨⟨project, secret, none⟩, .bare ⟨inProject, free.right.left⟩ ⟨isSecret, free.right.right.right.left⟩⟩
  case h_2 projects project secrets secret versions s parts =>
    rw [parts] at free joined
    simp only [List.forall_mem_cons] at free
    split at h
    case isFalse => cases h
    case isTrue known =>
      obtain ⟨pin, read⟩ := Option.isSome_iff_exists.mp (Option.isSome_map.symm.trans h)
      simp only [Bool.and_eq_true, decide_eq_true_eq] at known
      obtain ⟨⟨rfl, inProject, rfl, isSecret⟩, rfl⟩ := known.imp_left parts_of_isSecret
      have project' : IsPart project := ⟨inProject, free.right.left⟩
      have secret' : IsPart secret := ⟨isSecret, free.right.right.right.left⟩
      have of := version_of_version? read
      have line := eq_dropNewline s
      have joined : Text.join ['/'] [parent project secret, "versions", s] = t := by
        rw [← joined]
        simp [Text.join, parent]
      generalize dropNewline s = version at of line
      refine ⟨⟨project, secret, some version⟩, ?_⟩
      subst joined
      rcases line with rfl | rfl
      case inl => exact .version project' secret' of
      case inr => exact .line project' secret' of

end Address

end SecretSync.GoogleName
