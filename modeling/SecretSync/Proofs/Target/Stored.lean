import SecretSync.Cluster.State
import SecretSync.Proofs.Content.Fingerprint
import SecretSync.Proofs.Number.Decimal
import SecretSync.Target

/-!
What a secret holds after it has been created or patched. Its data decodes to the content it was written
for, nothing that was there before is left of it, and its label records the fingerprint of that content.
Main statements: `Secret.holds_created`, `Secret.holds_patched`.
-/

namespace SecretSync

open Table (Distinct)

namespace Cluster

variable {data wanted : EncodedData} {other : Key}

theorem patchData_append (data : EncodedData) (patch patch' : Table Key (Option Text)) :
    patchData data (patch ++ patch') = patchData (patchData data patch) patch' :=
  List.foldl_append

theorem distinct_patchData (distinct : Distinct data) (patch : Table Key (Option Text)) :
    Distinct (patchData data patch) := by
  induction patch generalizing data
  case nil => exact distinct
  case cons entry rest hi =>
    have ⟨key, change⟩ := entry
    cases change
    case none => exact hi (distinct.remove key)
    case some t => exact hi (distinct.put key t)

theorem get?_patchData_set (distinct : Distinct wanted) :
    (patchData data (wanted.map fun (key, t) => (key, some t))).get? other =
      (wanted.get? other).or (data.get? other) := by
  induction wanted generalizing data
  case nil => rfl
  case cons entry rest hi =>
    have ⟨key, t⟩ := entry
    -- The rest is set in data that has the first entry already, but does not touch it.
    have behind := @hi (data.put key t) distinct.right
    simp only [List.map_cons, patchData, List.foldl_cons, Table.get?, Table.get?_put] at behind ⊢
    rw [behind]
    split
    case isTrue same => simp [← Table.get?_congr same, distinct.left]
    case isFalse => rfl

theorem get?_patchData_removed (distinct : Distinct data) (extra : EncodedData) :
    (patchData data (extra.map fun (key, _) => (key, none))).get? other =
      if extra.has other then none else data.get? other := by
  induction extra generalizing data
  case nil => rfl
  case cons entry rest hi =>
    have ⟨key, t⟩ := entry
    have behind := hi (distinct.remove key)
    simp only [List.map_cons, patchData, List.foldl_cons] at behind ⊢
    simp only [behind, Table.get?_remove key other distinct, Table.has, Table.get?]
    by_cases same : (key == other) = true
    all_goals simp [same]

theorem has_extra :
    Table.has other (data.filter fun entry => !wanted.has entry.1) =
      (data.has other && !wanted.has other) := by
  induction data
  case nil => rfl
  case cons entry rest hi =>
    have ⟨key, t⟩ := entry
    by_cases same : (key == other) = true
    case pos =>
      have alike : wanted.has key = wanted.has other := by simp [Table.has, Table.get?_congr same]
      simp only [List.filter_cons, alike]
      cases held : wanted.has other
      case true => simpa [held] using hi
      case false => simp [Table.has_cons, same]
    case neg =>
      simp only [List.filter_cons]
      cases wanted.has key
      all_goals simp [Table.has_cons, same, hi]

-- A patch made from what a secret holds leaves exactly what is wanted.
theorem get?_patchData (distinct : Distinct data) (distinct' : Distinct wanted) :
    (patchData data (Target.dataChange data wanted)).get? other = wanted.get? other := by
  simp only [Target.dataChange]
  -- First what is not wanted is removed, then what is wanted is set.
  rw [patchData_append, get?_patchData_removed (distinct_patchData distinct _),
    get?_patchData_set distinct', has_extra]
  cases found : wanted.get? other
  case some => simp [Table.has, found]
  case none =>
    cases h : data.get? other
    all_goals simp [Table.has, found, h]

end Cluster

namespace Labels

theorem fingerprint?_of_get? {labels : Labels} {n : Nat} (h : n < 0x10000000000000000)
    (label : labels.get? hashId = some (.text (Text.ofNat n))) :
    fingerprint? (.object labels) = .ok (some (n : Int)) := by
  have given : (Value.object labels).orEmpty = .object labels := by
    cases labels
    case nil => cases label
    case cons => rfl
  have read : Numeral.int? (Text.ofNat n) = some (n : Int) :=
    Numeral.int?_ofNat_of_lt (k := 19) (by omega) (by decide)
  simp [fingerprint?, recorded, given, Value.select, label, Result.ofOption, Value.toInt, read, bind,
    Except.bind]

theorem get?_build (name : Value) (n : Nat) :
    (build name n).get? hashId = some (.text (Text.ofNat n)) := by
  have apart : (app == hashId) = false := by decide
  simp [build, Table.get?, apart, Text.ofInt]

theorem get?_putAll_build (labels : Labels) (name : Value) (n : Nat) :
    (labels.putAll (build name n)).get? hashId = some (.text (Text.ofNat n)) := by
  simp [build, Table.putAll, Table.get?_put, Text.ofInt]

end Labels

namespace Content

-- Content and data that hold these bytes.

def ofBytes (entries : Table Key Bytes) : Content := entries.map fun entry => (entry.1, .bytes entry.2)

def encoded (entries : Table Key Bytes) : EncodedData :=
  entries.map fun entry => (entry.1, Base64.encode entry.2)

theorem exists_ofBytes {content : Content} {data : EncodedData} (h : content.encode = .ok data) :
    ∃ entries, content = ofBytes entries ∧ data = encoded entries := by
  induction content generalizing data
  case nil =>
    cases h
    exact ⟨[], rfl, rfl⟩
  case cons entry rest hi =>
    obtain ⟨key, payload⟩ := entry
    simp only [encode, List.mapM_cons, Result.bind_eq_ok_iff] at h hi
    obtain ⟨first, converted, _, others, eq⟩ := h
    obtain ⟨entries, eq₁, eq₂⟩ := hi others
    cases payload
    case bytes b =>
      cases converted
      cases eq
      exact ⟨(key, b) :: entries, congrArg _ eq₁, congrArg _ eq₂⟩
    all_goals cases converted

theorem distinct_encode {content : Content} {data : EncodedData} (h : content.encode = .ok data)
    (distinct : Distinct content) : Distinct data := by
  have ⟨entries, eq, eq'⟩ := exists_ofBytes h
  subst eq eq'
  simp only [Table.distinct_iff_pairwise, ofBytes, encoded, List.pairwise_map] at distinct ⊢
  exact distinct

theorem plain_encoded {entries : Table Key Bytes} {n : Nat}
    (h : (ofBytes entries).fingerprint = .ok n) :
    ∀ entry ∈ encoded entries, ∀ key, (entry.1 == key) = true → entry.1 = key := by
  intro entry mem key same
  have ⟨given, mem, eq⟩ := List.mem_map.mp mem
  have ⟨texts, isNamed⟩ := named_of_fingerprint h
  have found : (given.1, .bytes given.2) ∈ named texts := by
    rw [← isNamed]
    exact List.mem_map_of_mem mem
  subst eq
  exact plain_named _ found key same

end Content

namespace Secret

def decodeEntry (entry : Key × Text) : Option (Key × Payload) :=
  (Base64.decode? entry.2).map fun b => (entry.1, .bytes b)

-- What a secret holds, if all of it is base64.
def content? (s : Secret) : Option Content := (s.data.getD []).mapM decodeEntry

theorem mapM_perm {α β : Type} {f : α → Option β} {items items' : List α} {found : List β}
    (h : items'.Perm items) (all : items.mapM f = some found) :
    ∃ found', items'.mapM f = some found' ∧ found'.Perm found := by
  induction h generalizing found
  case nil => exact ⟨[], rfl, by simp_all⟩
  case cons a _ hi =>
    simp only [List.mapM_cons, Option.bind_eq_bind, Option.bind_eq_some_iff] at all
    have ⟨b, hb, rest, hrest, eq⟩ := all
    have ⟨rest', hrest', perm⟩ := hi hrest
    cases eq
    exact ⟨b :: rest', by simp [hb, hrest'], perm.cons b⟩
  case swap a a' rest =>
    simp only [List.mapM_cons, Option.bind_eq_bind, Option.bind_eq_some_iff] at all
    have ⟨b, hb, _, ⟨b', hb', rest', hrest', eq'⟩, eq⟩ := all
    cases eq'
    cases eq
    exact ⟨b' :: b :: rest', by simp [hb, hb', hrest'], .swap b b' rest'⟩
  case trans first second =>
    have ⟨between, hbetween, perm⟩ := second all
    have ⟨found', hfound', perm'⟩ := first hbetween
    exact ⟨found', hfound', perm'.trans perm⟩

theorem mapM_decodeEntry (entries : Table Key Bytes) :
    (Content.encoded entries).mapM decodeEntry = some (Content.ofBytes entries) := by
  induction entries
  case nil => rfl
  case cons entry rest hi =>
    simp only [Content.encoded, Content.ofBytes, List.map_cons, List.mapM_cons] at hi ⊢
    simp [decodeEntry, Base64.decode?_encode] at hi ⊢
    simp [hi]

-- The fingerprint that a secret records is that of what it holds.
def IsFaithful (s : Secret) : Prop :=
  ∀ n, s.fingerprint? = .ok (some n) →
    ∃ held, ∃ k : Nat, s.content? = some held ∧ held.fingerprint = .ok k ∧ n = k

-- A secret holds content, up to the order of entries, and records its fingerprint.
structure Holds (s : Secret) (content held : Content) (n : Nat) : Prop where
  decoded  : s.content? = some held
  same     : held.fingerprint = .ok n
  wanted   : content.fingerprint = .ok n
  recorded : s.fingerprint? = .ok (some (n : Int))

theorem Holds.isFaithful {s : Secret} {content held : Content} {n : Nat}
    (h : s.Holds content held n) : s.IsFaithful := by
  intro k recorded
  rw [h.recorded] at recorded
  cases recorded
  exact ⟨held, n, h.decoded, h.same, rfl⟩

-- No two entries have the same key.
def IsDistinct (s : Secret) : Prop := Distinct (s.data.getD [])

variable {id : ResourceId} {content : Content} {n : Nat}

theorem fingerprint_lt (h : content.fingerprint = .ok n) : n < 0x10000000000000000 := by
  simp only [Content.fingerprint, Result.bind_eq_ok_iff, Result.pure_eq_ok_iff] at h
  obtain ⟨b, _, eq⟩ := h
  exact eq ▸ Blake2b.digest64_lt b

def created (manifest : Manifest) : Secret where
  labels := some manifest.labels
  data := some manifest.data

section

variable {manifest : Manifest} (h : Target.manifest id content = .ok manifest)
include h

theorem made_created : ∃ n, content.fingerprint = .ok n ∧ content.encode = .ok manifest.data ∧
    manifest.labels.get? Labels.hashId = some (.text (Text.ofNat n)) := by
  simp only [Target.manifest, Result.bind_eq_ok_iff, Result.pure_eq_ok_iff] at h
  obtain ⟨n, fingerprint, _, _, _, encoded, eq⟩ := h
  subst eq
  exact ⟨n, fingerprint, encoded, Labels.get?_build ..⟩

theorem content?_created : (created manifest).content? = some content := by
  have ⟨_, _, encoded, _⟩ := made_created h
  have ⟨entries, eq₁, eq₂⟩ := Content.exists_ofBytes encoded
  have decoded : manifest.data.mapM decodeEntry = some content := by
    rw [eq₁, eq₂]
    exact mapM_decodeEntry entries
  exact decoded

theorem holds_created (distinct : Distinct content) :
    (∃ held n, (created manifest).Holds content held n) ∧ (created manifest).IsDistinct := by
  have ⟨n, fingerprint, encoded, label⟩ := made_created h
  have recorded := Labels.fingerprint?_of_get? (fingerprint_lt fingerprint) label
  refine ⟨⟨content, n, content?_created h, fingerprint, fingerprint, recorded⟩, ?_⟩
  exact Content.distinct_encode encoded distinct

end

section

variable {s : Secret} {patch : SecretPatch}

theorem IsDistinct.patched (isDistinct : s.IsDistinct) : (Cluster.patchedSecret s patch).IsDistinct :=
  Cluster.distinct_patchData isDistinct patch.data

variable (h : Target.patch id content (some s) n = .ok patch)
include h

theorem made_patched : ∃ data, content.encode = .ok data ∧
    patch.data = Target.dataChange (s.data.getD []) data ∧
    ((s.labels.getD []).putAll patch.labels).get? Labels.hashId = some (.text (Text.ofNat n)) := by
  simp only [Target.patch, Result.bind_eq_ok_iff, Result.pure_eq_ok_iff] at h
  obtain ⟨data, encoded, eq⟩ := h
  subst eq
  exact ⟨data, encoded, rfl, Labels.get?_putAll_build ..⟩

variable (fingerprint : content.fingerprint = .ok n) (distinct : Distinct content)
  (isDistinct : s.IsDistinct)
include fingerprint distinct isDistinct

-- The order of what is held may be another one.
theorem content?_patched :
    ∃ held, (Cluster.patchedSecret s patch).content? = some held ∧ held.Perm content := by
  obtain ⟨data, encoded, made, _⟩ := made_patched h
  have distinct' := Content.distinct_encode encoded distinct
  obtain ⟨entries, eq₁, eq₂⟩ := Content.exists_ofBytes encoded
  subst eq₁ eq₂
  have held (key : Key) : (Cluster.patchData (s.data.getD []) patch.data).get? key =
      (Content.encoded entries).get? key :=
    made ▸ Cluster.get?_patchData isDistinct distinct'
  have perm := Table.perm_of_get?_eq (Cluster.distinct_patchData isDistinct patch.data) distinct' held
    (Content.plain_encoded fingerprint)
  exact mapM_perm perm (mapM_decodeEntry entries)

theorem holds_patched :
    (∃ held, (Cluster.patchedSecret s patch).Holds content held n) ∧
      (Cluster.patchedSecret s patch).IsDistinct := by
  have ⟨_, _, _, label⟩ := made_patched h
  have ⟨held, decoded, perm⟩ := content?_patched h fingerprint distinct isDistinct
  refine ⟨⟨held, decoded, ?_, fingerprint, ?_⟩, isDistinct.patched⟩
  -- The fingerprint does not depend on the order.
  · exact Content.fingerprint_eq_of_perm fingerprint perm.symm distinct
  · exact Labels.fingerprint?_of_get? (fingerprint_lt fingerprint) label

end

end Secret

end SecretSync
