import Mathlib.Algebra.Group.Nat.Defs
import SecretSync.Proofs.Content.Fingerprint
import SecretSync.Proofs.Text.Utf8

/-!
What is hashed says what a content holds. The bytes before the digest are the framed forms of keys and
payloads in the order of the keys, and they can be taken apart again: a length says where the next form
begins. Main statements: `flatMap_frame_injective`, `preimage_eq_iff`.
-/

namespace SecretSync

theorem length_bigEndian (width n : Nat) : (bigEndian width n).length = width := by
  induction width generalizing n
  case zero => rfl
  case succ width hi => simp [bigEndian, hi]

theorem bigEndian_injective {width n m : Nat} (hn : n < 256 ^ width) (hm : m < 256 ^ width)
    (h : bigEndian width n = bigEndian width m) : n = m := by
  induction width generalizing n m
  case zero => omega
  case succ width hi =>
    have ⟨front, last⟩ := List.append_inj' h rfl
    have quotient := hi (Nat.div_lt_of_lt_mul (Nat.pow_succ' ▸ hn))
      (Nat.div_lt_of_lt_mul (Nat.pow_succ' ▸ hm)) front
    have remainder := congrArg UInt8.toNat (List.singleton_inj.mp last)
    rw [Text.toNat_toUInt8 (Nat.mod_lt _ (by decide)),
      Text.toNat_toUInt8 (Nat.mod_lt _ (by decide))] at remainder
    omega

-- Whatever follows, framed bytes end where their length says.
theorem framed_append_inj {a b x y : Bytes} (ha : a.length < 2 ^ 64) (hb : b.length < 2 ^ 64)
    (h : framed a ++ x = framed b ++ y) : a = b ∧ x = y := by
  simp only [framed, List.append_assoc] at h
  obtain ⟨lengths, rest⟩ := List.append_inj h (by simp only [length_bigEndian])
  exact List.append_inj rest (bigEndian_injective ha hb lengths)

-- The bytes that a payload stands for.
def Payload.bytes? : Payload → Option Bytes
  | .bytes b => some b
  | .text t => t.utf8?
  | .other _ => none

def Payload.raw (payload : Payload) : Bytes := payload.bytes?.getD []

namespace Content

theorem keyBytes_eq_ok_iff {key : Key} {b : Bytes} :
    keyBytes key = .ok b ↔ ∃ name, key = .text name ∧ name.utf8? = some b := by
  cases key
  case text name => simp [keyBytes, Value.encodeText]
  all_goals simp [keyBytes]

theorem frameEntry_eq_ok_iff {entry : Key × Payload} {b : Bytes} :
    frameEntry entry = .ok b ↔ ∃ name key payload, entry.1 = .text name ∧ name.utf8? = some key ∧
      entry.2.bytes? = some payload ∧ framed key ++ framed payload = b := by
  simp only [frameEntry]
  split
  case h_1 b' eq =>
    simp only [eq, Payload.bytes?, Result.bind_eq_ok_iff, Result.pure_eq_ok_iff, keyBytes_eq_ok_iff]
    constructor
    case mp =>
      rintro ⟨key, ⟨name, text, encoded⟩, same⟩
      exact ⟨name, key, b', text, encoded, rfl, same⟩
    case mpr =>
      rintro ⟨name, key, payload, text, encoded, held, same⟩
      cases held
      exact ⟨key, ⟨name, text, encoded⟩, same⟩
  case h_2 t eq =>
    simp only [eq, Payload.bytes?, Result.bind_eq_ok_iff, Result.pure_eq_ok_iff, keyBytes_eq_ok_iff,
      Value.encodeText, Result.ofOption_eq_ok_iff]
    constructor
    case mp =>
      rintro ⟨payload, held, key, ⟨name, text, encoded⟩, same⟩
      exact ⟨name, key, payload, text, encoded, held, same⟩
    case mpr =>
      rintro ⟨name, key, payload, text, encoded, held, same⟩
      exact ⟨payload, held, key, ⟨name, text, encoded⟩, same⟩
  case h_3 eq => simp [eq, Payload.bytes?]

-- A content whose keys and payloads have bytes, fewer than a length can count.
structure IsHashable (content : Content) : Prop where
  distinct : Table.Distinct content
  entries : ∀ entry ∈ content, ∃ name key payload, entry.1 = .text name ∧ name.utf8? = some key ∧
    entry.2.bytes? = some payload ∧ key.length < 2 ^ 64 ∧ payload.length < 2 ^ 64

-- An entry with the bytes that its payload stands for.
def raw (entry : Text × Payload) : Text × Bytes := (entry.1, entry.2.raw)

def frame (entry : Text × Bytes) : Bytes :=
  framed (entry.1.flatMap CodePoint.utf8) ++ framed entry.2

structure IsFramable (entry : Text × Bytes) : Prop where
  scalar : entry.1.isScalar = true
  key : (entry.1.flatMap CodePoint.utf8).length < 2 ^ 64
  payload : entry.2.length < 2 ^ 64

theorem frame_append_inj {entry other : Text × Bytes} {x y : Bytes} (h : IsFramable entry)
    (h' : IsFramable other) (same : frame entry ++ x = frame other ++ y) : entry = other ∧ x = y := by
  simp only [frame, List.append_assoc] at same
  obtain ⟨key, rest⟩ := framed_append_inj h.key h'.key same
  obtain ⟨payload, rest⟩ := framed_append_inj h.payload h'.payload rest
  exact ⟨Prod.ext (Text.utf8_injective h.scalar h'.scalar key) payload, rest⟩

theorem frame_ne_nil (entry : Text × Bytes) : frame entry ≠ [] := by
  simp [frame, framed, bigEndian]

theorem flatMap_frame_injective {entries others : List (Text × Bytes)}
    (h : ∀ entry ∈ entries, IsFramable entry) (h' : ∀ entry ∈ others, IsFramable entry)
    (same : entries.flatMap frame = others.flatMap frame) : entries = others := by
  induction entries generalizing others
  case nil =>
    cases others
    case nil => rfl
    case cons other others => simp [frame_ne_nil] at same
  case cons entry entries hi =>
    cases others
    case nil => simp [frame_ne_nil] at same
    case cons other others =>
      have ⟨first, rest⟩ := List.forall_mem_cons.mp h
      have ⟨first', rest'⟩ := List.forall_mem_cons.mp h'
      have ⟨eq, behind⟩ := frame_append_inj first first' same
      rw [eq, hi rest rest' behind]

theorem utf8?_eq_some_iff {t : Text} {b : Bytes} :
    t.utf8? = some b ↔ t.isScalar = true ∧ t.flatMap CodePoint.utf8 = b := by
  simp [Text.utf8?]

-- The entries of a content that can be hashed.
structure IsRaw (entry : Text × Payload) : Prop where
  framable : IsFramable (raw entry)
  payload : entry.2.bytes? = some (raw entry).2

theorem IsHashable.exists_named {content : Content} (h : content.IsHashable) :
    ∃ entries, content = named entries ∧ ∀ entry ∈ entries, IsRaw entry := by
  have ⟨entries, eq⟩ := Content.exists_named fun entry mem =>
    have ⟨name, _, _, text, _⟩ := h.entries entry mem
    ⟨name, text⟩
  apply Exists.intro entries
  apply And.intro eq
  intro entry mem
  have ⟨name, key, payload, text, encoded, held, short, short'⟩ := h.entries (.text entry.1, entry.2)
    (eq ▸ List.mem_map_of_mem mem)
  cases text
  have ⟨scalar, same⟩ := utf8?_eq_some_iff.mp encoded
  have same' : (raw entry).2 = payload := congrArg (·.getD []) held
  exact ⟨⟨scalar, same ▸ short, same' ▸ short'⟩, same' ▸ held⟩

theorem frameEntries_named {entries : List (Text × Payload)} (h : ∀ entry ∈ entries, IsRaw entry) :
    frameEntries (named entries) = .ok ((entries.map raw).flatMap frame) := by
  induction entries
  case nil => rfl
  case cons entry entries hi =>
    have ⟨first, others⟩ := List.forall_mem_cons.mp h
    have framed : frameEntry (.text entry.1, entry.2) = .ok (frame (raw entry)) :=
      frameEntry_eq_ok_iff.mpr ⟨entry.1, _, _, rfl,
        utf8?_eq_some_iff.mpr ⟨first.framable.scalar, rfl⟩, first.payload, rfl⟩
    have behind := hi others
    simp only [named] at behind ⊢
    simp only [List.map_cons, frameEntries, framed, behind, List.flatMap_cons]
    rfl

theorem preimage_eq (entries : List (Text × Payload)) :
    preimage (named entries) = frameEntries (named (Sorting.sort byName entries)) := by
  rw [preimage, sorted_named]
  rfl

theorem preimage_named {entries : List (Text × Payload)} (h : ∀ entry ∈ entries, IsRaw entry) :
    preimage (named entries) = .ok ((Sorting.sort byName (entries.map raw)).flatMap frame) := by
  have framed := frameEntries_named fun entry mem => h entry ((Sorting.perm_sort byName _).mem_iff.mp mem)
  have sorted : Sorting.sort byName (entries.map raw) = (Sorting.sort byName entries).map raw :=
    Sorting.sort_map ..
  rw [preimage_eq, sorted, framed]

theorem isFramable_sort {entries : List (Text × Payload)} (h : ∀ entry ∈ entries, IsRaw entry) :
    ∀ entry ∈ Sorting.sort byName (entries.map raw), IsFramable entry := by
  intro entry mem
  have ⟨given, mem, same⟩ := List.mem_map.mp ((Sorting.perm_sort byName _).mem_iff.mp mem)
  exact same ▸ (h given mem).framable

theorem sort_eq_iff {ν : Type} {entries others : List (Text × ν)}
    (distinct : Table.Distinct (named entries)) (distinct' : Table.Distinct (named others)) :
    Sorting.sort byName entries = Sorting.sort byName others ↔
      ∀ key, (named entries).get? key = (named others).get? key := by
  constructor
  case mp =>
    intro same key
    have perm : entries.Perm others := by
      have perm := Sorting.perm_sort byName entries
      rw [same] at perm
      exact perm.symm.trans (Sorting.perm_sort byName others)
    exact Table.get?_eq_of_perm distinct (perm.map _)
  case mpr =>
    intro same
    have perm := Table.perm_of_get?_eq distinct distinct' same plain_named
    exact sort_eq_of_perm (perm_of_named perm) (nodup_of_distinct distinct)

theorem named_raw (entries : List (Text × Payload)) :
    named (entries.map raw) = (named entries).map fun entry => (entry.1, entry.2.raw) := by
  simp [named, raw]

-- The bytes at a key are there whenever the key is.
theorem map_bytes?_eq {entries : List (Text × Payload)} (h : ∀ entry ∈ entries, IsRaw entry) (key : Key) :
    ((named entries).get? key).map Payload.bytes? =
      ((named (entries.map raw)).get? key).map some := by
  rw [named_raw, Table.get?_map]
  cases found : (named entries).get? key
  case none => rfl
  case some payload =>
    have ⟨_, mem, _⟩ := Table.exists_mem_of_get? found
    have ⟨entry, given, eq⟩ := List.mem_map.mp mem
    cases eq
    exact congrArg _ (h entry given).payload

theorem exists_frameEntries_iff (entries : List (Key × Payload)) :
    (∃ b, frameEntries entries = .ok b) ↔ ∀ entry ∈ entries, ∃ b, frameEntry entry = .ok b := by
  induction entries
  case nil => simp [frameEntries]
  case cons entry rest hi =>
    rw [List.forall_mem_cons, ← hi]
    simp only [frameEntries, Result.bind_eq_ok_iff, Result.pure_eq_ok_iff]
    constructor
    case mp =>
      rintro ⟨_, first, framed, others, behind, _⟩
      exact ⟨⟨first, framed⟩, others, behind⟩
    case mpr =>
      rintro ⟨⟨first, framed⟩, others, behind⟩
      exact ⟨_, first, framed, others, behind, rfl⟩

theorem fingerprint_of_preimage {content : Content} {hashed : Bytes}
    (h : content.preimage = .ok hashed) : content.fingerprint = .ok (Blake2b.digest64 hashed) := by
  rw [fingerprint, h]
  rfl

theorem exists_fingerprint_iff {entries : List (Text × Payload)} :
    (∃ n, fingerprint (named entries) = .ok n) ↔
      ∀ entry ∈ named entries, ∃ b, frameEntry entry = .ok b := by
  have perm : (named (Sorting.sort byName entries)).Perm (named entries) :=
    (Sorting.perm_sort byName entries).map _
  have within := exists_frameEntries_iff (named (Sorting.sort byName entries))
  simp only [perm.mem_iff] at within
  rw [← within]
  simp only [fingerprint, preimage_eq, Result.bind_eq_ok_iff, Result.pure_eq_ok_iff]
  constructor
  case mp =>
    rintro ⟨_, hashed, eq, _⟩
    exact ⟨hashed, eq⟩
  case mpr =>
    rintro ⟨hashed, eq⟩
    exact ⟨_, hashed, eq, rfl⟩

theorem preimage_eq_iff {content other : Content} (h : content.IsHashable) (h' : other.IsHashable) :
    ∃ hashed hashed', content.preimage = .ok hashed ∧ other.preimage = .ok hashed' ∧
      content.fingerprint = .ok (Blake2b.digest64 hashed) ∧
      other.fingerprint = .ok (Blake2b.digest64 hashed') ∧
      (hashed = hashed' ↔ ∀ key,
        (content.get? key).map Payload.bytes? = (other.get? key).map Payload.bytes?) := by
  have ⟨entries, eq, raws⟩ := h.exists_named
  have ⟨others, eq', raws'⟩ := h'.exists_named
  subst eq eq'
  have distinct : Table.Distinct (named (entries.map raw)) :=
    named_raw _ ▸ h.distinct.map Payload.raw
  have distinct' : Table.Distinct (named (others.map raw)) :=
    named_raw _ ▸ h'.distinct.map Payload.raw
  have hashed := preimage_named raws
  have hashed' := preimage_named raws'
  refine ⟨_, _, hashed, hashed', fingerprint_of_preimage hashed, fingerprint_of_preimage hashed', ?_⟩
  calc (Sorting.sort byName (entries.map raw)).flatMap frame =
        (Sorting.sort byName (others.map raw)).flatMap frame
    _ ↔ Sorting.sort byName (entries.map raw) = Sorting.sort byName (others.map raw) :=
      ⟨flatMap_frame_injective (isFramable_sort raws) (isFramable_sort raws'), congrArg _⟩
    _ ↔ ∀ key, (named (entries.map raw)).get? key = (named (others.map raw)).get? key :=
      sort_eq_iff distinct distinct'
    _ ↔ ∀ key, ((named entries).get? key).map Payload.bytes? =
          ((named others).get? key).map Payload.bytes? := by
      apply forall_congr'
      intro key
      rw [map_bytes?_eq raws, map_bytes?_eq raws']
      exact (Option.map_injective (Option.some_injective _)).eq_iff.symm

def accented : Content := [(.text "name", .text "é"), (.text "port", .bytes [0x35])]
def spelled : Content := [(.text "port", .bytes [0x35]), (.text "name", .bytes [0xC3, 0xA9])]
def shifted : Content := [(.text "namé", .text []), (.text "port", .bytes [0x35])]

theorem isHashable_accented : accented.IsHashable where
  distinct := ⟨rfl, rfl, trivial⟩
  entries := by
    simp only [accented, List.forall_mem_cons]
    exact ⟨⟨"name", _, _, rfl, rfl, rfl, by decide, by decide⟩,
      ⟨"port", _, _, rfl, rfl, rfl, by decide, by decide⟩, List.forall_mem_nil _⟩

theorem isHashable_spelled : spelled.IsHashable where
  distinct := ⟨rfl, rfl, trivial⟩
  entries := by
    simp only [spelled, List.forall_mem_cons]
    exact ⟨⟨"port", _, _, rfl, rfl, rfl, by decide, by decide⟩,
      ⟨"name", _, _, rfl, rfl, rfl, by decide, by decide⟩, List.forall_mem_nil _⟩

theorem isHashable_shifted : shifted.IsHashable where
  distinct := ⟨rfl, rfl, trivial⟩
  entries := by
    simp only [shifted, List.forall_mem_cons]
    exact ⟨⟨"namé", _, _, rfl, rfl, rfl, by decide, by decide⟩,
      ⟨"port", _, _, rfl, rfl, rfl, by decide, by decide⟩, List.forall_mem_nil _⟩

-- Neither the order nor the kind of a payload matters, but in which key or payload a byte stands does.
theorem preimage_accented :
    accented.preimage = spelled.preimage ∧ accented.preimage ≠ shifted.preimage := by
  constructor
  case left =>
    obtain ⟨_, _, eq, eq', _, _, same⟩ := preimage_eq_iff isHashable_accented isHashable_spelled
    rw [eq, eq']
    refine congrArg _ (same.mpr fun key => ?_)
    by_cases name : (Key.text "name" == key) = true
    case pos => cases Key.eq_of_beq_text name; rfl
    case neg =>
      by_cases port : (Key.text "port" == key) = true
      case pos => cases Key.eq_of_beq_text port; rfl
      case neg => simp [accented, spelled, Table.get?, name, port]
  case right =>
    obtain ⟨_, _, eq, eq', _, _, same⟩ := preimage_eq_iff isHashable_accented isHashable_shifted
    rw [eq, eq']
    intro h
    exact absurd (same.mp (Except.ok.inj h) (.text "name")) (by decide)

end Content

end SecretSync
