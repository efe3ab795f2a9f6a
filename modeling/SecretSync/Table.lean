/-!
Tables: entries in the order in which their keys were first added, at most one for each key. Replacing
a value leaves the entry where it is, with the key that it was first added under. Main statements:
`get?_put` and `get?_remove` say what a table holds after a change, `Distinct.put` and
`Distinct.remove` that its keys stay distinct.
-/

namespace SecretSync

abbrev Table (κ ν : Type) := List (κ × ν)

namespace Table

variable {κ ν : Type} [BEq κ]

def get? (key : κ) : Table κ ν → Option ν
  | [] => none
  | (k, v) :: rest => if k == key then some v else get? key rest

def has (key : κ) (t : Table κ ν) : Bool := (get? key t).isSome

-- Sets the value at a key; a new key goes to the end.
def put (key : κ) (value : ν) : Table κ ν → Table κ ν
  | [] => [(key, value)]
  | (k, v) :: rest => if k == key then (k, value) :: rest else (k, v) :: put key value rest

-- Adds an entry for a key that has none; an entry that is there stays as it is.
def putNew (key : κ) (value : ν) (t : Table κ ν) : Table κ ν :=
  if has key t then t else put key value t

def remove (key : κ) : Table κ ν → Table κ ν
  | [] => []
  | (k, v) :: rest => if k == key then rest else (k, v) :: remove key rest

def putAll (t : Table κ ν) (entries : List (κ × ν)) : Table κ ν :=
  entries.foldl (fun t (key, value) => put key value t) t

-- The table of a list of entries, the last value of a key counting.
def ofEntries (entries : List (κ × ν)) : Table κ ν := putAll [] entries

def Distinct : Table κ ν → Prop
  | [] => True
  | (k, _) :: rest => get? k rest = none ∧ Distinct rest

variable [EquivBEq κ]

theorem get?_congr {key other : κ} (same : (key == other) = true) (t : Table κ ν) :
    get? key t = get? other t := by
  induction t with
  | nil => rfl
  | cons entry rest ih =>
    have : (entry.1 == key) = (entry.1 == other) := BEq.congr_right same
    simp only [get?, this, ih]

theorem get?_put (key other : κ) (value : ν) (t : Table κ ν) :
    get? other (put key value t) = if key == other then some value else get? other t := by
  induction t with
  | nil => simp only [put, get?]
  | cons entry rest ih =>
    obtain ⟨k, v⟩ := entry
    unfold put
    split
    · next h =>
      have : (k == other) = (key == other) := BEq.congr_left h
      simp only [get?, this]
      split <;> rfl
    · next h =>
      simp only [get?, ih]
      split
      · next ho =>
        have : ¬(key == other) = true := fun hk => h (BEq.trans ho (BEq.symm hk))
        rw [if_neg this]
      · rfl

theorem get?_put_self (key : κ) (value : ν) (t : Table κ ν) :
    get? key (put key value t) = some value := by
  simp [get?_put]

theorem get?_putNew (key other : κ) (value : ν) (t : Table κ ν) :
    get? other (putNew key value t)
      = (get? other t).or (if key == other then some value else none) := by
  unfold putNew
  split
  · next h =>
    split
    · next hk =>
      rw [has, get?_congr hk] at h
      cases hg : get? other t with
      | none => simp [hg] at h
      | some _ => rfl
    · simp
  · next h =>
    rw [get?_put]
    split
    · next hk =>
      rw [has, get?_congr hk] at h
      cases hg : get? other t with
      | none => rfl
      | some _ => simp [hg] at h
    · simp

theorem get?_remove (key other : κ) {t : Table κ ν} (distinct : Distinct t) :
    get? other (remove key t) = if key == other then none else get? other t := by
  induction t with
  | nil => simp [remove, get?]
  | cons entry rest ih =>
    obtain ⟨k, v⟩ := entry
    unfold remove
    split
    · next h =>
      have ho : (k == other) = (key == other) := BEq.congr_left h
      simp only [get?, ho]
      split
      · next hk => rw [← get?_congr (BEq.trans h hk), distinct.1]
      · rfl
    · next h =>
      simp only [get?, ih distinct.2]
      split
      · next ho =>
        have : ¬(key == other) = true := fun hk => h (BEq.trans ho (BEq.symm hk))
        rw [if_neg this]
      · rfl

namespace Distinct

theorem put (key : κ) (value : ν) {t : Table κ ν} (distinct : Distinct t) :
    Distinct (t.put key value) := by
  induction t with
  | nil => exact ⟨rfl, trivial⟩
  | cons entry rest ih =>
    obtain ⟨k, v⟩ := entry
    unfold Table.put
    split
    · exact distinct
    · next h =>
      refine ⟨?_, ih distinct.2⟩
      have : ¬(key == k) = true := fun hk => h (BEq.symm hk)
      rw [get?_put, if_neg this]
      exact distinct.1

theorem remove (key : κ) {t : Table κ ν} (distinct : Distinct t) :
    Distinct (t.remove key) := by
  induction t with
  | nil => trivial
  | cons entry rest ih =>
    obtain ⟨k, v⟩ := entry
    unfold Table.remove
    split
    · exact distinct.2
    · refine ⟨?_, ih distinct.2⟩
      rw [get?_remove key k distinct.2, distinct.1]
      split <;> rfl

theorem putNew (key : κ) (value : ν) {t : Table κ ν} (distinct : Distinct t) :
    Distinct (t.putNew key value) := by
  unfold Table.putNew
  split
  · exact distinct
  · exact distinct.put key value

theorem putAll {t : Table κ ν} (distinct : Distinct t) (entries : List (κ × ν)) :
    Distinct (t.putAll entries) := by
  unfold Table.putAll
  induction entries generalizing t with
  | nil => exact distinct
  | cons entry rest ih => exact ih (distinct.put entry.1 entry.2)

end Distinct

theorem distinct_ofEntries (entries : List (κ × ν)) : Distinct (ofEntries entries) :=
  Distinct.putAll (t := []) trivial entries

end Table

end SecretSync
