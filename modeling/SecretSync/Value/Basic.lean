import SecretSync.Number.Binary64
import SecretSync.Table
import SecretSync.Text.Basic

/-!
Values as they come from resource bodies and remote services: JSON documents, and beside them byte
strings and readable streams of bytes, which some services return. An integer and a float are
different values even where they are equal numbers.
-/

namespace SecretSync

inductive Value where
  | null
  | bool (b : Bool)
  | int (n : Int)
  | float (x : Float)
  | text (t : Text)
  | bytes (b : Bytes)
  -- A source whose reading gives the bytes.
  | stream (b : Bytes)
  | list (items : List Value)
  -- The members by name, each name once, in the order in which they were added.
  | object (members : List (Text × Value))
deriving Inhabited

inductive Key where
  | null
  | bool (b : Bool)
  | int (n : Int)
  | float (x : Float)
  | text (t : Text)
  | bytes (b : Bytes)
deriving Inhabited

namespace Key

-- What two equal keys have in common. Numbers are the same key iff they are equal, with false and
-- true counting as 0 and 1; a NaN is the same key as any other.
inductive Identity where
  | null
  | whole (n : Int)
  | nan
  -- A float that equals no integer, by its bits.
  | other (bits : UInt64)
  | text (t : Text)
  | bytes (b : Bytes)
deriving DecidableEq

def floatIdentity (x : Float) : Identity :=
  match Binary64.ofFloat x with
  | .nan => .nan
  | b => match b.whole? with
    | some n => .whole n
    | none => .other x.toBits

def identity : Key → Identity
  | null => .null
  | bool b => .whole (if b then 1 else 0)
  | int n => .whole n
  | float x => floatIdentity x
  | text t => .text t
  | bytes b => .bytes b

instance : BEq Key := ⟨fun a b => a.identity = b.identity⟩

theorem beq_iff {a b : Key} : (a == b) = true ↔ a.identity = b.identity := by
  simp [BEq.beq]

@[simp]
theorem beq_self (a : Key) : (a == a) = true := beq_iff.2 rfl

theorem beq_comm {a b : Key} : (a == b) = (b == a) := by
  simp [BEq.beq, eq_comm]

theorem beq_trans {a b c : Key} (hab : (a == b) = true) (hbc : (b == c) = true) :
    (a == c) = true :=
  beq_iff.2 ((beq_iff.1 hab).trans (beq_iff.1 hbc))

instance : EquivBEq Key where
  rfl := beq_self _
  symm h := by rw [beq_comm]; exact h
  trans := beq_trans

@[simp]
theorem text_beq_text (s t : Text) : (Key.text s == Key.text t) = decide (s = t) := by
  simp [BEq.beq, identity]

instance : Coe String Key := ⟨fun s => .text (Text.ofString s)⟩

def toValue : Key → Value
  | null => .null
  | bool b => .bool b
  | int n => .int n
  | float x => .float x
  | text t => .text t
  | bytes b => .bytes b

end Key

namespace Value

instance : Coe String Value := ⟨fun s => .text (Text.ofString s)⟩

def key? : Value → Option Key
  | null => some .null
  | bool b => some (.bool b)
  | int n => some (.int n)
  | float x => some (.float x)
  | text t => some (.text t)
  | bytes b => some (.bytes b)
  | _ => none

-- Whether a value counts as given: not null, false, zero or empty.
def isGiven : Value → Bool
  | null => false
  | bool b => b
  | int n => n ≠ 0
  | float x => !(x == 0)
  | text t => !t.isEmpty
  | bytes b => !b.isEmpty
  | stream _ => true
  | list items => !items.isEmpty
  | object members => !members.isEmpty

def orElse (v fallback : Value) : Value := if v.isGiven then v else fallback

def orEmpty (v : Value) : Value := v.orElse (.object [])

mutual

-- Whether two values are equal: numbers as numbers, lists element by element, objects member by
-- member in any order.
def same : Value → Value → Bool
  | list xs, list ys => sameItems xs ys
  | object ms, object ns => ms.length == ns.length && sameMembers ms ns
  | list _, _ => false
  | object _, _ => false
  | stream a, stream b => a == b
  | v, w => match v.key?, w.key? with
    | some a, some b => a == b
    | _, _ => false

def sameItems : List Value → List Value → Bool
  | [], [] => true
  | v :: vs, w :: ws => same v w && sameItems vs ws
  | _, _ => false

def sameMembers : List (Text × Value) → List (Text × Value) → Bool
  | [], _ => true
  | (name, v) :: rest, ns =>
    (match Table.get? name ns with
      | some w => same v w
      | none => false) && sameMembers rest ns

end

end Value

end SecretSync
