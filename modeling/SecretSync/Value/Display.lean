import SecretSync.Number.Layout
import SecretSync.Text.Quoted
import SecretSync.Value.Basic

/-!
How a value reads in a message or as a declared field: a text as it is, anything else in a notation
of its own. It differs from JSON in its words for null, true and false, and in quoting the texts
inside lists and objects with single quotes.
-/

namespace SecretSync.Value

-- Floats in messages: an exponent below 10⁻⁴ and from 10¹⁶ on.
def displayNumber : NumberLayout := ⟨-4, 15, 2, "nan", "inf"⟩

-- A byte string between quotes; bytes that are no printable ASCII character show their number.
def displayBytes (b : Bytes) : Text :=
  let t : Text := b.map fun byte => CodePoint.ofNat byte.toNat
  let single : CodePoint := '\''
  let double : CodePoint := '"'
  let quote := if t.contains single && !t.contains double then double else single
  let escape (c : CodePoint) : Text :=
    if c.val < 0x7F then Text.escaped quote c else Text.ofString "\\x" ++ Text.hex 2 c.val
  ('b' : CodePoint) :: quote :: t.flatMap escape ++ [quote]

mutual

def inner : Value → Text
  | null => "None"
  | bool b => if b then "True" else "False"
  | int n => Text.ofInt n
  | float x => displayNumber.float x
  | text t => t.quoted
  | bytes b => displayBytes b
  | stream b => Text.ofString "<stream " ++ displayBytes b ++ Text.ofString ">"
  | list items => ('[' : CodePoint) :: innerItems items ++ [(']' : CodePoint)]
  | object members => ('{' : CodePoint) :: innerMembers members ++ [('}' : CodePoint)]

def innerItems : List Value → Text
  | [] => []
  | [v] => inner v
  | v :: vs => inner v ++ Text.ofString ", " ++ innerItems vs

def innerMembers : List (Text × Value) → Text
  | [] => []
  | [(name, v)] => name.quoted ++ Text.ofString ": " ++ inner v
  | (name, v) :: rest =>
    name.quoted ++ Text.ofString ": " ++ inner v ++ Text.ofString ", " ++ innerMembers rest

end

def display : Value → Text
  | text t => t
  | v => inner v

-- Several values as one message shows them: a single one as itself, others in parentheses.
def displayAll : List Value → Text
  | [] => []
  | [v] => display v
  | vs => ('(' : CodePoint) :: innerItems vs ++ [(')' : CodePoint)]

end SecretSync.Value
