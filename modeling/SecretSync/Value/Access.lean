import SecretSync.Fault
import SecretSync.Number.Reader
import SecretSync.Text.Utf8

/-!
Taking values apart. Reading a member, iterating, testing membership and converting to a number each
work on some kinds of values and fail on the others, each with its own fault.
-/

namespace SecretSync.Value

-- The member of an object, null if it has none of that name.
def member (v : Value) (name : Text) : Result Value :=
  match v with
  | object members => .ok ((Table.get? name members).getD .null)
  | _ => .error .lacksOperation

def memberOr (v : Value) (name : Text) (fallback : Value) : Result Value :=
  match v with
  | object members => .ok ((Table.get? name members).getD fallback)
  | _ => .error .lacksOperation

def requiredMember (v : Value) (name : Text) : Result Value :=
  match v with
  | object members => Result.ofOption .noSuchEntry (Table.get? name members)
  | _ => .error .wrongKind

-- What iterating over a value gives: the elements of a list, the code points of a text, the member
-- names of an object, the bytes of a byte string.
def elements : Value → Result (List Value)
  | list items => .ok items
  | text t => .ok (t.map fun c => text [c])
  | object members => .ok (members.map fun (name, _) => text name)
  | bytes b => .ok (b.map fun byte => int byte.toNat)
  | _ => .error .wrongKind

def asKey (v : Value) : Result Key := Result.ofOption .wrongKind v.key?

-- Whether `needle` is in a value: an element of a list, a part of a text, a member of an object.
def contains (v needle : Value) : Result Bool :=
  match v with
  | list items => .ok (items.any (needle.same ·))
  | text t =>
    match needle with
    | text part => .ok (part.isInfix t)
    | _ => .error .wrongKind
  | object members => do
    match ← needle.asKey with
    | .text name => .ok (Table.has name members)
    | _ => .ok false
  | _ => .error .wrongKind

-- The element at a position, counted from the end if it is negative.
def position (items : List Value) (n : Int) : Result Value :=
  let index := if n < 0 then n + items.length else n
  if index < 0 then .error .noSuchPosition
  else Result.ofOption .noSuchPosition items[index.toNat]?

def select (v index : Value) : Result Value :=
  match v, index with
  | object members, text name => Result.ofOption .noSuchEntry (Table.get? name members)
  | object _, _ => do
    let _ ← index.asKey
    .error .noSuchEntry
  | v, int n => do position (← v.elements) n
  | v, bool b => do position (← v.elements) (if b then 1 else 0)
  | _, _ => .error .wrongKind

-- The integer that a value denotes: a float loses its fraction, a text is read as a numeral.
def toInt : Value → Result Int
  | bool b => .ok (if b then 1 else 0)
  | int n => .ok n
  | float x =>
    match Binary64.ofFloat x with
    | .nan => .error .unreadable
    | b => Result.ofOption .outOfRange b.truncate?
  | text t => Result.ofOption .unreadable (Numeral.int? t)
  | _ => .error .wrongKind

def toFloat : Value → Result Float
  | bool b => .ok (if b then 1 else 0)
  | int n => Result.ofOption .outOfRange (Binary64.floatOfInt? n)
  | float x => .ok x
  | text t => Result.ofOption .unreadable (Numeral.float? t)
  | _ => .error .wrongKind

def encodeText (t : Text) : Result Bytes := Result.ofOption .notEncodable t.utf8?

-- The text of a byte string; values of other kinds have no text to decode.
def decode : Value → Result Text
  | bytes b => Result.ofOption .notDecodable (Text.ofUtf8? b)
  | _ => .error .lacksOperation

end SecretSync.Value
