import SecretSync.Fault
import SecretSync.Text.Units

/-!
Values as JSON text, in printable ASCII. A comma or colon is followed by one space; any other code
point is written as the escapes of its 16 bit code units; a float in as few digits as read back to it, with
words of its own for the values that are no numbers.

Printing goes down into brackets as reading does, but has no limit of its own: a value to print came
out of a document that some reader took in, and readers bound the nesting.
-/

namespace SecretSync.Json

-- Floats in JSON: an exponent below 10⁻⁴ and from 10¹⁶ on.
def numberLayout : NumberLayout := ⟨-4, 15, 2, "NaN", "Infinity"⟩

def unitEscape (n : Nat) : Text := ('\\' : CodePoint) :: ('u' : CodePoint) :: Text.hex 4 n

def escape (c : CodePoint) : Text :=
  if c = '"' || c = '\\' then ['\\', c]
  else if c = '\n' then ['\\', 'n']
  else if c = '\r' then ['\\', 'r']
  else if c = '\t' then ['\\', 't']
  else if c.val = 0x08 then ['\\', 'b']
  else if c.val = 0x0C then ['\\', 'f']
  else if 0x20 ≤ c.val && c.val < 0x7F then [c]
  else c.units.flatMap unitEscape

def literal (t : Text) : Text := ('"' : CodePoint) :: t.flatMap escape ++ [('"' : CodePoint)]

mutual

-- The JSON text of a document. A byte string or stream has none and leaves a gap.
def render : Value → Text
  | .null => "null"
  | .bool b => if b then "true" else "false"
  | .int n => Text.ofInt n
  | .float x => numberLayout.float x
  | .text t => literal t
  | .bytes _ => []
  | .stream _ => []
  | .list items => ('[' : CodePoint) :: renderItems items ++ [(']' : CodePoint)]
  | .object members => ('{' : CodePoint) :: renderMembers members ++ [('}' : CodePoint)]

def renderItems : List Value → Text
  | [] => []
  | [v] => render v
  | v :: vs => render v ++ Text.ofString ", " ++ renderItems vs

def renderMembers : List (Text × Value) → Text
  | [] => []
  | [(name, v)] => literal name ++ Text.ofString ": " ++ render v
  | (name, v) :: rest =>
    literal name ++ Text.ofString ": " ++ render v ++ Text.ofString ", " ++ renderMembers rest

end

mutual

def isDocument : Value → Bool
  | .bytes _ => false
  | .stream _ => false
  | .list items => areDocuments items
  | .object members => membersAreDocuments members
  | _ => true

def areDocuments : List Value → Bool
  | [] => true
  | v :: vs => isDocument v && areDocuments vs

def membersAreDocuments : List (Text × Value) → Bool
  | [] => true
  | (_, v) :: rest => isDocument v && membersAreDocuments rest

end

def print (v : Value) : Result Text :=
  if isDocument v then .ok (render v) else .error .wrongKind

def memberName : Key → Result Text
  | .text t => .ok t
  | .null => .ok "null"
  | .bool b => .ok (if b then "true" else "false")
  | .int n => .ok (Text.ofInt n)
  | .float x => .ok (numberLayout.float x)
  | .bytes _ => .error .wrongKind

end SecretSync.Json
