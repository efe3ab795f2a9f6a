import SecretSync.Json.Parser
import SecretSync.Value.Contribution

/-!
Paths into documents. The segments of a path stand between dots. A segment enters an object by the
member of exactly that name and a list by its position, written in digits; a scalar has nothing to
enter. A path that leads nowhere is not an error.
-/

namespace SecretSync.Path

-- The segments of a path. An empty path has one empty segment.
def segments (path : Text) : List Text := Text.split '.' path

def isPosition (segment : Text) : Bool := !segment.isEmpty && segment.all CodePoint.isDigit

-- The value that one segment leads to. A segment of digits without a decimal value, or of too many
-- digits, is no number, and to ask a list for it is a fault.
def enter (segment : Text) : Value → Result (Option Value)
  | .object members => .ok (Table.get? segment members)
  | .list items =>
    if isPosition segment then do
      let n ← Result.ofOption .unreadable (Numeral.int? segment)
      pure items[n.toNat]?
    else .ok none
  | _ => .ok none

def walk : List Text → Value → Result (Option Value)
  | [], v => .ok (some v)
  | segment :: rest, v => do
    match ← enter segment v with
    | some w => walk rest w
    | none => pure none

-- The text at the end of a path in a document, empty when the path leads nowhere.
def textAt (path : Text) (document : Value) : Result Text := do
  match ← walk (segments path) document with
  | some v => v.toText
  | none => pure []

end SecretSync.Path
