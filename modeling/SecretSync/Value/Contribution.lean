import SecretSync.Json.Printer
import SecretSync.Value.Access

/-!
What fetched values contribute to a secret: texts stand for themselves, other values for their JSON
text.
-/

namespace SecretSync.Value

-- The text that a fetched value contributes: a text as it is, nothing for null, JSON text for any
-- other value.
def toText : Value → Result Text
  | null => .ok []
  | text t => .ok t
  | v => Json.print v

-- The bytes that a value contributes: those of a byte string, of a text, or of JSON text.
def toBytes : Value → Result Bytes
  | bytes b => .ok b
  | text t => encodeText t
  | v => do encodeText (← Json.print v)

def documentKind : Value → DocumentKind
  | null => .null
  | bool _ => .bool
  | int _ => .int
  | float _ => .float
  | list _ => .list
  | _ => .text

end SecretSync.Value
