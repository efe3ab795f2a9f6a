import SecretSync.Content.Basic
import SecretSync.Digest.Blake2b
import SecretSync.Number.Reader

/-!
The fingerprint of a content, a number of 64 bits that a secret carries as a label. It is the digest
of the entries in the order of their keys, where each key and each payload comes after its length in
eight bytes. The length keeps an entry apart from its neighbours: no byte can move from a key to its
payload unnoticed.
-/

namespace SecretSync

def bigEndian : Nat → Nat → Bytes
  | 0, _ => []
  | width + 1, n => bigEndian width (n / 256) ++ [(n % 256).toUInt8]

def framed (bytes : Bytes) : Bytes := bigEndian 8 bytes.length ++ bytes

namespace Content

def keyBytes : Key → Result Bytes
  | .text t => Value.encodeText t
  | _ => .error .lacksOperation

def frameEntry (entry : Key × Payload) : Result Bytes :=
  match entry.2 with
  | .bytes payload => do pure (framed (← keyBytes entry.1) ++ framed payload)
  | .text t => do
    let payload ← Value.encodeText t
    pure (framed (← keyBytes entry.1) ++ framed payload)
  | .other _ => do
    let _ ← keyBytes entry.1
    throw .wrongKind

def frameEntries : List (Key × Payload) → Result Bytes
  | [] => .ok []
  | entry :: rest => do
    let first ← frameEntry entry
    pure (first ++ (← frameEntries rest))

def preimage (content : Content) : Result Bytes := do
  frameEntries (← sorted content)

def fingerprint (content : Content) : Result Nat := do
  pure (Blake2b.digest64 (← preimage content))

end Content

abbrev Labels := Table Text Value

namespace Labels

def app : Text := "app"

def hashId : Text := "hash_id"

def build (name : Value) (fingerprint : Int) : Labels :=
  [(app, name), (hashId, .text (Text.ofInt fingerprint))]

def areTexts (labels : Labels) : Bool := labels.all fun (_, label) => label matches .text _

def recorded (labels : Value) : Result Int := do
  (← labels.orEmpty.select (.text hashId)).toInt

def fingerprint? (labels : Value) : Result (Option Int) :=
  match recorded labels with
  | .ok n => .ok (some n)
  | .error .noSuchEntry => .ok none
  | .error .wrongKind => .ok none
  | .error fault => if fault.isUnreadableValue then .ok none else .error fault

end Labels

end SecretSync
