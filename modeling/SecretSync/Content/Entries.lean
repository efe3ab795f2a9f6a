import SecretSync.Content.Basic
import SecretSync.Declaration
import SecretSync.Path

/-!
From fetched values to entries. A field with a key makes one entry, of the whole value or of the part
that its path leads to. A field without a key makes an entry of every member of a fetched object, if
its backend allows that. A value that has no such part, or is no such object, makes no entry.
-/

namespace SecretSync

namespace Content

def single (key : Value) (payload : Bytes) : Result Content := do
  pure [(← key.asKey, .bytes payload)]

def ofMembers : List (Text × Value) → Result Content
  | [] => .ok []
  | (name, v) :: rest => do
    let payload ← Value.encodeText (← v.toText)
    pure ((.text name, .bytes payload) :: (← ofMembers rest))

def expand (fetched : Value) : Result Content := do
  match ← Json.parseValue fetched with
  | .object members => ofMembers members
  | v => throw (.notAnObject v.documentKind)

end Content

def textWithin (fetched path : Value) : Result Text := do
  let document ← Json.parseValue fetched
  match path with
  | .text t => Path.textAt t document
  | _ => throw .lacksOperation

-- The entries of a field. `canExpand` tells whether its backend lets it do without a key.
def Field.entries (field : Field) (fetched : Value) (canExpand : Bool) : Result Content :=
  if field.key.isGiven then
    if field.isJson && field.remotePath.isGiven then do
      let part ← (textWithin fetched field.remotePath).recover []
      if part.isEmpty then pure []
      else Content.single field.key (← Value.encodeText part)
    else do
      Content.single field.key (← fetched.toBytes)
  else if canExpand then (Content.expand fetched).recover []
  else .ok []

end SecretSync
