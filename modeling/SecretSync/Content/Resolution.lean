import SecretSync.Content.Entries
import SecretSync.Lookup

/-!
Resolving sources: fetching the values of their fields and making entries of them. A field that fails
makes no entry and does not keep the others from theirs. Of two fields with the same key the first one
counts.
-/

namespace SecretSync

namespace Fetched

def toJson : Fetched → Result Text
  | value v => Json.print v
  | outputs t => do
    let members ← t.mapM fun (key, v) => do
      let name ← Json.memberName key
      pure (name, v)
    Json.print (.object members)

def hasOutput (name : Value) : Fetched → Result Bool
  | value v => v.contains name
  | outputs t => do pure (t.has (← name.asKey))

def output (name : Value) : Fetched → Result Value
  | value v => v.select name
  | outputs t => do Result.ofOption .noSuchEntry (t.get? (← name.asKey))

end Fetched

namespace Field

-- The text that a field takes from the outputs of a stack: the output that it names, or all of them
-- as one document.
def outputText (field : Field) (fetched : Fetched) : Result Text :=
  if field.outputKey.isGiven then do
    if ← fetched.hasOutput field.outputKey then
      (← fetched.output field.outputKey).toText
    else throw (.outputNotFound (.text field.value) field.outputKey)
  else fetched.toJson

def singleValue : Value := "value"

-- The text that a field takes from a Vault secret: the single value, if the field has a key and the
-- secret holds one, or else the whole secret as a document.
def secretText (field : Field) (document : Fetched) : Result Text := do
  if field.key.isGiven then
    if ← document.hasOutput singleValue then
      return ← (← document.output singleValue).toText
  document.toJson

def outputEntries (field : Field) (fetched : Fetched) : Result Content := do
  field.entries (.text (← field.outputText fetched)) true

def entriesOf (field : Field) (backend : Backend) (fetched : Fetched) : Result Content :=
  match backend with
  | .cloudformation => field.outputEntries fetched
  | .pulumi => field.outputEntries fetched
  | .vault => do field.entries (.text (← field.secretText fetched)) true
  | _ =>
    match fetched with
    | .value v => field.entries v false
    | .outputs _ => .ok []

variable {τ : Type} [Timeline τ]

def resolve (settings : Settings τ) (ttl : Span τ) (source : Source) (field : Field) :
    Op τ (Session τ) Content :=
  match Lookup.ofField source field with
  | none => Op.ofResult (field.entries (.text field.value) false)
  | some l => do
    let fetched ← l.resolve settings ttl
    Op.ofResult (field.entriesOf source.backend fetched)

end Field

namespace Source

variable {τ : Type} [Timeline τ]

def resolveFields (settings : Settings τ) (ttl : Span τ) (source : Source) :
    List Field → Content → Op τ (Session τ) Content
  | [], found => pure found
  | field :: rest, found => do
    match ← Op.attempt (field.resolve settings ttl source) with
    | .ok entries => resolveFields settings ttl source rest (Content.merge found entries)
    | .error _ => resolveFields settings ttl source rest found

-- The entries of a source, in the order of their keys. A source of a kind that is not supported has
-- none.
def resolve (settings : Settings τ) (ttl : Span τ) (source : Source) : Op τ (Session τ) Content :=
  match source.backend with
  | .unknown => pure []
  | _ => do
    let found ← resolveFields settings ttl source source.fields []
    Op.ofResult (Content.sorted found)

end Source

end SecretSync
