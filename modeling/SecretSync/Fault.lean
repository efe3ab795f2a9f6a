import SecretSync.Value.Display

/-!
What can go wrong. A fault names its cause; the message of a cause is `Fault.message`. Some faults
say that a value cannot be read as what it should be, and these are the ones that readers of single
values recover from.
-/

namespace SecretSync

inductive DocumentKind where
  | null
  | bool
  | int
  | float
  | text
  | list
deriving DecidableEq, Repr

inductive Fault where
  -- A value is of a kind that an operation does not take.
  | wrongKind
  -- A value is of a kind that lacks an operation.
  | lacksOperation
  | noSuchEntry
  | noSuchPosition
  | malformedJson
  -- Brackets are nested deeper than a reader can follow.
  | nestedTooDeeply
  -- A text does not denote the number or date that it should.
  | unreadable
  -- A document other than an object was to be expanded.
  | notAnObject (kind : DocumentKind)
  -- A text with a lone surrogate has no UTF-8 form.
  | notEncodable
  | notDecodable
  | outOfRange
  | nonPositiveTtl
  -- A failure of the operator that has no cause of its own here.
  | general (details : List Value)
  -- A backend could not give a value.
  | fetch (details : List Value)
  | noActiveVersion (secret : Value)
  | checksumMismatch (version : Value)
  | outputNotFound (stack output : Value)
  | missingSetting (backend setting : Value)
  | emptyContent (backend lookup : Value)
  -- A remote service failed, with its own words.
  | remote (message : Text)
  | refused (status : Int)
deriving Inhabited

namespace Fault

-- Whether the fault says that a single value is not of the form it should be.
def isUnreadableValue : Fault → Bool
  | malformedJson => true
  | unreadable => true
  | notAnObject _ => true
  | notEncodable => true
  | notDecodable => true
  | _ => false

def status? : Fault → Option Int
  | refused status => some status
  | _ => none

def kindName : DocumentKind → Text
  | .null => "NoneType"
  | .bool => "bool"
  | .int => "int"
  | .float => "float"
  | .text => "str"
  | .list => "list"

def message? : Fault → Option Text
  | notAnObject kind => some (Text.ofString "Expected a json object got " ++ kindName kind)
  | nonPositiveTtl => some "Cache ttl must be positive"
  | general details => some (Value.displayAll details)
  | fetch details => some (Value.displayAll details)
  | noActiveVersion secret =>
    some (Text.ofString "Secret " ++ secret.display ++ Text.ofString " has no active enabled versions")
  | checksumMismatch version =>
    some (Text.ofString "Secret version " ++ version.display
      ++ Text.ofString " payload failed crc32c verification")
  | outputNotFound stack output =>
    some (Text.ofString "Stack " ++ stack.display ++ Text.ofString " has no output "
      ++ output.display)
  | missingSetting backend setting =>
    some (Text.ofString "Backend " ++ backend.display
      ++ Text.ofString " is missing configuration " ++ setting.display)
  | emptyContent backend lookup =>
    some (Text.ofString "Backend " ++ backend.display ++ Text.ofString " returned no content for "
      ++ lookup.display)
  | remote message => some message
  | refused status => some (Text.ofInt status)
  | _ => none

end Fault

abbrev Result (α : Type) := Except Fault α

def Result.ofOption {α : Type} (fault : Fault) : Option α → Result α
  | some a => .ok a
  | none => .error fault

-- `result`, with `fallback` in place of a fault that says that a single value is not of the form it
-- should be.
def Result.recover {α : Type} (result : Result α) (fallback : α) : Result α :=
  match result with
  | .ok a => .ok a
  | .error fault => if fault.isUnreadableValue then .ok fallback else .error fault

end SecretSync
