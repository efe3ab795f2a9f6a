import SecretSync.Sorting
import SecretSync.Value.Access

/-!
The content of a secret: entries in insertion order, at most one for each key. Keys are texts as a
rule, but a declaration may ask for a number. Content is put together by merging, where what is there
stays, and it is kept in the order of its keys.
-/

namespace SecretSync

inductive Payload where
  | bytes (b : Bytes)
  -- A text stands for its UTF-8 bytes.
  | text (t : Text)
  -- A value that no secret can hold.
  | other (v : Value)

namespace Key

inductive OrderClass where
  | number
  | text
  | bytes
  -- Null, which is not ordered even against itself.
  | unordered
deriving DecidableEq, Repr

def orderClass : Key → OrderClass
  | null => .unordered
  | bool _ => .number
  | int _ => .number
  | float _ => .number
  | text _ => .text
  | bytes _ => .bytes

-- Whether a finite float or an integer lies below another, both over a common denominator.
private def ratioBefore (a b : Int × Int) : Bool :=
  let scaled (x other : Int × Int) : Int := x.1 * twoPow (x.2 - min x.2 other.2).toNat
  scaled a b < scaled b a

-- The place of a number: below all finite ones, a mantissa with an exponent of two, above all
-- finite ones, or none.
private inductive Place where
  | below
  | at (x : Int × Int)
  | above
  | nowhere

private def place : Key → Place
  | bool b => .at (if b then 1 else 0, 0)
  | int n => .at (n, 0)
  | float x =>
    match Binary64.ofFloat x with
    | .nan => .nowhere
    | .infinite negative => if negative then .below else .above
    | .finite negative mantissa exponent => .at (if negative then -mantissa else mantissa, exponent)
  | _ => .nowhere

-- Whether one number comes before another; a float that is no number comes before none and after
-- none.
private def numberBefore (a b : Key) : Bool :=
  match place a, place b with
  | .nowhere, _ => false
  | _, .nowhere => false
  | .below, .below => false
  | .below, _ => true
  | _, .below => false
  | .above, _ => false
  | .at _, .above => true
  | .at x, .at y => ratioBefore x y

private def bytesBefore : Bytes → Bytes → Bool
  | [], [] => false
  | [], _ :: _ => true
  | _ :: _, [] => false
  | a :: as, b :: bs => a < b || (a == b && bytesBefore as bs)

def before (a b : Key) : Bool :=
  match a, b with
  | text s, text t => s.before t
  | bytes s, bytes t => bytesBefore s t
  | _, _ => numberBefore a b

end Key

abbrev Content := Table Key Payload

namespace Content

variable {ν : Type}

def merge (merged toMerge : Table Key ν) : Table Key ν :=
  toMerge.foldl (fun t (key, value) => t.putNew key value) merged

def isOrderable : Table Key ν → Bool
  | [] => true
  | [_] => true
  | (first, _) :: rest =>
    first.orderClass ≠ .unordered && rest.all fun (key, _) => key.orderClass = first.orderClass

def sorted (t : Table Key ν) : Result (Table Key ν) :=
  if isOrderable t then .ok (Sorting.sort (fun a b => a.1.before b.1) t)
  else .error .wrongKind

end Content

end SecretSync
