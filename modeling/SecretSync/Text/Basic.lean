/-!
Texts as sequences of code points. JSON lets a string hold a lone surrogate, which is no character,
so a text is a list of code points below 0x110000 and not a `String`. Texts are ordered by code
point, a text that ends first coming first.
-/

namespace SecretSync

-- A Unicode code point, surrogates included.
abbrev CodePoint := Fin 0x110000

abbrev Text := List CodePoint

abbrev Bytes := List UInt8

namespace CodePoint

theorem toNat_char_lt (c : Char) : c.toNat < 0x110000 := by
  have h := c.valid
  unfold UInt32.isValidChar Nat.isValidChar at h
  unfold Char.toNat
  omega

def ofChar (c : Char) : CodePoint := ⟨c.toNat, toNat_char_lt c⟩

instance : Coe Char CodePoint := ⟨ofChar⟩

-- The code point with number `n`, reduced into range; callers pass a number in range.
def ofNat (n : Nat) : CodePoint := ⟨n % 0x110000, Nat.mod_lt _ (by decide)⟩

def isSurrogate (c : CodePoint) : Bool := 0xD800 ≤ c.val && c.val ≤ 0xDFFF

def isAscii (c : CodePoint) : Bool := c.val < 0x80

def digit? (c : CodePoint) : Option Nat :=
  if 0x30 ≤ c.val && c.val ≤ 0x39 then some (c.val - 0x30) else none

def hexDigit? (c : CodePoint) : Option Nat :=
  if 0x30 ≤ c.val && c.val ≤ 0x39 then some (c.val - 0x30)
  else if 0x61 ≤ c.val && c.val ≤ 0x66 then some (c.val - 0x61 + 10)
  else if 0x41 ≤ c.val && c.val ≤ 0x46 then some (c.val - 0x41 + 10)
  else none

-- ASCII capital letters become small; every other code point stays.
def toLower (c : CodePoint) : CodePoint :=
  if 0x41 ≤ c.val && c.val ≤ 0x5A then ofNat (c.val + 0x20) else c

end CodePoint

namespace Text

def ofString (s : String) : Text := s.toList.map CodePoint.ofChar

instance : Coe String Text := ⟨ofString⟩

-- Whether every code point is a character, so that the text has a UTF-8 form.
def isScalar (t : Text) : Bool := t.all fun c => !c.isSurrogate

-- Code point order: a proper beginning comes first.
def before : Text → Text → Bool
  | [], [] => false
  | [], _ :: _ => true
  | _ :: _, [] => false
  | a :: as, b :: bs => a < b || (a == b && before as bs)

-- The parts between the occurrences of `sep`; `n` occurrences give `n + 1` parts.
def split (sep : CodePoint) : Text → List Text
  | [] => [[]]
  | c :: cs =>
    if c = sep then [] :: split sep cs
    else match split sep cs with
      | [] => [[c]]
      | part :: parts => (c :: part) :: parts

theorem split_ne_nil (sep : CodePoint) (t : Text) : split sep t ≠ [] := by
  cases t with
  | nil => simp [split]
  | cons c cs =>
    simp only [split]
    split
    · simp
    · split <;> simp

def afterLast? (sep : CodePoint) (t : Text) : Option Text :=
  match split sep t with
  | _ :: second :: rest => (second :: rest).getLast?
  | _ => none

def isInfix (part : Text) : Text → Bool
  | [] => part.isEmpty
  | c :: cs => part.isPrefixOf (c :: cs) || isInfix part cs

def dropRightWhile (p : CodePoint → Bool) (t : Text) : Text :=
  (t.reverse.dropWhile p).reverse

def trim (p : CodePoint → Bool) (t : Text) : Text :=
  dropRightWhile p (t.dropWhile p)

def toLower (t : Text) : Text := t.map CodePoint.toLower

-- The decimal digits of `n`, most significant first; `fuel` bounds their number.
def digitsWithin : Nat → Nat → Text
  | 0, _ => []
  | fuel + 1, n =>
    if n < 10 then [CodePoint.ofNat (0x30 + n)]
    else digitsWithin fuel (n / 10) ++ [CodePoint.ofNat (0x30 + n % 10)]

def ofNat (n : Nat) : Text := digitsWithin (n + 1) n

def ofInt : Int → Text
  | .ofNat n => ofNat n
  | .negSucc n => ('-' : CodePoint) :: ofNat (n + 1)

def hex : Nat → Nat → Text
  | 0, _ => []
  | width + 1, n =>
    let d := n % 16
    hex width (n / 16) ++ [CodePoint.ofNat (if d < 10 then 0x30 + d else 0x57 + d)]

def padded (width n : Nat) : Text :=
  let digits := ofNat n
  List.replicate (width - digits.length) ('0' : CodePoint) ++ digits

def join (sep : Text) : List Text → Text
  | [] => []
  | [t] => t
  | t :: ts => t ++ sep ++ join sep ts

end Text

end SecretSync
