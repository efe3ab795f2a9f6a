import SecretSync.Fault
import SecretSync.Number.Reader
import SecretSync.Text.Encoding

/-!
Reading JSON text. Beside standard JSON the words for infinities and for the value that is no number
are accepted, and a string literal may escape a lone surrogate. Of members with the same name the
last one counts, in the place of the first. An integer literal may have as many digits as a numeral.

Each reader takes the text that is left and returns what it read with what is left after it.
Brackets can be nested up to `maxDepth`; a reader that comes to one that is deeper fails there,
whatever follows.
-/

namespace SecretSync.Json

def skipBlanks (t : Text) : Text := t.dropWhile CodePoint.isJsonBlank

-- An element of a string literal: a code point that stands for itself, or an escaped code unit.
inductive Piece where
  | plain (c : CodePoint)
  | unit (n : Nat)
deriving DecidableEq, Repr

def shortEscape? (c : CodePoint) : Option CodePoint :=
  if c = '"' || c = '\\' || c = '/' then some c
  else if c = 'b' then some (CodePoint.ofNat 0x08)
  else if c = 'f' then some (CodePoint.ofNat 0x0C)
  else if c = 'n' then some '\n'
  else if c = 'r' then some '\r'
  else if c = 't' then some '\t'
  else none

def codeUnit? (a b c d : CodePoint) : Option Nat := do
  let w ← a.hexDigit?
  let x ← b.hexDigit?
  let y ← c.hexDigit?
  let z ← d.hexDigit?
  pure (((w * 16 + x) * 16 + y) * 16 + z)

-- The rest of a string literal, up to its closing quote. Control characters have to be escaped.
def pieces : Text → Option (List Piece × Text)
  | [] => none
  | c :: cs =>
    if c = '"' then some ([], cs)
    else if c.val < 0x20 then none
    else if c = '\\' then
      match cs with
      | [] => none
      | e :: cs =>
        if e = 'u' then
          match cs with
          | w :: x :: y :: z :: cs => do
            let n ← codeUnit? w x y z
            let (rest, left) ← pieces cs
            pure (.unit n :: rest, left)
          | _ => none
        else do
          let c ← shortEscape? e
          let (rest, left) ← pieces cs
          pure (.plain c :: rest, left)
    else do
      let (rest, left) ← pieces cs
      pure (.plain c :: rest, left)

-- The text of a string literal: an escaped high surrogate and an escaped low one directly after it
-- make one code point.
def joinPieces : List Piece → Text
  | [] => []
  | .plain c :: rest => c :: joinPieces rest
  | [.unit n] => [CodePoint.ofNat n]
  | .unit high :: .unit low :: rest =>
    if CodePoint.isPair high low then CodePoint.ofPair high low :: joinPieces rest
    else CodePoint.ofNat high :: joinPieces (.unit low :: rest)
  | .unit n :: .plain c :: rest => CodePoint.ofNat n :: c :: joinPieces rest

def string (t : Text) : Result (Text × Text) := do
  let (ps, rest) ← Result.ofOption .malformedJson (pieces t)
  pure (joinPieces ps, rest)

def wholePart : Text → Option (List Nat × Text)
  | c :: cs =>
    match c.digit? with
    | none => none
    | some 0 => some ([0], cs)
    | some _ => some (Numeral.takeDigits (c :: cs))
  | [] => none

def fraction? (t : Text) : Option (List Nat × Text) :=
  match t with
  | c :: cs =>
    if c = '.' then
      match Numeral.takeDigits cs with
      | ([], _) => none
      | found => some found
    else none
  | [] => none

def exponent? (t : Text) : Option (Int × Text) :=
  match t with
  | c :: cs =>
    if c = 'e' || c = 'E' then
      let (negative, cs) := Numeral.splitSign cs
      match Numeral.takeDigits cs with
      | ([], _) => none
      | (digits, rest) =>
        let n := Numeral.ofDigits digits
        some (if negative then -(n : Int) else n, rest)
    else none
  | [] => none

-- An unsigned number. It is an integer iff it has neither fraction nor exponent.
def unsignedNumber (negative : Bool) (t : Text) : Result (Value × Text) := do
  let (whole, rest) ← Result.ofOption .malformedJson (wholePart t)
  let (fraction, rest) := match fraction? rest with
    | some (digits, rest) => (some digits, rest)
    | none => (none, rest)
  let (exponent, rest) := match exponent? rest with
    | some (n, rest) => (some n, rest)
    | none => (none, rest)
  match fraction, exponent with
  | none, none =>
    let n ← Result.ofOption .unreadable (Numeral.nat? whole)
    pure (.int (if negative then -(n : Int) else n), rest)
  | _, _ =>
    let digits := fraction.getD []
    pure (.float (Binary64.floatOfDecimal negative (Numeral.ofDigits (whole ++ digits))
      (exponent.getD 0 - digits.length)), rest)

def after? (word : Text) (t : Text) : Option Text :=
  if word.isPrefixOf t then some (t.drop word.length) else none

def words : List (Text × Value) := [
  ("null", .null), ("true", .bool true), ("false", .bool false), ("NaN", .float (0 / 0)),
  ("Infinity", .float (1 / 0)), ("-Infinity", .float (-1 / 0))]

def scalar (t : Text) : Result (Value × Text) :=
  match words.findSome? fun (word, v) => (after? word t).map fun rest => (v, rest) with
  | some found => .ok found
  | none =>
    match t with
    | c :: cs => if c = '-' then unsignedNumber true cs else unsignedNumber false (c :: cs)
    | [] => .error .malformedJson

-- Reading goes down by a call for each bracket, and an interpreter keeps about a thousand calls
-- open at a time, those around the reader included.
def maxDepth : Nat := 980

mutual

-- A value without white space before it. `room` is how much deeper brackets may be nested, and
-- `fuel` bounds the depth of the recursion.
def value : Nat → Nat → Text → Result (Value × Text)
  | _, 0, _ => .error .malformedJson
  | room, fuel + 1, t =>
    match t with
    | [] => .error .malformedJson
    | c :: cs =>
      if c = '"' then do
        let (s, rest) ← string cs
        pure (.text s, rest)
      else if c = '[' then
        match room with
        | 0 => .error .nestedTooDeeply
        | room + 1 =>
          match skipBlanks cs with
          | [] => .error .malformedJson
          | d :: rest =>
            if d = ']' then .ok (.list [], rest)
            else do
              let (vs, rest) ← items room fuel (d :: rest)
              pure (.list vs, rest)
      else if c = '{' then
        match room with
        | 0 => .error .nestedTooDeeply
        | room + 1 =>
          match skipBlanks cs with
          | [] => .error .malformedJson
          | d :: rest =>
            if d = '}' then .ok (.object [], rest)
            else do
              let (ms, rest) ← members room fuel (d :: rest)
              pure (.object (Table.ofEntries ms), rest)
      else scalar (c :: cs)

-- The elements of a list, from the first one to the closing bracket.
def items : Nat → Nat → Text → Result (List Value × Text)
  | _, 0, _ => .error .malformedJson
  | room, fuel + 1, t => do
    let (v, rest) ← value room fuel t
    match skipBlanks rest with
    | [] => .error .malformedJson
    | c :: rest =>
      if c = ']' then pure ([v], rest)
      else if c = ',' then
        let (vs, rest) ← items room fuel (skipBlanks rest)
        pure (v :: vs, rest)
      else .error .malformedJson

def members : Nat → Nat → Text → Result (List (Text × Value) × Text)
  | _, 0, _ => .error .malformedJson
  | room, fuel + 1, t =>
    match t with
    | [] => .error .malformedJson
    | c :: cs =>
      if c = '"' then do
        let (name, rest) ← string cs
        match skipBlanks rest with
        | [] => .error .malformedJson
        | d :: rest =>
          if d = ':' then
            let (v, rest) ← value room fuel (skipBlanks rest)
            match skipBlanks rest with
            | [] => .error .malformedJson
            | e :: rest =>
              if e = '}' then pure ([(name, v)], rest)
              else if e = ',' then
                let (ms, rest) ← members room fuel (skipBlanks rest)
                pure ((name, v) :: ms, rest)
              else .error .malformedJson
          else .error .malformedJson
      else .error .malformedJson

end

-- The document that a text holds, with white space around it. Every second step of the recursion
-- takes at least one code point off the text, so the fuel suffices.
def parse (t : Text) : Result Value := do
  let (v, rest) ← value maxDepth (2 * t.length + 2) (skipBlanks t)
  if (skipBlanks rest).isEmpty then pure v else .error .malformedJson

-- The document that a value holds: a text as it is, a byte string in the encoding form that it
-- shows; values of other kinds hold none.
def parseValue : Value → Result Value
  | .text t => parse t
  | .bytes b => do parse (← Result.ofOption .notDecodable (Text.ofJsonBytes? b))
  | _ => .error .wrongKind

end SecretSync.Json
