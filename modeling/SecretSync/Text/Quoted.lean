import SecretSync.Text.Printable

/-!
Quoted texts, as lists and objects show the texts inside them. The quotes are single unless the text
holds a single quote and no double one. Inside, a backslash and the quote in use get a backslash,
line ends and tabs their letters, and unprintable code points their number.
-/

namespace SecretSync.Text

private def backslash : CodePoint := '\\'

def escaped (quote c : CodePoint) : Text :=
  if c = quote || c = backslash then [backslash, c]
  else if c = '\n' then [backslash, 'n']
  else if c = '\r' then [backslash, 'r']
  else if c = '\t' then [backslash, 't']
  else if c.isPrintable then [c]
  else if c.val < 0x100 then backslash :: ('x' : CodePoint) :: hex 2 c.val
  else if c.val < 0x10000 then backslash :: ('u' : CodePoint) :: hex 4 c.val
  else backslash :: ('U' : CodePoint) :: hex 8 c.val

def quoted (t : Text) : Text :=
  let single : CodePoint := '\''
  let double : CodePoint := '"'
  let quote := if t.contains single && !t.contains double then double else single
  quote :: t.flatMap (escaped quote) ++ [quote]

end SecretSync.Text
