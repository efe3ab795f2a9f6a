import SecretSync.Text.Basic

/-!
White space. Three classes are in use: the one that JSON allows between its tokens, the one around
numerals, and the one that trimming a setting removes.
-/

namespace SecretSync.CodePoint

-- White space between JSON tokens: space, tab, line feed and carriage return.
def isJsonBlank (c : CodePoint) : Bool :=
  c.val == 0x20 || c.val == 0x09 || c.val == 0x0A || c.val == 0x0D

def isWideBlank (c : CodePoint) : Bool :=
  c.val == 0x85 || c.val == 0xA0 || c.val == 0x1680 || (0x2000 ≤ c.val && c.val ≤ 0x200A)
    || c.val == 0x2028 || c.val == 0x2029 || c.val == 0x202F || c.val == 0x205F || c.val == 0x3000

-- White space around a numeral: space, the controls from tab to carriage return, and all white
-- space outside ASCII.
def isNumeralBlank (c : CodePoint) : Bool :=
  c.val == 0x20 || (0x09 ≤ c.val && c.val ≤ 0x0D) || c.isWideBlank

-- White space of any kind, the four ASCII separator controls included.
def isBlank (c : CodePoint) : Bool :=
  c.isNumeralBlank || (0x1C ≤ c.val && c.val ≤ 0x1F)

end SecretSync.CodePoint
