import SqlTemplate.Text.CodePoint
import SqlTemplate.Text.Printable
import SqlTemplate.Text.Quoted

/-!
# Escaped texts

Inside a larger text, a text or a sequence of bytes is displayed between quotes. The quotes are
single ones, unless the text holds single quotes and no double ones. The backslash, the chosen quote
and whatever is not printable are escaped with a backslash: line ends and tabulators by a letter,
other characters by their code in base sixteen. `wide` displays a text of code points in the same
way.
-/

namespace SqlTemplate

namespace Escaped

/-- The quotes that a text is displayed in. -/
def quoteFor (t : Text) : Quote :=
  if '\'' ∈ t ∧ '"' ∉ t then .double else .single

/-- The numeric escape of a character, in the shortest of the three widths that holds its code. -/
def numeric (c : Char) : Text :=
  if c.toNat < 0x100 then "\\x".toList ++ Decimal.hexadecimal 2 c.toNat
  else if c.toNat < 0x10000 then "\\u".toList ++ Decimal.hexadecimal 4 c.toNat
  else "\\U".toList ++ Decimal.hexadecimal 8 c.toNat

/-- How one character is displayed between quotes `q`. -/
def char (q : Quote) (c : Char) : Text :=
  if c = '\\' ∨ c = q.char then ['\\', c]
  else if c = '\n' then "\\n".toList
  else if c = '\r' then "\\r".toList
  else if c = '\t' then "\\t".toList
  else if isPrintable c then [c]
  else numeric c

/-- A text as it is displayed inside a larger text. -/
def text (t : Text) : Text :=
  let q := quoteFor t
  q.char :: (t.flatMap (char q) ++ [q.char])

/-- How one code point is displayed between quotes `q`. -/
def point (q : Quote) : CodePoint → Text
  | .char c => char q c
  | .half offset => "\\u".toList ++ Decimal.hexadecimal 4 (CodePoint.halfNumber offset)

/-- A text of code points as it is displayed inside a larger text. -/
def wide (t : WideText) : Text :=
  let q := quoteFor (WideText.legible t)
  q.char :: (t.flatMap (point q) ++ [q.char])

@[simp] theorem wide_ofText (t : Text) : wide (WideText.ofText t) = text t := by
  simp only [wide, text, WideText.legible_ofText]
  simp [WideText.ofText, List.flatMap_map, point]

/-- The character of a byte if it is an ASCII one, and otherwise one that is never printed. -/
def byteChar (b : UInt8) : Char := if b < 127 then Char.ofNat b.toNat else Char.ofNat 127

/-- How one byte is displayed between quotes `q`: like its character below U+007F, and by its
number from there on. -/
def byte (q : Quote) (b : UInt8) : Text :=
  if b < 127 then char q (byteChar b) else "\\x".toList ++ Decimal.hexadecimal 2 b.toNat

/-- A sequence of bytes as it is displayed inside a larger text. -/
def bytes (bs : List UInt8) : Text :=
  let q := quoteFor (bs.map byteChar)
  'b' :: q.char :: (bs.flatMap (byte q) ++ [q.char])

end Escaped

end SqlTemplate
