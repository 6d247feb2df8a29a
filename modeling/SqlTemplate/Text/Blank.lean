/-!
# Texts and blanks

A text is the list of its characters. `isBlank` is the one class of blank characters of the whole
library: the controls U+0009 to U+000D and U+001C to U+001F, the space, and every separator of the
other scripts. `strip` removes the blanks at both ends of a text, `words` splits a text at its
blanks and `collapse` joins the words again with single spaces.
-/

namespace SqlTemplate

/-- A text is the list of its characters, so every position and length counts characters. -/
abbrev Text := List Char

/-- The characters that separate words: spaces of any width, tabulators and line separators. -/
def isBlank (c : Char) : Bool :=
  let code := c.toNat
  (9 ≤ code && code ≤ 13) || (28 ≤ code && code ≤ 32) || code == 0x85 || code == 0xA0 ||
    code == 0x1680 || (0x2000 ≤ code && code ≤ 0x200A) || code == 0x2028 || code == 0x2029 ||
    code == 0x202F || code == 0x205F || code == 0x3000

/-- Whether a text holds nothing but blanks. -/
def isBlankText (t : Text) : Bool := t.all isBlank

/-- The text without the blanks it starts with. -/
def stripStart (t : Text) : Text := t.dropWhile isBlank

/-- The text without the blanks it ends with. -/
def stripEnd (t : Text) : Text := (stripStart t.reverse).reverse

/-- The text without the blanks at its two ends. -/
def strip (t : Text) : Text := stripEnd (stripStart t)

/-- The maximal runs of characters that are no blanks, in order. -/
def words : Text → List Text
  | [] => []
  | c :: t =>
    if isBlank c then words t
    else
      match t, words t with
      | d :: _, w :: ws => if isBlank d then [c] :: w :: ws else (c :: w) :: ws
      | _, ws => [c] :: ws

/-- The words of a text, separated by single spaces. -/
def collapse (t : Text) : Text := List.intercalate [' '] (words t)

@[simp] theorem isBlankText_nil : isBlankText [] = true := rfl

@[simp] theorem isBlankText_cons (c : Char) (t : Text) :
    isBlankText (c :: t) = (isBlank c && isBlankText t) := rfl

@[simp] theorem stripStart_nil : stripStart [] = [] := rfl

theorem stripStart_cons (c : Char) (t : Text) :
    stripStart (c :: t) = if isBlank c then stripStart t else c :: t := by
  simp only [stripStart, List.dropWhile_cons]

@[simp] theorem stripEnd_nil : stripEnd [] = [] := rfl

@[simp] theorem strip_nil : strip [] = [] := rfl

/-- Every blank that the basic character class knows is a blank here. -/
theorem isBlank_of_isWhitespace {c : Char} (h : c.isWhitespace = true) : isBlank c = true := by
  simp only [Char.isWhitespace, Bool.or_eq_true, decide_eq_true_eq] at h
  rcases h with ((h | h) | h) | h <;> subst h <;> decide

end SqlTemplate
