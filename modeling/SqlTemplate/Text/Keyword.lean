import SqlTemplate.Text.Word

/-!
# Keywords

Keywords are written in capitals and recognised in any case. `isLetter` says which characters spell
a letter of a keyword: besides the two cases of the letter these are the dotted and the dotless `i`
and the Kelvin sign, which simple case folding identifies with `i` and `k`. `keywordStart?` reads a
keyword at the start of a text and `keywordEnd?` at its end; both demand that the keyword is not
part of a longer word on the side they look away from.
-/

namespace SqlTemplate

/-- Whether `c` spells the capital letter `l` of a keyword. -/
def isLetter (l c : Char) : Bool :=
  c == l || c == l.toLower || (l == 'I' && (c == '\u0130' || c == '\u0131')) ||
    (l == 'K' && c == '\u212a')

/-- What follows the letters of `word` at the start of a text. -/
def afterLetters? : Text → Text → Option Text
  | [], t => some t
  | _ :: _, [] => none
  | l :: word, c :: t => if isLetter l c then afterLetters? word t else none

/-- What follows the keyword `word` at the start of a text; the word ends there. -/
def keywordStart? (word t : Text) : Option Text :=
  (afterLetters? word t).filter beginsOutsideWord

/-- What stands before the keyword `word` at the end of a text, last character first, and the
keyword as it is written; the word begins there. The text is given last character first. -/
def keywordEnd? (word reversed : Text) : Option (Text × Text) :=
  (keywordStart? word.reverse reversed).map fun before =>
    (before, (reversed.take word.length).reverse)

def isKeyword (word t : Text) : Bool := afterLetters? word t == some []

@[simp] theorem afterLetters?_nil (t : Text) : afterLetters? [] t = some t := rfl

theorem afterLetters?_cons_cons (l c : Char) (word t : Text) :
    afterLetters? (l :: word) (c :: t) =
      if isLetter l c then afterLetters? word t else none := rfl

/-- A keyword takes as many characters of the text as it has letters. -/
theorem eq_drop_of_afterLetters? {word t r : Text} (h : afterLetters? word t = some r) :
    r = t.drop word.length ∧ word.length ≤ t.length := by
  induction word generalizing t with
  | nil => simp_all
  | cons l word ih =>
    cases t with
    | nil => simp [afterLetters?] at h
    | cons c t =>
      rw [afterLetters?_cons_cons] at h
      split at h
      · have := ih h
        simpa using this
      · simp at h

end SqlTemplate
