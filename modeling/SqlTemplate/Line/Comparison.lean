import SqlTemplate.Line.Basic
import SqlTemplate.Text.Keyword

/-!
# Comparisons and marks at the end of a text

A directive that renders a comparison takes it out of the text in front of it: an operator at the
very end, and before it a subject, the longest run of characters of names. `NOT` belongs to the
operator `IN` or `LIKE` if a subject stands before it, and is the subject itself otherwise. In front
of a line comment the text may end with a mark, a question mark that may stand in parentheses.

Everything here looks at a text from its end, so texts are given last character first.
-/

namespace SqlTemplate

/-- A piece found at the end of a text: the text before it, last character first, and the piece. -/
structure Ending (α : Type) where
  before : Text
  piece : α
deriving Repr

namespace Ending

/-- The mark that a text ends with, blanks aside. -/
def mark? (reversed : Text) : Option (Ending Text) :=
  match stripStart reversed with
  | '?' :: before => some ⟨before, ['?']⟩
  | ')' :: inner =>
    let left := stripStart inner
    match left with
    | '?' :: t =>
      let right := stripStart t
      match right with
      | '(' :: before =>
        let start := (t.takeWhile isBlank).reverse
        let stop := (inner.takeWhile isBlank).reverse
        some ⟨before, '(' :: (start ++ '?' :: stop ++ [')'])⟩
      | _ => none
    | _ => none
  | _ => none

def isSubjectChar (c : Char) : Bool := isWord c || ".\"`[]".toList.contains c

/-- The subject that a text ends with, blanks aside. -/
def subject? (reversed : Text) : Option (Ending Text) :=
  let t := stripStart reversed
  match t.takeWhile isSubjectChar with
  | [] => none
  | subject => some ⟨t.dropWhile isSubjectChar, subject.reverse⟩

/-- The comparison by a given operator, if a subject stands before it. -/
def withOperator? (operator reversed : Text) : Option (Ending Comparison) :=
  (subject? reversed).map fun e => ⟨e.before, ⟨e.piece, operator⟩⟩

/-- The comparison by an operator that is a word, written `word`. What seems to be the subject is
`NOT` of the operator if it stands apart from both the word and a subject before it. -/
def withWord? (word reversed : Text) : Option (Ending Comparison) :=
  match subject? reversed with
  | none => none
  | some e =>
    let apart (t : Text) : Bool := (t.head?.map isBlank).getD false
    if isKeyword "NOT".toList e.piece && apart reversed && apart e.before then
      match withOperator? (e.piece ++ ' ' :: word) e.before with
      | some comparison => some comparison
      | none => some ⟨e.before, ⟨e.piece, word⟩⟩
    else some ⟨e.before, ⟨e.piece, word⟩⟩

/-- The operator of two signs, or else of one, that a text ends with. -/
def sign? : Text → Option (Ending Text)
  | '>' :: '<' :: t => some ⟨t, "<>".toList⟩
  | '=' :: '!' :: t => some ⟨t, "!=".toList⟩
  | '=' :: '<' :: t => some ⟨t, "<=".toList⟩
  | '=' :: '>' :: t => some ⟨t, ">=".toList⟩
  | '=' :: t => some ⟨t, "=".toList⟩
  | '<' :: t => some ⟨t, "<".toList⟩
  | '>' :: t => some ⟨t, ">".toList⟩
  | _ => none

/-- The comparison that a text ends with, blanks aside. -/
def comparison? (reversed : Text) : Option (Ending Comparison) :=
  let t := stripStart reversed
  match sign? t with
  | some sign => withOperator? sign.piece sign.before
  | none =>
    match keywordEnd? "IN".toList t with
    | some (before, word) => withWord? word before
    | none =>
      match keywordEnd? "LIKE".toList t with
      | some (before, word) => withWord? word before
      | none => none

end Ending

end SqlTemplate
