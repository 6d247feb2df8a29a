import SqlTemplate.Text.Keyword

/-!
# Connectives

Conditions are joined by `AND`, `OR` or a comma, which are left over at an end of a text when the
condition next to them is dropped. `afterLeading?` and `beforeTrailing?` take a connective off an
end of a text, with the blanks between it and the rest. `WHERE` and `HAVING` are left over in the
same way when all conditions behind them are dropped.
-/

namespace SqlTemplate

namespace Connective

def joining : List Text := ["AND".toList, "OR".toList]

/-- The words that are left over in front of conditions that are all dropped. -/
def introducing : List Text := ["WHERE".toList, "HAVING".toList] ++ joining

/-- What follows a connective at the start of a text. -/
def afterLeading? : Text → Option Text
  | ',' :: t => some (stripStart t)
  | t => (joining.findSome? fun word => keywordStart? word t).map stripStart

/-- What stands before a comma or one of the given words at the end of a text. -/
def beforeTrailing? (wordList : List Text) (t : Text) : Option Text :=
  match t.reverse with
  | ',' :: before => some (stripStart before).reverse
  | reversed =>
    (wordList.findSome? fun word => keywordEnd? word reversed).map fun (before, _) =>
      (stripStart before).reverse

/-- Whether a text starts with a connective, blanks aside. -/
def startsWith (t : Text) : Bool := (afterLeading? (strip t)).isSome

/-- Whether a text ends with a connective, blanks aside. -/
def endsWith (t : Text) : Bool := (beforeTrailing? joining (strip t)).isSome

/-- A text without the connective that it starts with. -/
def dropLeading (t : Text) : Text := (afterLeading? t).getD t

/-- A text without the connective that it ends with. -/
def dropTrailing (t : Text) : Text := (beforeTrailing? joining t).getD t

/-- A text without the connective or the introducing word that it ends with. -/
def dropIntroduction (t : Text) : Text := (beforeTrailing? introducing t).getD t

@[simp] theorem dropLeading_nil : dropLeading [] = [] := rfl

@[simp] theorem dropTrailing_nil : dropTrailing [] = [] := rfl

end Connective

end SqlTemplate
