import SqlTemplate.Text.Escaped

/-!
# Problems of directives

The reasons for which the source of a directive cannot be compiled, and how each of them is put into
words.
-/

namespace SqlTemplate

/-- Why the source of a directive cannot be compiled. -/
inductive Problem where
  | emptyDirective
  | unexpectedCharacter (c : Char) (position : Nat)
  | unbalancedClosing
  | missingClosing
  | negatedRequired
  | unknownFunction (name : Text)
  | missingCondition (name : Text)
deriving DecidableEq, Repr

namespace Problem

def message : Problem → Text
  | emptyDirective => "Empty directive".toList
  | unexpectedCharacter c position =>
    "Unexpected character ".toList ++ Escaped.text [c] ++ " at position ".toList ++
      Decimal.ofNat position
  | unbalancedClosing => "Unbalanced ')'".toList
  | missingClosing => "Missing ')'".toList
  | negatedRequired => "Required parameters can't be negated".toList
  | unknownFunction name => "Unknown function name '".toList ++ name ++ ['\'']
  | missingCondition name =>
    '%' :: name ++ " must be followed by a condition, like '%".toList ++ name ++
      " PARAM' or '%".toList ++ name ++ " PARAM :text'".toList

end Problem

end SqlTemplate
