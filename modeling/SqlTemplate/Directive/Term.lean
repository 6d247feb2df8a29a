import SqlTemplate.Text.Blank

/-!
# Terms of directives

A directive is a chain of terms. A reference names a parameter and says what its presence decides;
a required reference names one that must be present. Literals contribute text, groups put terms
together, and calls apply a function to the terms in the parentheses behind its name and to the
terms that follow.
-/

namespace SqlTemplate

/-- What a reference to a parameter contributes. -/
inductive Reference where
  /-- The values of the parameter. -/
  | param
  /-- Nothing: only the presence of the parameter counts. -/
  | presence
  /-- The comparison in front of the directive, with the values of the parameter. -/
  | condition
deriving DecidableEq, Repr

/-- A term of a directive. -/
inductive Term where
  | reference (kind : Reference) (key : Text) (negated : Bool)
  | required (key : Text)
  | literal (t : Text)
  | group (chain : List Term)
  | call (name : Text) (negated : Bool) (inside : Option (List Term)) (chain : List Term)
deriving Repr

instance : Inhabited Term := ⟨.literal []⟩

abbrev Expression := List Term

namespace Expression

/-- Whether a directive renders the comparison in front of it. -/
def isCondition : Expression → Bool
  | .reference .condition _ _ :: _ => true
  | _ => false

@[simp] theorem isCondition_nil : isCondition [] = false := rfl

@[simp] theorem isCondition_condition (key : Text) (negated : Bool) (e : Expression) :
    isCondition (.reference .condition key negated :: e) = true := rfl

end Expression

end SqlTemplate
