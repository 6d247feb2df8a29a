import SqlTemplate.Directive.Problem

/-!
# Flaws of templates

A text that is no template has a flaw at a place. The place names the template and the lines
concerned, as far as they are known, and is written in parentheses behind the description of the
flaw.
-/

namespace SqlTemplate

/-- A place in a template: the name of the template, the first and the last line concerned. -/
structure Place where
  resource : Option Text
  first : Option Nat
  last : Option Nat
deriving DecidableEq, Repr

namespace Place

/-- The lines of a place: a single one, or a range if the last line is known and a different one. -/
def lines (p : Place) : List Text :=
  match p.first, p.last with
  | none, _ => []
  | some first, some last =>
    if last = first then ["line ".toList ++ Decimal.ofNat first]
    else ["lines ".toList ++ Decimal.ofNat first ++ '-' :: Decimal.ofNat last]
  | some first, none => ["line ".toList ++ Decimal.ofNat first]

/-- A description with the place behind it, if anything is known of the place. -/
def annotate (p : Place) (description : Text) : Text :=
  match p.resource.toList ++ p.lines with
  | [] => description
  | parts => description ++ " (".toList ++ List.intercalate ", ".toList parts ++ [')']

end Place

/-- What is wrong with a text that is no template. -/
inductive Flaw where
  /-- A parenthesis is closed that was never opened. -/
  | strayParenthesis
  /-- A parenthesis is never closed. -/
  | openParenthesis
  /-- A comment is closed that was never opened. -/
  | strayComment
  /-- A comment is never closed. -/
  | openComment
  /-- A quoted literal is never closed. -/
  | openQuote (q : Quote)
  /-- A directive cannot be compiled. -/
  | directive (problem : Problem) (source : Text)
deriving DecidableEq, Repr

namespace Flaw

def description : Flaw → Text
  | strayParenthesis => "SQL Format Error: too many ')'".toList
  | openParenthesis => "SQL Format Error: too many '('".toList
  | strayComment => "SQL Format Error: too many '*/'".toList
  | openComment => "SQL Format Error: too many '/*'".toList
  | openQuote .single => "SQL Format Error: Single quotation unmatched".toList
  | openQuote .double => "SQL Format Error: Double quotation unmatched".toList
  | directive problem source => problem.message ++ " in directive '".toList ++ source ++ ['\'']

end Flaw

/-- A flaw and the lines where it was found. -/
structure Misfit where
  flaw : Flaw
  first : Nat
  last : Option Nat
deriving DecidableEq, Repr

/-- Why a text is no template. -/
structure FormatError where
  flaw : Flaw
  place : Place
deriving DecidableEq, Repr

namespace FormatError

def message (e : FormatError) : Text := e.place.annotate e.flaw.description

end FormatError

end SqlTemplate
