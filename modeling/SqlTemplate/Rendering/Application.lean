import SqlTemplate.Function.Registry
import SqlTemplate.Rendering.Contribution
import SqlTemplate.Rendering.Negatives

/-!
# Application of functions

A function is applied to the contributions of the terms that follow it, its operands, or to those of
the terms in the parentheses behind its name. Most functions transform a chain of contributions into
one, and what follows parentheses is merged behind it. The conditional functions look at the first
contribution only and keep or drop the others.
-/

namespace SqlTemplate

/-- Why a template cannot be rendered. -/
inductive RenderError where
  /-- A required parameter is negative. -/
  | missingParameter (key : Text) (resource : Option Text)
  /-- A function is not known to the renderer. -/
  | unknownFunction (name : Text)
  /-- A conditional function without a condition. -/
  | emptyCondition
  /-- A list of values has to be split into parts of no elements. -/
  | zeroLimit
  /-- A whole number has too many digits to be written. -/
  | tooManyDigits
deriving DecidableEq, Repr

namespace RenderError

def message [Runtime] : RenderError → Text
  | missingParameter key resource =>
    "Required parameter '".toList ++ key ++ "' is missing or negative".toList ++
      (match resource with
        | some name => " (".toList ++ name ++ [')']
        | none => [])
  | unknownFunction name => Escaped.text name
  | emptyCondition => "list index out of range".toList
  | zeroLimit => "division by zero".toList
  | tooManyDigits => Decimal.limitMessage []

end RenderError

/-- The character that escapes wildcards in patterns. -/
def likeEscape : Char := '#'

/-- The characters that mean something in patterns: the escape character and the wildcards, in both
widths. -/
def isLikeSpecial (c : Char) : Bool := c == likeEscape || "%_％＿".toList.contains c

/-- A text with everything escaped that means something in patterns. -/
def escapeLikeText (t : WideText) : WideText :=
  t.flatMap fun p => if p.char?.any isLikeSpecial then [.char likeEscape, p] else [p]

/-- A value with the wildcards escaped; values that are no texts have none. -/
def Value.escapeLike : Value → Value
  | text t => text (escapeLikeText t)
  | v => v

def Value.isNull : Value → Bool
  | null => true
  | _ => false

namespace Contribution

variable [Runtime]

/-- The text that a contribution adds to a concatenation: its own, or its values that are not
negative, if each of them can be written. -/
def joinedText? (n : Negatives) (c : Contribution) : Option WideText :=
  match c.replacement with
  | some t => some (.ofText t)
  | none => WideText.joined? Value.plain? (c.values.filter fun v => !n.isNegative v)

def joinedTexts? (n : Negatives) (chain : List Contribution) : Option WideText :=
  WideText.joined? (joinedText? n) chain

/-- What is made of the text that a chain is joined into. A whole number in it may have too many
digits to be written. -/
def ofJoined (n : Negatives) (chain : List Contribution) (make : WideText → Contribution) :
    Except RenderError Contribution :=
  match joinedTexts? n chain with
  | some t => .ok (make t)
  | none => .error .tooManyDigits

/-- A text that a chain was joined into, as a value. -/
def joined (chain : List Contribution) (t : WideText) : Contribution :=
  { values := [.text t]
    replacement := none
    keepsLine := (merge chain).keepsLine
    disposed := (merge chain).disposed
    keepsSample := false }

def concat (n : Negatives) (chain : List Contribution) : Except RenderError Contribution :=
  ofJoined n chain (joined chain)

/-- A contribution with the wildcards in its values escaped. -/
def escapeLike (c : Contribution) : Contribution :=
  { c with values := c.values.map Value.escapeLike }

/-- What stands for a pattern in the statement. -/
def likeClause : Text := "? ESCAPE '".toList ++ [likeEscape, '\'']

/-- A text that a chain was joined into, as a pattern. -/
def pattern (chain : List Contribution) (t : WideText) : Contribution :=
  { joined chain t with replacement := some likeClause }

/-- A chain escaped and joined into one pattern. -/
def like (n : Negatives) (chain : List Contribution) : Except RenderError Contribution :=
  ofJoined n (chain.map escapeLike) (pattern (chain.map escapeLike))

def compact (chain : List Contribution) : Contribution :=
  { merge chain with values := (merge chain).values.filter fun v => !v.isNull }

/-- A text that a chain was joined into, as text of the statement. A statement is made of characters,
so a half of a surrogate pair that stands alone in a value is not taken over as it is: a replacement
character stands for it, as wherever such a text is shown. -/
def inserted (chain : List Contribution) (t : WideText) : Contribution :=
  { joined chain t with values := [], replacement := some (WideText.legible t) }

/-- A chain joined into text of the statement. -/
def sql (n : Negatives) (chain : List Contribution) : Except RenderError Contribution :=
  ofJoined n chain (inserted chain)

/-- What a condition that holds leaves: the rest of the chain, or the line as it is. -/
def ofHolding (condition : Contribution) (rest : List Contribution) : Contribution :=
  if rest.isEmpty then { keep with disposed := condition.disposed } else merge rest

end Contribution

namespace Function

variable [Runtime]

/-- What a function that transforms chains makes of one; the conditional functions are none. -/
def transform? (f : Function) (n : Negatives) (chain : List Contribution) :
    Option (Except RenderError Contribution) :=
  match f with
  | concat => some (Contribution.concat n chain)
  | escapeLike => some (.ok (.merge (chain.map .escapeLike)))
  | like => some (Contribution.like n chain)
  | compact => some (.ok (.compact chain))
  | sql => some (Contribution.sql n chain)
  | ifPresent | ifOutput => none

/-- The condition of a conditional function and what follows it. -/
def condition? (inside : Option (List Contribution)) (chain : List Contribution) :
    Option (Contribution × List Contribution) :=
  match inside, chain with
  | some inside, chain => some (.merge inside, chain)
  | none, [] => none
  | none, c :: rest => some (c, rest)

/-- What a conditional function contributes with a condition and what follows it. -/
def settle (f : Function) (negated : Bool) (condition : Contribution) (rest : List Contribution) :
    Contribution :=
  if condition.keepsLine != negated then .ofHolding condition rest
  else .drop (f == ifOutput || condition.disposed)

/-- What stands behind the parentheses of a function is merged behind what it makes of a chain. -/
def followed (inside : Option (List Contribution)) (chain : List Contribution) (c : Contribution) :
    Contribution :=
  match inside with
  | some _ => .merge (c :: chain)
  | none => c

/-- Applies a function to the contributions of the terms inside of its parentheses and of its
operands. A negated conditional function turns its condition around. -/
def apply (f : Function) (n : Negatives) (negated : Bool) (inside : Option (List Contribution))
    (chain : List Contribution) : Except RenderError Contribution :=
  match f.transform? n (inside.getD chain) with
  | some transformed => transformed.map (followed inside chain)
  | none =>
    match condition? inside chain with
    | none => .error .emptyCondition
    | some (condition, rest) => .ok (f.settle negated condition rest)

end Function

end SqlTemplate
