import SqlTemplate.Directive.Term

/-!
# Lines of templates

A line of a template is a piece of statement text, without the directives that were written in it,
and the lines that belong to it because they are indented more. What was taken out of the text stays
in the line as splices, each with the offset of the text where its output goes: a directive, or the
lines of a parenthesised span that runs over several lines.
-/

namespace SqlTemplate

/-- A comparison that a directive renders: what is compared, and how. -/
structure Comparison where
  subject : Text
  operator : Text
deriving DecidableEq, Repr

/-- A directive of a template. -/
structure Directive where
  /-- The text of its comment. -/
  source : Text
  expression : Expression
  /-- The sample value that it replaces. -/
  sample : Option Text
  /-- The comparison that it renders. -/
  comparison : Option Comparison
  /-- The line where its comment begins. -/
  line : Option Nat
deriving Repr

mutual

/-- A line of a template: its text, its first and its last line in the source of the template, what
is spliced into its text, and the block of the lines that belong to it, if it has one. -/
inductive Line where
  | mk (sql : Text) (first last : Nat) (splices : List Splice) (block : Option (List Line))

/-- What is spliced into the text of a line. -/
inductive Splice where
  | directive (offset : Nat) (d : Directive)
  | group (offset : Nat) (lines : List Line)

end

namespace Splice

/-- The offset where the output of a splice goes. -/
def offset : Splice → Nat
  | directive offset _ => offset
  | group offset _ => offset

def shift (delta : Nat) : Splice → Splice
  | directive offset d => directive (offset + delta) d
  | group offset lines => group (offset + delta) lines

def directive? : Splice → Option Directive
  | directive _ d => some d
  | group .. => none

def lines? : Splice → Option (List Line)
  | directive .. => none
  | group _ lines => some lines

@[simp] theorem offset_shift (delta : Nat) (s : Splice) :
    (s.shift delta).offset = s.offset + delta := by cases s <;> rfl

end Splice

namespace Line

def sql : Line → Text
  | mk sql .. => sql

/-- The first line of the source that a line stands on. -/
def first : Line → Nat
  | mk _ first .. => first

/-- The last line of the source that a line stands on. -/
def last : Line → Nat
  | mk _ _ last .. => last

/-- What is spliced into the text of a line. -/
def splices : Line → List Splice
  | mk _ _ _ splices _ => splices

/-- The block of the lines that belong to a line. -/
def block? : Line → Option (List Line)
  | mk _ _ _ _ block => block

/-- The lines that belong to a line. -/
def children (l : Line) : List Line := l.block?.getD []

/-- A line with the block of the lines that belong to it. Without such lines it has no block. -/
def withChildren (children : List Line) : Line → Line
  | mk sql first last splices _ =>
    mk sql first last splices (if children.isEmpty then none else some children)

def directives (l : Line) : List Directive := l.splices.filterMap Splice.directive?

def groups (l : Line) : List (List Line) := l.splices.filterMap Splice.lines?

/-- A line without text and without splices. -/
def isBlank (l : Line) : Bool := isBlankText l.sql && l.splices.isEmpty

/-- The column that a leading space or tabulator leads to. Tabulators stop at every fourth one. -/
def advanceColumn (column : Nat) (c : Char) : Nat :=
  if c = '\t' then (column / 4 + 1) * 4 else column + 1

/-- The column where the text of a line begins. -/
def indent (l : Line) : Nat :=
  (l.sql.takeWhile fun c => c == ' ' || c == '\t').foldl advanceColumn 0

/-- Whether the first character of a line that is no blank is a closing parenthesis. -/
def startsWithClosing (l : Line) : Bool := (stripStart l.sql).head? == some ')'

@[simp] theorem sql_withChildren (children : List Line) (l : Line) :
    (l.withChildren children).sql = l.sql := by cases l; rfl

@[simp] theorem splices_withChildren (children : List Line) (l : Line) :
    (l.withChildren children).splices = l.splices := by cases l; rfl

@[simp] theorem children_mk_none (sql : Text) (first last : Nat) (splices : List Splice) :
    (mk sql first last splices none).children = [] := rfl

@[simp] theorem children_mk_some (sql : Text) (first last : Nat) (splices : List Splice)
    (children : List Line) : (mk sql first last splices (some children)).children = children := rfl

@[simp] theorem children_withChildren (children : List Line) (l : Line) :
    (l.withChildren children).children = children := by
  cases l
  cases children <;> rfl

/-- A block that is made of lines holds at least one. -/
theorem block?_withChildren_ne (children : List Line) (l : Line) :
    (l.withChildren children).block? ≠ some [] := by
  cases l
  cases children <;> exact fun h => by cases h

theorem isSome_block?_iff {l : Line} (h : l.block? ≠ some []) :
    l.block?.isSome ↔ l.children ≠ [] := by
  unfold children
  rcases hblock : l.block? with _ | (_ | ⟨k, ks⟩)
  · simp
  · exact absurd hblock h
  · simp

theorem children_of_block? {l : Line} (h : l.block? = none) : l.children = [] := by
  rw [children, h]
  rfl

theorem isBlank_withChildren (children : List Line) (l : Line) :
    (l.withChildren children).isBlank = l.isBlank := by cases l; rfl

theorem withChildren_nil {l : Line} (h : l.block? = none) : l.withChildren [] = l := by
  cases l with
  | mk sql first last splices block =>
    obtain rfl : block = none := h
    rfl

end Line

end SqlTemplate
