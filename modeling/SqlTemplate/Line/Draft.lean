import SqlTemplate.Directive.Expression
import SqlTemplate.Line.Comparison

/-!
# Lines being read

A draft is a line that is still being read. Its text is kept last character first, because
everything that happens to it happens at its end: text is written, a directive takes the mark or the
comparison that the text ends with, and a parenthesised span that stands on one line is merged into
it. What lies before the last splice is never taken back.
-/

namespace SqlTemplate

/-- A line that is still being read, its text last character first. -/
structure Draft where
  reversed : Text
  splices : List Splice
  first : Nat

namespace Draft

/-- The empty draft on a line of the source. -/
def start (line : Nat) : Draft := ⟨[], [], line⟩

/-- The offset where the next splice goes. -/
def offset (d : Draft) : Nat := d.reversed.length

/-- The offset of the last splice; the text before it stays as it is. -/
def settled (d : Draft) : Nat := (d.splices.getLast?.map Splice.offset).getD 0

def write (t : Text) (d : Draft) : Draft := { d with reversed := t.reverse ++ d.reversed }

def splice (make : Nat → Splice) (d : Draft) : Draft :=
  { d with splices := d.splices ++ [make d.offset] }

/-- Takes a piece off the end, unless it reaches into what is settled. -/
def take? {α : Type} (ending : Option (Ending α)) (d : Draft) : Option (α × Draft) :=
  match ending with
  | none => none
  | some e =>
    if d.settled ≤ e.before.length then some (e.piece, { d with reversed := e.before }) else none

/-- Takes the mark that the text ends with; it is the sample of a directive in a line comment. -/
def takeMark (d : Draft) : Option Text × Draft :=
  match d.take? (Ending.mark? d.reversed) with
  | some (mark, d) => (some mark, d)
  | none => (none, d)

/-- Takes the comparison that the text ends with. -/
def takeComparison (d : Draft) : Option Comparison × Draft :=
  match d.take? (Ending.comparison? d.reversed) with
  | some (comparison, d) => (some comparison, d)
  | none => (none, d)

/-- Adds a directive that was compiled from its source. A condition with a sample takes the
comparison in front of it. -/
def addCompiled (line : Nat) (source : Text) (expression : Expression) (sample : Option Text)
    (d : Draft) : Draft :=
  let (comparison, d) :=
    if expression.isCondition && sample.isSome then d.takeComparison else (none, d)
  d.splice fun offset => .directive offset ⟨source, expression, sample, comparison, some line⟩

/-- Adds a directive from a block comment, with the sample behind it. -/
def addBlock (registry : Registry) (line : Nat) (source : Text) (sample : Option Text) (d : Draft) :
    Except Problem Draft :=
  match Expression.compile registry source with
  | .ok expression => .ok (d.addCompiled line source expression sample)
  | .error problem => .error problem

/-- Adds a directive from a line comment. -/
def addLine (registry : Registry) (line : Nat) (source : Text) (d : Draft) : Except Problem Draft :=
  match Expression.compile registry source with
  | .ok expression =>
    let (sample, d) := d.takeMark
    .ok (d.addCompiled line source expression sample)
  | .error problem => .error problem

/-- Merges the line of a parenthesised span, between its parentheses. -/
def merge (l : Line) (d : Draft) : Draft :=
  let opened := d.write ['(']
  let inner := l.splices.map (Splice.shift opened.offset)
  ({ opened with splices := opened.splices ++ inner }.write l.sql).write [')']

/-- Splices the lines of a parenthesised span in, between its parentheses. -/
def addGroup (lines : List Line) (d : Draft) : Draft :=
  ((d.write ['(']).splice fun offset => .group offset lines).write [')']

def finish (last : Nat) (d : Draft) : Line := .mk d.reversed.reverse d.first last d.splices none

@[simp] theorem reversed_write (t : Text) (d : Draft) :
    (d.write t).reversed = t.reverse ++ d.reversed := rfl

@[simp] theorem splices_write (t : Text) (d : Draft) : (d.write t).splices = d.splices := rfl

@[simp] theorem offset_write (t : Text) (d : Draft) :
    (d.write t).offset = d.offset + t.length := by
  simp [offset, Nat.add_comm]

@[simp] theorem sql_finish (last : Nat) (d : Draft) :
    (d.finish last).sql = d.reversed.reverse := rfl

@[simp] theorem splices_finish (last : Nat) (d : Draft) : (d.finish last).splices = d.splices := rfl

end Draft

end SqlTemplate
