import SqlTemplate.Source.Pattern

/-!
# Cursors

A cursor is a place in a text. It remembers one earlier place, the last pattern that it met, whether
it met the end of the text, and the number of the line it stands on. The line number is kept up to
date by every move: it grows by the line ends that the cursor passes and shrinks by those it goes
back over.
-/

namespace SqlTemplate

/-- A pattern met in a text, and where. -/
structure Found where
  start : Nat
  taken : Taken
deriving DecidableEq, Repr

namespace Found

def stop (f : Found) : Nat := f.start + f.taken.text.length

end Found

/-- A place in a text. -/
structure Cursor where
  text : Text
  pos : Nat
  mark : Nat
  line : Int
  found : Option Found
  exhausted : Bool
deriving DecidableEq, Repr

namespace Cursor

/-- The cursor at the start of a text. -/
def ofText (text : Text) : Cursor := ⟨text, 0, 0, 1, none, false⟩

def rest (c : Cursor) : Text := c.text.drop c.pos

def between (c : Cursor) (start stop : Nat) : Text := (c.text.take stop).drop start

/-- The cursor moved forward to a place. -/
def moveTo (c : Cursor) (pos : Nat) : Cursor :=
  { c with pos := pos, line := c.line + lineEnds (c.between c.pos pos) }

/-- Moves the cursor behind a pattern that it met. -/
def meet (c : Cursor) (start : Nat) (taken : Taken) : Cursor :=
  let found : Found := ⟨start, taken⟩
  { c.moveTo found.stop with found := some found }

/-- Looks for a pattern from the cursor on and moves behind it. A pattern that is empty at the end
of the text exhausts the cursor, which then finds nothing more until it goes back. -/
def find (c : Cursor) (p : Pattern) : Cursor × Option Found :=
  if c.exhausted then (c, none)
  else
    match p.search? c.rest with
    | none => (c, none)
    | some (skipped, taken) =>
      let moved := c.meet (c.pos + skipped) taken
      let atEnd := moved.pos == c.text.length && taken.text.isEmpty
      ({ moved with exhausted := atEnd }, moved.found)

/-- Moves behind a pattern that begins at the cursor. -/
def consume (c : Cursor) (p : Pattern) : Cursor × Option Found :=
  match p.take? c.rest with
  | none => (c, none)
  | some taken =>
    let moved := c.meet c.pos taken
    (moved, moved.found)

/-- Moves forward by a count of characters, or to the end of the text. Returns what it passed. -/
def advance (c : Cursor) (count : Nat) : Cursor × Text :=
  let pos := min (c.pos + count) c.text.length
  (c.moveTo pos, c.between c.pos pos)

/-- Moves back by a count of characters, or to the start of the text. -/
def back (c : Cursor) (count : Nat) : Cursor :=
  let pos := c.pos - count
  { c with pos := pos, line := c.line - lineEnds (c.between pos c.pos), exhausted := false }

def remember (c : Cursor) : Cursor := { c with mark := c.pos }

/-- The text between the remembered place and the start of the last pattern met; the place of the
cursor is remembered instead. -/
def takeRemembered (c : Cursor) : Cursor × Text :=
  let start := (c.found.map Found.start).getD c.pos
  (c.remember, c.between c.mark (max start c.mark))

def peek (c : Cursor) (count : Nat) : Text := c.rest.take count

def isEnd (c : Cursor) : Bool := c.exhausted || c.text.length ≤ c.pos

@[simp] theorem text_moveTo (c : Cursor) (pos : Nat) : (c.moveTo pos).text = c.text := rfl

@[simp] theorem pos_moveTo (c : Cursor) (pos : Nat) : (c.moveTo pos).pos = pos := rfl

@[simp] theorem remember_mark (c : Cursor) : c.remember.mark = c.pos := rfl

/-- A pattern that is not found leaves the cursor as it is. -/
theorem find_eq_self_of_none {c : Cursor} {p : Pattern} (h : (c.find p).2 = none) :
    (c.find p).1 = c := by
  unfold find at h ⊢
  split
  · rfl
  · split
    · rfl
    · simp_all [meet]

theorem consume_eq_self_of_none {c : Cursor} {p : Pattern} (h : (c.consume p).2 = none) :
    (c.consume p).1 = c := by
  unfold consume at h ⊢
  split
  · rfl
  · simp_all [meet]

end Cursor

end SqlTemplate
