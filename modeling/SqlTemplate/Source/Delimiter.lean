import SqlTemplate.Text.LineEnd
import SqlTemplate.Text.Quoted

/-!
# Delimiters

The only parts of a template text that mean something to the reader of templates are comments,
quotes, parentheses and line ends. `Delimiter.take?` recognises the delimiter that a text begins
with; everything between two delimiters is plain text.
-/

namespace SqlTemplate

/-- What interrupts the plain text of a template. -/
inductive Delimiter where
  | commentOpen
  | commentClose
  | dashes
  | quote (q : Quote)
  | opening
  | closing
  | lineEnd (e : LineEnd)
deriving DecidableEq, Repr

namespace Delimiter

def chars : Delimiter → Text
  | commentOpen => ['/', '*']
  | commentClose => ['*', '/']
  | dashes => ['-', '-']
  | quote q => [q.char]
  | opening => ['(']
  | closing => [')']
  | lineEnd e => e.chars

/-- The delimiter that a text begins with, and what follows it. -/
def take? : Text → Option (Delimiter × Text)
  | '/' :: '*' :: t => some (commentOpen, t)
  | '*' :: '/' :: t => some (commentClose, t)
  | '-' :: '-' :: t => some (dashes, t)
  | '\'' :: t => some (quote .single, t)
  | '"' :: t => some (quote .double, t)
  | '(' :: t => some (opening, t)
  | ')' :: t => some (closing, t)
  | '\r' :: '\n' :: t => some (lineEnd .crlf, t)
  | '\r' :: t => some (lineEnd .cr, t)
  | '\n' :: t => some (lineEnd .lf, t)
  | _ => none

@[simp] theorem take?_nil : take? [] = none := rfl

/-- A delimiter taken from a text is its beginning. -/
theorem chars_append_of_take? {t r : Text} {d : Delimiter} (h : take? t = some (d, r)) :
    t = d.chars ++ r := by
  unfold take? at h
  split at h <;> simp only [Option.some.injEq, Prod.mk.injEq, reduceCtorEq] at h
  all_goals (obtain ⟨rfl, rfl⟩ := h; rfl)

theorem chars_ne_nil (d : Delimiter) : d.chars ≠ [] := by
  cases d with
  | lineEnd e => cases e <;> simp [chars, LineEnd.chars]
  | _ => simp [chars]

end Delimiter

end SqlTemplate
