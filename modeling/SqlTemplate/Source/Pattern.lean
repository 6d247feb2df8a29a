import SqlTemplate.Source.Sample

/-!
# Patterns

The patterns that a cursor looks for. `Pattern.take?` recognises a pattern where a text begins, and
`Pattern.search?` finds the first place of a text where it begins. A delimiter pattern is also found
at the very end of a text, where it takes nothing; the rest of a line is found everywhere.
-/

namespace SqlTemplate

/-- What a cursor looks for. -/
inductive Pattern where
  /-- A delimiter, or the end of the text. -/
  | delimiter
  /-- The opening or the closing of a block comment, or a line end. -/
  | commentDelimiter
  /-- The rest of a line with its line end, which is missing at the end of the text. -/
  | restOfLine
  /-- The rest of a quoted literal after its opening quote. -/
  | literal (q : Quote)
  /-- A line end. -/
  | lineEnd
  /-- A quoted or unquoted sample value. -/
  | sample
deriving DecidableEq, Repr

/-- A piece of text that a pattern took, with the parts that the pattern tells apart. -/
structure Taken where
  text : Text
  parts : List Text
deriving DecidableEq, Repr

namespace Pattern

/-- What a pattern takes where a text begins. -/
def take? (p : Pattern) (t : Text) : Option Taken :=
  match p with
  | delimiter =>
    match Delimiter.take? t with
    | some (d, _) => some ⟨d.chars, []⟩
    | none => if t.isEmpty then some ⟨[], []⟩ else none
  | commentDelimiter =>
    match Delimiter.take? t with
    | some (.commentOpen, _) => some ⟨['/', '*'], []⟩
    | some (.commentClose, _) => some ⟨['*', '/'], []⟩
    | some (.lineEnd e, _) => some ⟨e.chars, []⟩
    | _ => none
  | restOfLine =>
    let (line, rest) := SqlTemplate.restOfLine t
    let ending := ((LineEnd.take? rest).map fun (e, _) => e.chars).getD []
    some ⟨line ++ ending, [line, ending]⟩
  | literal q => (Quoted.closing? q.char t).map fun (body, _) => ⟨body, []⟩
  | lineEnd => (LineEnd.take? t).map fun (e, _) => ⟨e.chars, []⟩
  | sample => (Sample.simple? t).map fun (s, _) => ⟨s, []⟩

/-- The first place where a text has the pattern: how many characters stand before it, and what it
takes. -/
def search? (p : Pattern) : Text → Option (Nat × Taken)
  | [] => (p.take? []).map fun found => (0, found)
  | c :: t =>
    match p.take? (c :: t) with
    | some found => some (0, found)
    | none => (search? p t).map fun (skipped, found) => (skipped + 1, found)

end Pattern

end SqlTemplate
