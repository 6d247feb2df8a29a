import SqlTemplate.Line.Draft
import SqlTemplate.Line.Nesting
import SqlTemplate.Source.Lexeme
import SqlTemplate.Template.Flaw

/-!
# Reading templates

The lexemes of a text are read from left to right. `Reader` is the state in between: the line of the
source, the span that is being read, and the spans around it, the innermost one first. Outside of
any parenthesis the span is the whole template. A span collects flat lines; when its parenthesis is
closed, a span of one line is merged into the line around it and a longer one becomes a group, whose
lines are nested by their own indentation. The first flaw that is met ends the reading.
-/

namespace SqlTemplate

/-- A span of a text that is being read: the line where it was opened, its finished lines, the last
one first, and the line that is being read. -/
structure Span where
  openedAt : Nat
  finished : List Line
  draft : Draft

namespace Span

/-- The span that is opened on a line. -/
def start (line : Nat) : Span := ⟨line, [], Draft.start line⟩

/-- Finishes the line that is being read and goes on with the next one. -/
def nextLine (last next : Nat) (s : Span) : Span :=
  { s with finished := s.draft.finish last :: s.finished, draft := Draft.start next }

/-- The lines of a span that ends on the given line. -/
def lines (last : Nat) (s : Span) : List Line := (s.draft.finish last :: s.finished).reverse

/-- Changes the line that is being read. -/
def edit (f : Draft → Draft) (s : Span) : Span := { s with draft := f s.draft }

/-- Puts the lines of an inner span into the line that is being read. -/
def enclose (lines : List Line) (s : Span) : Span :=
  match lines with
  | [l] => s.edit (Draft.merge l)
  | _ => s.edit (Draft.addGroup (Line.nest lines))

end Span

/-- The state of reading a template. -/
structure Reader where
  line : Nat
  inner : Span
  outer : List Span

namespace Reader

def start : Reader := ⟨1, Span.start 1, []⟩

/-- Writes text at the end of the line that is being read. -/
def write (t : Text) (r : Reader) : Reader := { r with inner := r.inner.edit (Draft.write t) }

/-- Changes the line that is being read by adding a directive to it. -/
def addDirective (source : Text) (add : Draft → Except Problem Draft) (r : Reader) :
    Except Misfit Reader :=
  match add r.inner.draft with
  | .ok draft => .ok { r with inner := { r.inner with draft := draft } }
  | .error problem => .error ⟨.directive problem source, r.line, none⟩

/-- Reads a lexeme, the line number aside. -/
def readContent (registry : Registry) (r : Reader) : Lexeme → Except Misfit Reader
  | .plain c => .ok (r.write [c])
  | .quoted q body => .ok (r.write (q.char :: body))
  | .hint body => .ok (r.write (Lexeme.hint body).source)
  | .remark _ | .comment _ => .ok r
  | .lineEnd _ => .ok { r with inner := r.inner.nextLine r.line (r.line + 1) }
  | .opening => .ok { r with inner := Span.start r.line, outer := r.inner :: r.outer }
  | .closing =>
    match r.outer with
    | [] => .error ⟨.strayParenthesis, r.line, none⟩
    | s :: outer => .ok { r with inner := s.enclose (r.inner.lines r.line), outer := outer }
  | .lineDirective body =>
    let source := strip body
    r.addDirective source (Draft.addLine registry r.line source)
  | .blockDirective body sample =>
    let source := strip body
    r.addDirective source (Draft.addBlock registry r.line source sample)
  | .strayClose => .error ⟨.strayComment, r.line, none⟩
  | .openQuote q _ => .error ⟨.openQuote q, r.line, none⟩
  | .openComment rest =>
    .error ⟨.openComment, (Comment.openLines [r.line] r.line rest).headD r.line,
      some (r.line + lineEnds rest)⟩
  | .openSample body _ => .error ⟨.openParenthesis, r.line + lineEnds body, none⟩

def read (registry : Registry) (r : Reader) (l : Lexeme) : Except Misfit Reader :=
  match r.readContent registry l with
  | .ok next => .ok { next with line := r.line + lineEnds l.source }
  | .error misfit => .error misfit

/-- Reads lexemes up to the first flaw. -/
def readAll (registry : Registry) (r : Reader) : List Lexeme → Except Misfit Reader
  | [] => .ok r
  | l :: ls =>
    match r.read registry l with
    | .ok next => next.readAll registry ls
    | .error misfit => .error misfit

/-- The flat lines of the template at the end of its text, if every parenthesis is closed. -/
def finish (r : Reader) : Except Misfit (List Line) :=
  match r.outer with
  | [] => .ok (r.inner.lines r.line)
  | _ => .error ⟨.openParenthesis, r.inner.openedAt, some r.line⟩

theorem readAll_append (registry : Registry) (r : Reader) (ls ms : List Lexeme) :
    r.readAll registry (ls ++ ms) = (r.readAll registry ls >>= fun s => s.readAll registry ms) := by
  induction ls generalizing r with
  | nil => rfl
  | cons l ls ih =>
    simp only [List.cons_append, readAll]
    split
    · exact ih _
    · rfl

end Reader

/-- The flat lines of a template, in the order of its text. -/
def flatLines (registry : Registry) (text : Text) : Except Misfit (List Line) :=
  match Reader.start.readAll registry (lexemes text) with
  | .ok reader => reader.finish
  | .error misfit => .error misfit

/-- A template: its lines, nested by indentation, and the name that errors call it by. -/
structure Template where
  lines : List Line
  resource : Option Text

namespace Template

def parse (registry : Registry) (resource : Option Text) (text : Text) :
    Except FormatError Template :=
  match flatLines registry text with
  | .ok lines => .ok ⟨Line.nest lines, resource⟩
  | .error m => .error ⟨m.flaw, resource, some m.first, m.last⟩

/-- A template in one line: its name and how many lines it has at the top. -/
def summary (t : Template) : Text :=
  "Template(".toList ++ t.resource.getD "None".toList ++ ", lines=".toList ++
    Decimal.ofNat t.lines.length ++ [')']

end Template

end SqlTemplate
