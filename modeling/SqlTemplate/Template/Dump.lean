import SqlTemplate.Template.Basic

/-!
# Dumped templates

A dump shows how a template was read, one line for each of its lines: the lines of the source, the
text, and the sources of its directives in brackets. Parenthesised spans and nested lines follow,
further to the right.
-/

namespace SqlTemplate

namespace Line

/-- The lines of the source that a line stands on. -/
def extent (l : Line) : Text :=
  Decimal.ofNat l.first ++
    if l.last = l.first then [] else '-' :: Decimal.ofNat l.last

/-- A line without what belongs to it. -/
def caption (l : Line) : Text :=
  let sources := l.directives.map fun d => '[' :: (d.source ++ [']'])
  l.extent ++ ": ".toList ++ strip l.sql ++ ' ' :: List.intercalate [' '] sources

/-- The blanks in front of a dumped line. -/
def padding (depth : Nat) : Text := List.replicate (4 * depth) ' '

mutual

/-- A dumped line with everything that belongs to it. -/
def dump (depth : Nat) : Line → List Text
  | mk sql first last splices block =>
    let below :=
      match block with
      | none => []
      | some children => dumpAll (depth + 1) children
    stripEnd (padding depth ++ (mk sql first last splices block).caption) ::
      (dumpSplices depth splices ++ below)

def dumpSplices (depth : Nat) : List Splice → List Text
  | [] => []
  | .directive .. :: splices => dumpSplices depth splices
  | .group _ lines :: splices =>
    (padding depth ++ "  (".toList) :: dumpAll (depth + 1) lines ++
      (padding depth ++ "  )".toList) :: dumpSplices depth splices

def dumpAll (depth : Nat) : List Line → List Text
  | [] => []
  | l :: ls => dump depth l ++ dumpAll depth ls

end

end Line

def Template.dump (t : Template) : Text := List.intercalate ['\n'] (Line.dumpAll 0 t.lines)

end SqlTemplate
