import SqlTemplate.Line.Basic

/-!
# Nesting by indentation

A flat list of lines becomes a forest: a line belongs to the last line before it that stands further
to the left. `depths` gives every line the depth that counts, which is its indent, except that a
line that begins with a closing parenthesis never stands further to the left than the line before
it. `nest` builds the forest from the right: `place` puts a line in front of the lines already
nested and takes along those of them that stand further to the right, up to the first one that does
not.
-/

namespace SqlTemplate

namespace Line

/-- The lines with the depth that counts for nesting, after a line of depth `before`. -/
def depths (before : Nat) : List Line → List (Nat × Line)
  | [] => []
  | l :: ls =>
    let depth := if l.startsWithClosing then max l.indent before else l.indent
    (depth, l) :: depths depth ls

/-- Puts a line in front of nested lines. -/
def place (depth : Nat) (l : Line) (nested : List (Nat × Line)) : List (Nat × Line) :=
  let deeper := nested.takeWhile fun (d, _) => depth < d
  let others := nested.dropWhile fun (d, _) => depth < d
  (depth, l.withChildren (deeper.map (·.2))) :: others

def nestDepths (lines : List (Nat × Line)) : List (Nat × Line) :=
  lines.foldr (fun (depth, l) nested => place depth l nested) []

/-- The lines nested by their indentation. Blank lines are left out. -/
def nest (lines : List Line) : List Line :=
  (nestDepths (depths 0 (lines.filter fun l => !l.isBlank))).map (·.2)

@[simp] theorem depths_nil (before : Nat) : depths before [] = [] := rfl

@[simp] theorem nestDepths_nil : nestDepths [] = [] := rfl

@[simp] theorem nestDepths_cons (depth : Nat) (l : Line) (lines : List (Nat × Line)) :
    nestDepths ((depth, l) :: lines) = place depth l (nestDepths lines) := rfl

@[simp] theorem nest_nil : nest [] = [] := rfl

/-- Depths are given to the lines in their order. -/
theorem map_snd_depths (before : Nat) (lines : List Line) :
    (depths before lines).map (·.2) = lines := by
  induction lines generalizing before with
  | nil => rfl
  | cons l ls ih => simp [depths, ih]

end Line

end SqlTemplate
