import SqlTemplate.Text.Escaped

/-!
# Functions and their names

Directives invoke functions by name. `Function` lists what a function can do and `Registry` binds
names to functions: one function may have several names, and a registry may leave functions out or
bind names of its own. Looking a name up is the view of a registry; `find?_bind` says what binding a
name changes.
-/

namespace SqlTemplate

/-- What a function can do with the contributions that it is applied to. -/
inductive Function where
  /-- Joins texts and values into one value. -/
  | concat
  /-- Escapes the wildcards of patterns in values. -/
  | escapeLike
  /-- Escapes and joins into one pattern with an escape clause. -/
  | like
  /-- Leaves out null values. -/
  | compact
  /-- Drops the line unless a condition is present. -/
  | ifPresent
  /-- Drops the output of the directive unless a condition is present. -/
  | ifOutput
  /-- Joins texts and values into text of the statement. -/
  | sql
deriving DecidableEq, Repr

/-- Whether a text does not come after another one in alphabetical order, in which the first
characters that differ decide and a text comes before its continuations. -/
def notAfter : Text → Text → Bool
  | [], _ => true
  | _ :: _, [] => false
  | c :: s, d :: t => if c = d then notAfter s t else c.toNat < d.toNat

/-- Names bound to functions, each name once. -/
structure Registry where
  entries : List (Text × Function)
deriving DecidableEq, Repr

namespace Registry

def empty : Registry := ⟨[]⟩

def find? (r : Registry) (name : Text) : Option Function :=
  (r.entries.find? fun (n, _) => n == name).map (·.2)

def contains (r : Registry) (name : Text) : Bool := (r.find? name).isSome

/-- Binds a name to a function, in place of what it was bound to. -/
def bind (r : Registry) (name : Text) (f : Function) : Registry :=
  ⟨r.entries.filter (fun (n, _) => n != name) ++ [(name, f)]⟩

def size (r : Registry) : Nat := r.entries.length

/-- The bound names in alphabetical order. -/
def names (r : Registry) : List Text := (r.entries.map (·.1)).mergeSort notAfter

/-- The names that every template may use. -/
def standard : Registry :=
  ⟨[("CONCAT".toList, .concat), ("C".toList, .concat), ("ESCLIKE".toList, .escapeLike),
    ("L".toList, .like), ("COMPACT".toList, .compact), ("IF".toList, .ifPresent),
    ("IFLN".toList, .ifOutput), ("SQL".toList, .sql)]⟩

/-- A name looked up after binding one. -/
theorem find?_bind (r : Registry) (name other : Text) (f : Function) :
    (r.bind name f).find? other = if other = name then some f else r.find? other := by
  have key : (r.entries.filter fun (n, _) => n != name).find? (fun (n, _) => n == other) =
      if other = name then none else r.entries.find? fun (n, _) => n == other := by
    rw [List.find?_filter]
    split
    · rename_i h
      subst h
      simp [List.find?_eq_none]
    · rename_i h
      congr 1
      funext a
      by_cases ha : a.1 = other
      · simp [ha, h]
      · simp [ha]
  simp only [find?, bind, List.find?_append, key]
  split
  · rename_i h
    simp [h]
  · rename_i h
    have hne : (name == other) = false := by simpa using fun e => h e.symm
    simp [hne]

end Registry

end SqlTemplate
