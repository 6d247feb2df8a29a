import SqlTemplate.Rendering.Marks
import SqlTemplate.Value.Basic

/-!
# Contributions

A term of a directive contributes values to bind, a text to stand for them, and a say in what
becomes of the line. `merge` puts the contributions of a chain together: values one after the other,
texts with a space between as soon as one of them has a text of its own, and a line that is kept
only if every contribution keeps it. A chain without contributions keeps the line and the sample
value.
-/

namespace SqlTemplate

/-- What terms of a directive contribute. -/
structure Contribution where
  /-- The values to bind, in the order of their marks. -/
  values : List Value
  /-- The text that replaces the marks. -/
  replacement : Option Text
  /-- Whether the line is kept. -/
  keepsLine : Bool
  /-- Whether the output of the directive is removed and the line kept all the same. -/
  disposed : Bool
  /-- Whether the sample value stays as it is. -/
  keepsSample : Bool
deriving Repr

namespace Contribution

def ofValues (values : List Value) : Contribution := ⟨values, none, true, false, false⟩

def ofText (t : Text) : Contribution := ⟨[], some t, true, false, false⟩

/-- The line is dropped, or only the output if it is disposed. -/
def drop (disposed : Bool) : Contribution := ⟨[], none, false, disposed, false⟩

/-- The line and the sample value are kept. -/
def keep : Contribution := ⟨[], none, true, false, true⟩

/-- The text of a contribution among others. -/
def text (c : Contribution) : Text := c.replacement.getD (Marks.list c.values.length)

/-- The replacement of a chain: none if no contribution has one. -/
def mergedReplacement (chain : List Contribution) : Option Text :=
  if chain.any fun c => c.replacement.isSome then
    some (List.intercalate [' '] ((chain.map text).filter fun t => !t.isEmpty))
  else none

theorem mergedReplacement_eq_none_iff {chain : List Contribution} :
    mergedReplacement chain = none ↔ ∀ c ∈ chain, c.replacement = none := by
  rw [mergedReplacement, ite_eq_right_iff]
  constructor
  · intro h c hc
    by_cases hsome : c.replacement.isSome = true
    · cases h (List.any_eq_true.2 ⟨c, hc, hsome⟩)
    · simpa using hsome
  · intro h hany
    obtain ⟨c, hc, hsome⟩ := List.any_eq_true.1 hany
    simp [h c hc] at hsome

/-- The contribution of a chain. -/
def merge : List Contribution → Contribution
  | [] => keep
  | [c] => c
  | chain =>
    { values := chain.flatMap values
      replacement := mergedReplacement chain
      keepsLine := chain.all keepsLine
      disposed := chain.any disposed
      keepsSample := chain.all keepsSample }

/-- Whether a contribution keeps the line and the sample value and does nothing else. -/
def isKeep (c : Contribution) : Bool :=
  c.values.isEmpty && c.replacement.isNone && c.keepsLine && !c.disposed && c.keepsSample

@[simp] theorem merge_nil : merge [] = keep := rfl

@[simp] theorem merge_singleton (c : Contribution) : merge [c] = c := rfl

theorem values_merge (chain : List Contribution) :
    (merge chain).values = chain.flatMap values := by
  match chain with
  | [] => rfl
  | [c] => simp
  | _ :: _ :: _ => rfl

theorem keepsLine_merge (chain : List Contribution) :
    (merge chain).keepsLine = chain.all keepsLine := by
  match chain with
  | [] => rfl
  | [c] => simp
  | _ :: _ :: _ => rfl

theorem disposed_merge (chain : List Contribution) :
    (merge chain).disposed = chain.any disposed := by
  match chain with
  | [] => rfl
  | [c] => simp
  | _ :: _ :: _ => rfl

theorem keepsSample_merge (chain : List Contribution) :
    (merge chain).keepsSample = chain.all keepsSample := by
  match chain with
  | [] => rfl
  | [c] => simp
  | _ :: _ :: _ => rfl

theorem replacement_merge_eq_none_iff {chain : List Contribution} :
    (merge chain).replacement = none ↔ ∀ c ∈ chain, c.replacement = none := by
  match chain with
  | [] => simp [keep]
  | [c] => simp
  | _ :: _ :: _ => exact mergedReplacement_eq_none_iff

end Contribution

end SqlTemplate
