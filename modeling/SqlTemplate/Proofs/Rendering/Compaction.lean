import Mathlib.Data.List.Basic
import SqlTemplate.Proofs.Rendering.MarkCount

/-!
# Leaving out null values

A contribution is aligned if its text holds a mark for each of its values, and so is a chain of
aligned ones. But null values are left out of a chain after it is merged, and a text that it has by
then was written for all of its values: it keeps a mark for each value that is left out
(`count_text_compact`). So only a chain without texts stays aligned whatever its values are
(`apply_compact_aligned_iff`).
-/

namespace SqlTemplate

namespace Contribution

variable {c : Contribution} {chain : List Contribution}

/-- A contribution whose text holds a mark for each of its values. -/
def Aligned (c : Contribution) : Prop := c.text.count Marks.mark = c.values.length

instance (c : Contribution) : Decidable c.Aligned := inferInstanceAs (Decidable (_ = _))

/-- The marks of a contribution that has no text of its own are written for its values. -/
theorem aligned_of_replacement_eq_none (h : c.replacement = none) : c.Aligned := by
  rw [Aligned, text, h]
  exact Marks.count_list _

/-! ### Merging -/

theorem sum_count_text (h : ∀ c ∈ chain, c.Aligned) :
    (chain.map fun c => c.text.count Marks.mark).sum = (merge chain).values.length := by
  rw [values_merge, List.length_flatMap]
  congr 1
  exact List.map_congr_left h

theorem count_text_merge (chain : List Contribution) :
    (merge chain).text.count Marks.mark = (chain.map fun c => c.text.count Marks.mark).sum := by
  match chain with
  | [] => rfl
  | [c] => simp
  | c :: d :: rest =>
    cases hmerged : mergedReplacement (c :: d :: rest) with
    | none =>
      have haligned : ∀ x ∈ c :: d :: rest, x.Aligned := fun x hx =>
        aligned_of_replacement_eq_none (mergedReplacement_eq_none_iff.1 hmerged x hx)
      rw [sum_count_text haligned]
      exact aligned_of_replacement_eq_none hmerged
    | some t =>
      have htext : (merge (c :: d :: rest)).text = t := congrArg (Option.getD · _) hmerged
      rw [htext, count_of_mergedReplacement hmerged]

theorem aligned_merge (h : ∀ c ∈ chain, c.Aligned) : (merge chain).Aligned :=
  (count_text_merge chain).trans (sum_count_text h)

/-- What aligned contributions are merged behind is aligned if the whole is. -/
theorem aligned_merge_cons_iff (h : ∀ d ∈ chain, d.Aligned) :
    (merge (c :: chain)).Aligned ↔ c.Aligned := by
  have hchain := sum_count_text h
  rw [values_merge] at hchain
  rw [Aligned, count_text_merge, values_merge, List.map_cons, List.sum_cons, List.flatMap_cons,
    List.length_append, hchain]
  exact Nat.add_right_cancel_iff

/-! ### Null values -/

/-- The text of a chain keeps a mark for each value that is left out. -/
theorem count_text_compact (h : ∀ c ∈ chain, c.Aligned) :
    (compact chain).text.count Marks.mark = (compact chain).values.length +
      if (merge chain).replacement = none then 0 else (merge chain).values.countP Value.isNull := by
  cases hreplacement : (merge chain).replacement with
  | none =>
    rw [if_pos rfl]
    exact aligned_of_replacement_eq_none hreplacement
  | some t =>
    have htext : (compact chain).text = (merge chain).text := by
      rw [text, text, hreplacement]
      exact congrArg (Option.getD · _) hreplacement
    have hvalues := List.length_eq_length_filter_add (l := (merge chain).values) Value.isNull
    rw [htext, aligned_merge h, hvalues, if_neg (Option.some_ne_none t),
      List.countP_eq_length_filter, Nat.add_comm]
    rfl

theorem aligned_compact_iff (h : ∀ c ∈ chain, c.Aligned) :
    (compact chain).Aligned ↔ (∀ c ∈ chain, c.replacement = none) ∨
      ∀ c ∈ chain, ∀ v ∈ c.values, v.isNull = false := by
  rw [Aligned, count_text_compact h, Nat.add_eq_left, ← replacement_merge_eq_none_iff]
  have hnull : (merge chain).values.countP Value.isNull = 0 ↔
      ∀ c ∈ chain, ∀ v ∈ c.values, v.isNull = false := by
    rw [values_merge, List.countP_eq_zero]
    simp only [List.mem_flatMap, forall_exists_index, and_imp, Bool.not_eq_true]
    exact ⟨fun h c hc v hv => h v c hc hv, fun h v c hc hv => h c hc v hv⟩
  rw [← hnull]
  split
  · rename_i hnone
    exact iff_of_true rfl (.inl hnone)
  · rename_i hsome
    exact (or_iff_right hsome).symm

end Contribution

namespace Function

open Contribution

variable {inside : Option (List Contribution)} {chain : List Contribution}

/-- Leaving null values out of aligned contributions, with what stands in parentheses or without,
leaves an aligned one if none of those that it is applied to has a text of its own, or none a null
value. -/
theorem apply_compact_aligned_iff [Runtime] (n : Negatives) (negated : Bool)
    (hinside : ∀ c ∈ inside.getD [], c.Aligned) (hchain : ∀ c ∈ chain, c.Aligned) :
    ∃ c, compact.apply n negated inside chain = .ok c ∧
      (c.Aligned ↔ (∀ d ∈ inside.getD chain, d.replacement = none) ∨
        ∀ d ∈ inside.getD chain, ∀ v ∈ d.values, v.isNull = false) := by
  cases inside with
  | none => exact ⟨_, rfl, aligned_compact_iff hchain⟩
  | some cs => exact ⟨_, rfl, (aligned_merge_cons_iff hchain).trans (aligned_compact_iff hinside)⟩

/-- Two contributions with a text and without null values, in front of a null value. -/
theorem apply_compact_aligned_iff_nullBehind :
    let inside := [{ ofValues [.int 1] with replacement := some "a = ?".toList }, ofValues [.int 2]]
    let chain := [ofValues [.null]]
    (∀ c ∈ (some inside).getD [], c.Aligned) ∧ (∀ c ∈ chain, c.Aligned) ∧
      (∀ c ∈ inside, ∀ v ∈ c.values, v.isNull = false) ∧
      ∃ c, compact.apply .none false (some inside) chain = .ok c ∧ c.Aligned := by
  intro inside chain
  have hinside : ∀ c ∈ (some inside).getD [], c.Aligned := by decide
  have hchain : ∀ c ∈ chain, c.Aligned := by decide
  have hvalues : ∀ c ∈ inside, ∀ v ∈ c.values, v.isNull = false := by decide
  obtain ⟨c, hc, haligned⟩ := apply_compact_aligned_iff .none false hinside hchain
  exact ⟨hinside, hchain, hvalues, c, hc, haligned.2 (.inr hvalues)⟩

/-- A null value behind a text is left out, but its mark is not. -/
theorem apply_compact_nullBesideText :
    let chain := [ofText "b,".toList, ofValues [.null, .int 1]]
    let left : Contribution := { ofValues [.int 1] with replacement := some "b, ?, ?".toList }
    (∀ c ∈ chain, c.Aligned) ∧ compact.apply .none false none chain = .ok left ∧
      ¬ left.Aligned := by
  intro chain left
  exact ⟨by decide, rfl, by decide⟩

end Function

end SqlTemplate
