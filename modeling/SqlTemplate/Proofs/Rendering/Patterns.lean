import Mathlib.Data.List.Basic
import SqlTemplate.Proofs.Rendering.Application

/-!
# Patterns

A pattern is a chain that is escaped and joined into one value. Escaping and joining one after the
other is not the same: the escaped chain is merged before it is joined. If some of its contributions
have a text and it is not that text alone, then the merged chain has one for all of them, in which
marks stand for values and spaces between the pieces, and it is this text that is joined
(`joinedText?_merge`). So both ways agree on a single contribution and on chains of mere values, and
on other chains only by chance (`values_concat_escapeLike`).
-/

namespace SqlTemplate

namespace Contribution

variable {c : Contribution} {chain : List Contribution}

theorem joinedText?_of_replacement_eq_none [Runtime] (n : Negatives) (h : c.replacement = none) :
    joinedText? n c =
      WideText.joined? Value.plain? (c.values.filter fun v => !n.isNegative v) := by
  rw [joinedText?, h]

/-- Values may be merged before they are joined. -/
theorem joinedText?_merge_of_replacement_eq_none [Runtime] (n : Negatives)
    (h : ∀ c ∈ chain, c.replacement = none) :
    joinedText? n (merge chain) = joinedTexts? n chain := by
  rw [joinedText?_of_replacement_eq_none n (replacement_merge_eq_none_iff.2 h), values_merge,
    List.filter_flatMap, WideText.joined?_flatMap, joinedTexts?]
  refine WideText.joined?_congr fun c hc => ?_
  exact (joinedText?_of_replacement_eq_none n (h c hc)).symm

/-- A merged chain is joined to what its contributions are joined to if it is short or has no texts,
and otherwise to its text. -/
theorem joinedText?_merge [Runtime] (n : Negatives) (chain : List Contribution) :
    joinedText? n (merge chain) =
      if chain.length ≤ 1 ∨ ∀ c ∈ chain, c.replacement = none then joinedTexts? n chain
      else some (.ofText (Block.join (chain.map text))) := by
  match chain with
  | [] => rfl
  | [c] => exact (WideText.joined?_singleton (joinedText? n) c).symm
  | c :: d :: rest =>
    split
    · rename_i h
      rcases h with hshort | hnone
      · simp at hshort
      · exact joinedText?_merge_of_replacement_eq_none n hnone
    · rename_i h
      have hany : ((c :: d :: rest).any fun x => x.replacement.isSome) = true := by
        by_contra hnot
        exact h (.inr (mergedReplacement_eq_none_iff.1 (if_neg hnot)))
      have hmerged : (merge (c :: d :: rest)).replacement =
          some (Block.join ((c :: d :: rest).map text)) := if_pos hany
      rw [joinedText?, hmerged]

/-! ### Escaping -/

@[simp] theorem replacement_escapeLike (c : Contribution) :
    c.escapeLike.replacement = c.replacement := rfl

@[simp] theorem text_escapeLike (c : Contribution) : c.escapeLike.text = c.text := by
  rw [text, text]
  exact congrArg (fun k => c.replacement.getD (Marks.list k)) (List.length_map _)

/-- What is bound for a chain that is escaped, merged and joined. -/
theorem map_values_concat_merge_escapeLike [Runtime] (n : Negatives) (chain : List Contribution) :
    (concat n [merge (chain.map escapeLike)]).map values =
      if chain.length ≤ 1 ∨ ∀ c ∈ chain, c.replacement = none then (like n chain).map values
      else .ok [.text (.ofText (Block.join (chain.map text)))] := by
  have htexts : (chain.map escapeLike).map text = chain.map text := by simp
  have hmerge := joinedText?_merge n (chain.map escapeLike)
  simp only [List.length_map, List.forall_mem_map, replacement_escapeLike, htexts] at hmerge
  have hjoined : joinedTexts? n [merge (chain.map escapeLike)] =
      joinedText? n (merge (chain.map escapeLike)) :=
    WideText.joined?_singleton (joinedText? n) _
  rw [map_values_concat, map_values_like, hjoined, hmerge]
  split
  · rfl
  · rfl

end Contribution

namespace Function

open Contribution

/-- Escaping and joining one after the other binds the pattern of the chain if the chain is short or
has no texts, and otherwise the text written for the chain. Where a value cannot be written there is
nothing to bind in the one case and still the text of the chain in the other. -/
theorem values_concat_escapeLike [Runtime] (n : Negatives) (chain : List Contribution) :
    ∃ escaped joined pattern, escapeLike.transform? n chain = some (.ok escaped) ∧
      concat.transform? n [escaped] = some joined ∧ like.transform? n chain = some pattern ∧
      joined.map values =
        (if chain.length ≤ 1 ∨ ∀ c ∈ chain, c.replacement = none then pattern.map values
        else .ok [.text (.ofText (Block.join (chain.map text)))]) ∧
      (joined.map values = pattern.map values ↔
        chain.length ≤ 1 ∨ (∀ c ∈ chain, c.replacement = none) ∨
          pattern.map values = .ok [.text (.ofText (Block.join (chain.map text)))]) := by
  have hvalues : (Contribution.concat n [merge (chain.map .escapeLike)]).map values =
      if chain.length ≤ 1 ∨ ∀ c ∈ chain, c.replacement = none then
        (Contribution.like n chain).map values
      else .ok [.text (.ofText (Block.join (chain.map text)))] :=
    map_values_concat_merge_escapeLike n chain
  refine ⟨_, _, _, rfl, rfl, rfl, hvalues, ?_⟩
  rw [hvalues, ← or_assoc]
  split
  · rename_i h
    exact iff_of_true rfl (.inl h)
  · rename_i h
    rw [or_iff_right h]
    exact eq_comm

/-- A value between two literals: the pattern holds the value, escaped, but the text written for the
chain holds a mark for it. -/
theorem values_concat_escapeLike_valueBetween :
    let chain := [ofText ['%'], ofValues [.text (.ofText "10%".toList)], ofText ['%']]
    ∃ escaped joined pattern, escapeLike.transform? .none chain = some (.ok escaped) ∧
      concat.transform? .none [escaped] = some (.ok joined) ∧
      like.transform? .none chain = some (.ok pattern) ∧
      joined.values = [.text (.ofText "% ? %".toList)] ∧
      pattern.values = [.text (.ofText "%10#%%".toList)] ∧ joined.values ≠ pattern.values := by
  refine ⟨_, _, _, rfl, rfl, rfl, rfl, rfl, ?_⟩
  intro h
  have hvalues : [Value.text (.ofText "% ? %".toList)] = [.text (.ofText "%10#%%".toList)] := h
  have htexts := Value.text.inj (List.cons.inj hvalues).1
  exact absurd htexts (by decide)

end Function

end SqlTemplate
