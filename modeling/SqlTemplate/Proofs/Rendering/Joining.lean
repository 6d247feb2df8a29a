import SqlTemplate.Proofs.Text.Unspaced
import SqlTemplate.Rendering.Basic

/-!
# Joining texts

The texts of a block are joined with blanks only, so joining changes nothing but blanks. Where every
line has a text there is nothing to clean.
-/

namespace SqlTemplate

namespace Block

variable {lines : List Line} {texts : List Text}

/-- A text is joined to the following ones with a space or with nothing. -/
theorem exists_join_cons (t : Text) (ts : List Text) :
    ∃ gap, isBlankText gap = true ∧ join (t :: ts) = t ++ (gap ++ join ts) := by
  unfold join
  cases t with
  | nil => exact ⟨[], rfl, rfl⟩
  | cons c t =>
      rw [List.filter_cons_of_pos (by rfl)]
      cases ts.filter fun t => !t.isEmpty with
      | nil => exact ⟨[], rfl, by simp⟩
      | cons u us => exact ⟨[' '], by decide, by rw [List.intercalate_cons_cons, List.append_assoc]⟩

theorem filter_eq_nil_iff_all :
    (texts.filter fun t => !t.isEmpty) = [] ↔ texts.all List.isEmpty = true := by
  rw [List.filter_eq_nil_iff, List.all_eq_true]
  simp

theorem join_eq_nil (h : texts.all List.isEmpty = true) : join texts = [] := by
  rw [join, filter_eq_nil_iff_all.2 h]
  rfl

/-- A text is joined to others with a space if it is not empty and neither are they. -/
theorem join_cons (t : Text) (ts : List Text) :
    join (t :: ts) =
      if t = [] then join ts else if ts.all List.isEmpty then t else t ++ ' ' :: join ts := by
  cases t with
  | nil => rfl
  | cons c t =>
      rw [if_neg (List.cons_ne_nil _ _), join, List.filter_cons_of_pos (by rfl)]
      split
      · rename_i hts
        rw [filter_eq_nil_iff_all.2 hts]
        simp
      · rename_i hts
        obtain ⟨u, us, hleft⟩ := List.exists_cons_of_ne_nil (mt filter_eq_nil_iff_all.1 hts)
        rw [join, hleft, List.intercalate_cons_cons, List.append_assoc, List.singleton_append]

theorem join_ne_nil (hne : texts ≠ []) (h : ∀ t ∈ texts, t ≠ []) : join texts ≠ [] := by
  obtain ⟨t, ts, rfl⟩ := List.exists_cons_of_ne_nil hne
  obtain ⟨gap, -, hjoin⟩ := exists_join_cons t ts
  rw [hjoin]
  exact List.append_ne_nil_of_left_ne_nil (h t (List.mem_cons_self ..)) _

theorem unspaced_join (texts : List Text) : unspaced (join texts) = unspaced texts.flatten := by
  induction texts with
  | nil => rfl
  | cons t ts ih =>
      obtain ⟨gap, hgap, hjoin⟩ := exists_join_cons t ts
      rw [hjoin, unspaced_append, unspaced_append, unspaced_eq_nil_iff.2 hgap, ih, List.nil_append,
        List.flatten_cons, unspaced_append]

/-- Where every line has a text, nothing is cleaned. -/
theorem assemble_of_ne_nil (hne : texts ≠ []) (h : ∀ t ∈ texts, t ≠ []) :
    assemble lines (texts.map fun t => some ⟨t, []⟩) = some ⟨join texts, []⟩ := by
  have htexts : (texts.map fun t => (some ⟨t, []⟩ : Option Fragment)).map textOf = texts := by
    rw [List.map_map]
    exact List.map_id texts
  have hvalues : (texts.map fun t => (some ⟨t, []⟩ : Option Fragment)).flatMap valuesOf = [] := by
    rw [List.flatMap_eq_nil_iff]
    intro f hf
    obtain ⟨t, -, rfl⟩ := List.mem_map.1 hf
    rfl
  have hall : texts.all List.isEmpty = false := by
    rw [List.all_eq_false]
    obtain ⟨t, ts, rfl⟩ := List.exists_cons_of_ne_nil hne
    exact ⟨t, List.mem_cons_self .., by simpa using h t (List.mem_cons_self ..)⟩
  have hstart : cleanStart lines texts = texts := by
    unfold cleanStart
    split
    · rename_i hhead
      exact absurd rfl (h [] (List.mem_of_head? hhead))
    · rfl
  have hend : cleanEnd lines texts = texts := by
    unfold cleanEnd
    split
    · rename_i hlast
      exact absurd rfl (h [] (List.mem_of_getLast? hlast))
    · rfl
  unfold assemble
  simp only [htexts, hvalues, hall, hstart, hend]
  rfl

theorem getD_assemble_of_ne_nil (h : ∀ t ∈ texts, t ≠ []) :
    (assemble lines (texts.map fun t => some ⟨t, []⟩)).getD .empty = ⟨join texts, []⟩ := by
  by_cases hnil : texts = []
  · rw [hnil]
    rfl
  · rw [assemble_of_ne_nil hnil h]
    rfl

theorem attach_of_ne_nil {own below : Text} (hown : own ≠ []) (hbelow : below ≠ []) :
    attach ⟨own, []⟩ (some ⟨below, []⟩) = some ⟨own ++ ' ' :: below, []⟩ := by
  unfold attach
  simp [hbelow, hown]

end Block

end SqlTemplate
