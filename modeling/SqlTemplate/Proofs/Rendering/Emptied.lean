import SqlTemplate.Proofs.Rendering.Growth
import SqlTemplate.Proofs.Rendering.Steps

/-!
# Spans that are left without text

A span of lines that renders nothing drops the line around it. A span can also come to the empty text
and still be something: when the lines that are left of it are connectives alone and are removed by
its cleaning. `Block.Bared lines texts` says that they are. Without values, a span that comes to the
empty text renders nothing unless it is bared (`Block.assemble_eq_empty_iff`), and then the line
around it is kept as if nothing stood in its parentheses (`Line.render_of_silent_group`).
-/

namespace SqlTemplate

namespace Block

variable {lines : List Line} {texts : List Text} {results : List (Option Fragment)}

/-- The texts of lines are connectives alone, no more of them than cleaning removes. -/
def Bared (lines : List Line) (texts : List Text) : Prop :=
  ∃ k, 0 < k ∧ k ≤ leads lines texts + trails lines texts ∧ Tally k texts

theorem tally_zero_iff (hstrip : ∀ t ∈ texts, strip t = t) :
    Tally 0 texts ↔ texts.all List.isEmpty = true := by
  rw [← only_join_iff, ← join_eq_nil_iff]
  constructor
  · intro h
    exact eq_nil_of_isBlankText (h.eq_zero_iff.1 rfl) (strip_join hstrip)
  · intro h
    rw [h]
    exact .nil

/-- Texts that cleaning leaves empty are as many connectives as it removes, or fewer. -/
theorem all_clean_iff (hstrip : ∀ t ∈ texts, strip t = t) :
    (clean lines texts).all List.isEmpty = true ↔
      ∃ k, k ≤ leads lines texts + trails lines texts ∧ Tally k texts := by
  rw [← tally_zero_iff (strip_clean hstrip)]
  constructor
  · intro h
    obtain ⟨k, hk, htally⟩ := exists_tally_of_clean h
    exact ⟨k, by omega, htally⟩
  · rintro ⟨k, hk, htally⟩
    obtain ⟨j, hj, hclean⟩ := exists_tally_clean lines htally hstrip
    obtain rfl : j = 0 := by omega
    exact hclean

/-- What has neither text nor value is nothing, or it is empty. -/
theorem eq_none_or_eq_some_empty {content : Option Fragment} (hsql : textOf content = [])
    (hvalues : valuesOf content = []) : content = none ∨ content = some .empty := by
  cases content with
  | none => exact .inl rfl
  | some f =>
    obtain rfl : f = .empty := congrArg₂ Fragment.mk hsql hvalues
    exact .inr rfl

/-- A block without values comes to the empty text and is not dropped exactly if it is bared. -/
theorem assemble_eq_empty_iff (hstrip : ∀ t ∈ results.map textOf, strip t = t) :
    assemble lines results = some .empty ↔
      results.flatMap valuesOf = [] ∧ Bared lines (results.map textOf) := by
  have htext : textOf (assemble lines results) = [] ↔ ∃ k,
      k ≤ leads lines (results.map textOf) + trails lines (results.map textOf) ∧
        Tally k (results.map textOf) := by
    rw [textOf_assemble, join_eq_nil_iff, all_clean_iff hstrip]
  rw [← valuesOf_assemble lines results]
  constructor
  · intro hempty
    rw [hempty] at htext ⊢
    obtain ⟨k, hk, htally⟩ := htext.1 rfl
    refine ⟨rfl, k, Nat.pos_of_ne_zero ?_, hk, htally⟩
    rintro rfl
    have hvalues := valuesOf_assemble lines results
    rw [hempty] at hvalues
    rw [assemble_eq_none_iff.2 ⟨(tally_zero_iff hstrip).1 htally, hvalues.symm⟩] at hempty
    cases hempty
  · rintro ⟨hvalues, k, hpos, hk, htally⟩
    refine (eq_none_or_eq_some_empty (htext.2 ⟨k, hk, htally⟩) hvalues).resolve_left ?_
    intro hnone
    exact hpos.ne' (htally.eq_zero (assemble_eq_none_iff.1 hnone).1)

end Block

namespace Line

variable {s : Scope}

mutual

/-- No blank stands at an end of the text of a line. -/
theorem strip_textOf_render [Runtime] {l : Line} {result : Option Fragment}
    (h : l.render s = .ok result) :
    strip (Block.textOf result) = Block.textOf result := by
  cases l with
  | mk sql first last splices block =>
    rcases render_eq_ok_iff.1 h with
      ⟨-, rfl⟩ | ⟨f, -, ⟨-, rfl⟩ | ⟨hne, results, hresults, rfl⟩⟩
    · rfl
    · exact strip_strip f.sql
    · cases block with
      | none => exact absurd rfl hne
      | some children =>
        refine Block.strip_attach (strip_strip f.sql) ?_
        rw [Block.textOf_assemble]
        exact Block.strip_join (Block.strip_clean (strip_textOf_renderAll hresults))

theorem strip_textOf_renderAll [Runtime] {ls : List Line} {results : List (Option Fragment)}
    (h : renderAll s ls = .ok results) : ∀ t ∈ results.map Block.textOf, strip t = t := by
  cases ls with
  | nil =>
    rw [renderAll_nil_eq_ok_iff.1 h]
    simp
  | cons l ls =>
    obtain ⟨result, rest, hresult, hrest, rfl⟩ := renderAll_cons_eq_ok_iff.1 h
    exact List.forall_mem_cons.2 ⟨strip_textOf_render hresult, strip_textOf_renderAll hrest⟩

end

variable {lines : List Line} {results : List (Option Fragment)} {before after : List Splice}
  {offset : Nat}

/-- A span that comes to the empty text, without values, is spliced in like a span without lines. -/
theorem renderSplices_of_group_empty [Runtime] (hresults : renderAll s lines = .ok results)
    (hempty : Block.assemble lines results = some .empty) (start : Nat) (rest : Text) :
    renderSplices s start rest (before ++ .group offset lines :: after) =
      renderSplices s start rest (before ++ .group offset [] :: after) := by
  induction before generalizing start rest with
  | nil =>
    have hnil : renderAll s [] = .ok [] := rfl
    rw [List.nil_append, List.nil_append, renderSplices, renderSplices, hresults, hnil]
    simp only [ok_bind, hempty]
    rfl
  | cons splice before ih =>
    cases splice with
    | directive o d => simp only [List.cons_append, renderSplices, ih]
    | group o ls => simp only [List.cons_append, renderSplices, ih]

/-- A line with a span that comes to the empty text, without values. If the texts of the lines in the
span are connectives alone and cleaning removes them, the line is rendered as if nothing stood in its
parentheses. Otherwise the span renders nothing, and the line is dropped, once the splices in front
of the span are rendered. -/
theorem render_of_silent_group [Runtime] {sql : Text} {first last : Nat}
    {block : Option (List Line)} (hlines : lines ≠ []) (hresults : renderAll s lines = .ok results)
    (hsql : Block.textOf (Block.assemble lines results) = [])
    (hvalues : Block.valuesOf (Block.assemble lines results) = []) :
    (¬ Block.Bared lines (results.map Block.textOf) →
      Block.assemble lines results = none ∧
        render s (.mk sql first last (before ++ .group offset lines :: after) block) =
          (fun _ => none) <$> renderSplices s 0 sql before) ∧
    (Block.Bared lines (results.map Block.textOf) →
      Block.assemble lines results = some .empty ∧
        render s (.mk sql first last (before ++ .group offset lines :: after) block) =
          render s (.mk sql first last (before ++ .group offset [] :: after) block)) := by
  have hempty : Block.assemble lines results = some .empty ↔ _ :=
    Block.assemble_eq_empty_iff (strip_textOf_renderAll hresults)
  have hcases := Block.eq_none_or_eq_some_empty hsql hvalues
  rw [Block.valuesOf_assemble] at hvalues
  constructor
  · intro hbared
    have hnone := hcases.resolve_right fun hsome => hbared (hempty.1 hsome).2
    have hdrops (start : Nat) (rest : Text) :
        renderSplices s start rest (.group offset lines :: after) = .ok none :=
      renderSplices_group_eq_ok_iff.2 ⟨results, hresults, .inl ⟨hnone, hlines, rfl⟩⟩
    refine ⟨hnone, ?_⟩
    rw [render, renderSplices_append_cons_of_none hdrops]
    cases renderSplices s 0 sql before <;> rfl
  · intro hbared
    have hcontent := hempty.2 ⟨hvalues, hbared⟩
    refine ⟨hcontent, ?_⟩
    rw [render, render, renderSplices_of_group_empty hresults hcontent]

/-- A condition `name = ?` on a line of its own. -/
def ofCondition (name sample : Text) (line : Nat) : Line :=
  .mk "  ".toList line line
    [.directive 2
      { source := '?' :: name
        expression := [.reference .condition name false]
        sample := some sample
        comparison := some ⟨name, "=".toList⟩
        line := some line }] none

/-- A connective on a line of its own, between two conditions. -/
def connectiveBetween : List Line :=
  [ofCondition "a".toList "1".toList 3, .mk "  AND".toList 4 4 [] none,
    ofCondition "b".toList "2".toList 5]

theorem renderAll_connectiveBetween :
    renderAll ⟨.standard, none, .empty⟩ connectiveBetween =
      .ok [none, some ⟨"AND".toList, []⟩, none] := by
  rfl

theorem render_of_silent_group_connectiveBetween :
    let s : Scope := ⟨.standard, none, .empty⟩
    let results : List (Option Fragment) := [none, some ⟨"AND".toList, []⟩, none]
    let texts := results.map Block.textOf
    let content := Block.assemble connectiveBetween results
    let around (lines : List Line) : Line := .mk "WHERE ()".toList 2 6 [.group 7 lines] none
    connectiveBetween ≠ [] ∧ renderAll s connectiveBetween = .ok results ∧
      Block.textOf content = [] ∧ Block.valuesOf content = [] ∧
      (¬ Block.Bared connectiveBetween texts → content = none ∧
        render s (around connectiveBetween) = .ok none) ∧
      (Block.Bared connectiveBetween texts → content = some .empty ∧
        render s (around connectiveBetween) = render s (around [])) := by
  have h := @render_of_silent_group ⟨.standard, none, .empty⟩ connectiveBetween _ [] [] 7 _
    "WHERE ()".toList 2 6 none (List.cons_ne_nil _ _) renderAll_connectiveBetween rfl rfl
  exact ⟨List.cons_ne_nil _ _, rfl, rfl, rfl, h⟩

/-- Both conditions are missing and the connective between them is removed: the span comes to the
empty text without values, but the line around it is kept. -/
theorem render_connectiveBetween :
    let text : Text :=
      ("SELECT * FROM t\nWHERE (\n  a = /* ?a */1\n  AND\n  b = /* ?b */2\n)").toList
    let line : Line := .mk "WHERE ()".toList 2 6 [.group 7 connectiveBetween] none
    let t : Template := ⟨[.mk "SELECT * FROM t".toList 1 1 [] none, line], none⟩
    let s : Scope := ⟨.standard, none, .empty⟩
    Template.parse .standard none text = .ok t ∧ connectiveBetween ≠ [] ∧
      (∃ results, renderAll s connectiveBetween = .ok results ∧
        Block.assemble connectiveBetween results = some ⟨[], []⟩) ∧
      render s line = .ok (some ⟨"WHERE ()".toList, []⟩) ∧
      Renderer.standard.render t .empty = .ok ⟨"SELECT * FROM t WHERE ()".toList, []⟩ := by
  intro text line t s
  have ht : Template.parse .standard none text = .ok t := by with_unfolding_all rfl
  exact ⟨ht, List.cons_ne_nil _ _, ⟨_, renderAll_connectiveBetween, rfl⟩, rfl, rfl⟩

end Line

end SqlTemplate
