import Mathlib.Data.List.Forall2
import SqlTemplate.Proofs.Line.Drafting
import SqlTemplate.Proofs.Rendering.Steps

/-!
# Slicing lines at their splices

A line is rendered by cutting its text at the offsets of its splices and putting their output
between the slices. For that the splices of every line of a template are in order and inside of its
text, and every span is spliced in between its parentheses: `Splice.Between` says so of a splice, and
everything that happens to a draft keeps it. Only a piece taken off the end of a draft could take the
closing parenthesis with it; but no mark and no comparison begins with one.
-/

namespace SqlTemplate

namespace Splice

/-- A splice that stands between an opening and a closing parenthesis of a text if it is a span. -/
def Between (t : Text) (s : Splice) : Prop :=
  s.lines?.isSome → ∃ before after, t = before ++ '(' :: ')' :: after ∧
    s.offset = before.length + 1

namespace Between

variable {t : Text} {s : Splice}

theorem append (h : Between t s) (u : Text) : Between (t ++ u) s := by
  intro hlines
  obtain ⟨before, after, rfl, hoffset⟩ := h hlines
  exact ⟨before, after ++ u, by simp, hoffset⟩

theorem shift (h : Between t s) (u : Text) : Between (u ++ t) (s.shift u.length) := by
  intro hlines
  rw [lines?_shift] at hlines
  obtain ⟨before, after, rfl, hoffset⟩ := h hlines
  refine ⟨u ++ before, after, by simp, ?_⟩
  rw [offset_shift, hoffset, List.length_append]
  omega

/-- Text can be taken off the end if it does not begin with the closing parenthesis. -/
theorem of_append {w : Text} (h : Between (t ++ w) s) (hbound : s.offset ≤ t.length)
    (hw : w.head? ≠ some ')') : Between t s := by
  intro hlines
  obtain ⟨before, after, htext, hoffset⟩ := h hlines
  have hsplit : t ++ w = (before ++ ['(']) ++ ')' :: after := by
    rw [htext, List.append_assoc]
    rfl
  have hlength : (before ++ ['(']).length ≤ t.length := by
    rw [List.length_append, List.length_singleton]
    omega
  obtain ⟨r, rfl⟩ := List.prefix_of_prefix_length_le ⟨_, hsplit.symm⟩ ⟨w, rfl⟩ hlength
  have hr : r ++ w = ')' :: after := by
    rw [List.append_assoc] at hsplit
    exact List.append_cancel_left hsplit
  cases r with
  | nil => exact absurd (congrArg List.head? hr) hw
  | cons c r =>
      obtain ⟨rfl, rfl⟩ := List.cons.inj hr
      exact ⟨before, r, by simp, hoffset⟩

theorem getElem? (h : Between t s) (hlines : s.lines?.isSome) :
    0 < s.offset ∧ t[s.offset - 1]? = some '(' ∧ t[s.offset]? = some ')' := by
  obtain ⟨before, after, rfl, hoffset⟩ := h hlines
  rw [hoffset, Nat.add_sub_cancel]
  refine ⟨Nat.succ_pos _, by simp, ?_⟩
  rw [List.getElem?_append_right (Nat.le_succ _)]
  simp

end Between

end Splice

namespace Draft

/-- A draft with every span between its parentheses. -/
def Enclosed (d : Draft) : Prop := ∀ s ∈ d.splices, Splice.Between d.text s

variable {d : Draft}

theorem enclosed_start (n : Nat) : (start n).Enclosed := fun _ hs => absurd hs List.not_mem_nil

/-- Text with splices behind a draft. -/
theorem Enclosed.extend (h : d.Enclosed) {u : Text} {others : List Splice}
    (hu : ∀ s ∈ others, Splice.Between u s) {e : Draft} (htext : e.text = d.text ++ u)
    (hsplices : e.splices = d.splices ++ others.map (Splice.shift d.offset)) : e.Enclosed := by
  intro s hs
  rw [htext]
  rw [hsplices, ← length_text] at hs
  rcases List.mem_append.1 hs with hs | hs
  · exact (h s hs).append u
  · obtain ⟨o, ho, rfl⟩ := List.mem_map.1 hs
    exact (hu o ho).shift d.text

theorem Enclosed.write (h : d.Enclosed) (t : Text) : (d.write t).Enclosed :=
  h.extend (fun _ hs => absurd hs List.not_mem_nil) (text_write t d) (by simp)

theorem Enclosed.spliceDirective (h : d.Enclosed) (x : Directive) :
    (d.splice fun offset => .directive offset x).Enclosed := by
  intro s hs
  rcases List.mem_append.1 hs with hs | hs
  · exact h s hs
  · rw [List.mem_singleton.1 hs]
    intro hlines
    simp [Splice.lines?] at hlines

theorem Enclosed.merge (h : d.Enclosed) {l : Line}
    (hl : ∀ s ∈ l.splices, Splice.Between l.sql s) : (d.merge l).Enclosed := by
  have hfilled : Enclosed ⟨l.sql.reverse ++ (d.write ['(']).reversed,
      d.splices ++ l.splices.map (Splice.shift (d.write ['(']).offset), d.first⟩ :=
    (h.write ['(']).extend hl (by simp [text]) rfl
  exact hfilled.write [')']

/-- The lines of a span are spliced in between its parentheses. -/
theorem Enclosed.addGroup (h : d.Enclosed) (lines : List Line) : (d.addGroup lines).Enclosed := by
  have hspan : ∀ s ∈ [Splice.group 1 lines], Splice.Between "()".toList s := by
    intro s hs _
    rw [List.mem_singleton.1 hs]
    exact ⟨[], [], rfl, rfl⟩
  refine h.extend hspan (by simp [Draft.addGroup, splice, text]) ?_
  simp [Draft.addGroup, splice, Splice.shift, Nat.add_comm]

/-- A piece that does not begin with a closing parenthesis can be taken off. -/
theorem Enclosed.cut (h : d.Enclosed) (hfit : d.Fit) {w before : Text}
    (hreversed : d.reversed = w ++ before) (hsettled : d.settled ≤ before.length)
    (hw : w.reverse.head? ≠ some ')') : Enclosed { d with reversed := before } := by
  have htext : d.text = before.reverse ++ w.reverse := by
    rw [text, hreversed, List.reverse_append]
  intro s hs
  have hbetween := h s hs
  rw [htext] at hbetween
  refine hbetween.of_append ?_ hw
  rw [List.length_reverse]
  exact Nat.le_trans (hfit.offset_le_settled s hs) hsettled

theorem Enclosed.takeMark (h : d.Enclosed) (hfit : d.Fit) : d.takeMark.2.Enclosed := by
  rcases d.takeMark_cases with htake | ⟨e, hending, hsettled, htake⟩ <;> rw [htake]
  · exact h
  · obtain ⟨⟨gap, -, hreversed⟩, -⟩ := Ending.exists_of_mark? hending
    obtain ⟨⟨c, hc, hne⟩, -⟩ := Ending.ends_of_mark? hending
    rw [← List.append_assoc] at hreversed
    refine h.cut hfit hreversed hsettled ?_
    rw [List.reverse_append, List.reverse_reverse, List.head?_append, hc, Option.some_or]
    exact fun he => hne (Option.some.inj he)

/-- What a comparison was written as does not begin with a parenthesis. -/
theorem Enclosed.takeComparison (h : d.Enclosed) (hfit : d.Fit) :
    d.takeComparison.2.Enclosed := by
  rcases d.takeComparison_cases with htake | ⟨e, hending, hsettled, htake⟩ <;> rw [htake]
  · exact h
  · have hfound := Ending.found_of_comparison? hending
    obtain ⟨w, hreversed, -⟩ := hfound.written
    refine h.cut hfit hreversed hsettled fun hhead => ?_
    exact hfound.not_mem_written hreversed (by decide : isBlank ')' = false) (by decide)
      (List.mem_reverse.1 (List.mem_of_head? hhead))

theorem Enclosed.addCompiled (h : d.Enclosed) (hfit : d.Fit) (line : Nat) (source : Text)
    (expression : Expression) (sample : Option Text) :
    (d.addCompiled line source expression sample).Enclosed := by
  have htaken : (d.takeFor expression sample).2.Enclosed := by
    unfold takeFor
    split
    · exact h.takeComparison hfit
    · exact h
  rw [addCompiled_eq]
  exact htaken.spliceDirective _

end Draft

/-- A line as it is read, with every span between its parentheses. -/
structure Line.Enclosed (l : Line) : Prop where
  flat : l.Flat
  between : ∀ s ∈ l.splices, Splice.Between l.sql s

/-- Reading keeps spans between their parentheses. -/
theorem Reader.keeps_enclosed (registry : Registry) :
    Keeps registry (fun d => d.Fit ∧ d.Enclosed) Line.Enclosed := by
  have hfit := keeps_fit registry
  constructor
  · intro n
    exact ⟨hfit.start n, Draft.enclosed_start n⟩
  · intro t d hd
    exact ⟨hfit.write t d hd.1, hd.2.write t⟩
  · intro n d hd
    exact ⟨hfit.finish n d hd.1, hd.2⟩
  · intro l d hl hd
    exact ⟨hfit.merge l d hl.flat hd.1, hd.2.merge hl.between⟩
  · intro ls d hl hd
    exact ⟨hfit.addGroup ls d (fun l hmem => (hl l hmem).flat) hd.1, hd.2.addGroup _⟩
  · intro n source d d' hd hadded
    refine ⟨hfit.addLine n source d d' hd.1 hadded, ?_⟩
    obtain ⟨e, -, rfl⟩ := Draft.addLine_eq_ok hadded
    exact (hd.2.takeMark hd.1).addCompiled hd.1.gives_takeMark.fit n source e _
  · intro n source sample d d' hsample hd hadded
    refine ⟨hfit.addBlock n source sample d d' hsample hd.1 hadded, ?_⟩
    obtain ⟨e, -, rfl⟩ := Draft.addBlock_eq_ok hadded
    exact hd.2.addCompiled hd.1 n source e sample

namespace Splice

/-- The slices of a text from `cursor` on: up to the offset of each splice, and the rest. -/
def slices (sql : Text) (cursor : Nat) : List Splice → List Text
  | [] => [sql.drop cursor]
  | s :: splices => (sql.take s.offset).drop cursor :: slices sql s.offset splices

variable {sql : Text} {splices : List Splice}

/-- The slices are the text from `cursor` on. -/
theorem flatten_slices {cursor : Nat} (hsorted : splices.Pairwise fun s s' => s.offset ≤ s'.offset)
    (hcursor : ∀ s ∈ splices, cursor ≤ s.offset) :
    (slices sql cursor splices).flatten = sql.drop cursor := by
  induction splices generalizing cursor with
  | nil => simp [slices]
  | cons s splices ih =>
      obtain ⟨hfirst, hsorted⟩ := List.pairwise_cons.1 hsorted
      obtain ⟨hle, -⟩ := List.forall_mem_cons.1 hcursor
      have hdrop : (sql.drop cursor).drop (s.offset - cursor) = sql.drop s.offset := by
        rw [List.drop_drop, Nat.add_sub_cancel' hle]
      rw [slices, List.flatten_cons, ih hsorted hfirst, List.drop_take, ← hdrop,
        List.take_append_drop]

/-- Slices with outputs between them. -/
def interleave : List Text → List Text → Text
  | slice :: slices, output :: outputs => slice ++ (output ++ interleave slices outputs)
  | slices, _ => slices.flatten

/-- What goes where a splice stands. -/
inductive Renders [Runtime] (s : Scope) : Splice → Text → Prop
  | directive {offset : Nat} {d : Directive} {c : Contribution} (h : d.evaluate s = .ok c) :
      Renders s (.directive offset d) (d.output c).sql
  | group {offset : Nat} {lines : List Line} {results : List (Option Fragment)}
      (h : Line.renderAll s lines = .ok results) :
      Renders s (.group offset lines) (Block.textOf (Block.assemble lines results))

/-- A splice that drops no line puts its output behind the slice in front of it. -/
theorem exists_output_of_renderSplices_cons [Runtime] {s : Scope} {start : Nat} {rest : Text}
    {x : Splice}
    {f : Fragment} (h : Line.renderSplices s start rest (x :: splices) = .ok (some f)) :
    ∃ output after, Renders s x output ∧
      Line.renderSplices s x.offset (rest.drop (x.offset - start)) splices = .ok (some after) ∧
      f.sql = rest.take (x.offset - start) ++ (output ++ after.sql) := by
  cases x with
  | directive offset d =>
      obtain ⟨c, hc, ⟨-, hnone⟩ | ⟨-, after, hafter, hf⟩⟩ :=
        Line.renderSplices_directive_eq_ok_iff.1 h
      · simp at hnone
      · obtain ⟨g, rfl, rfl⟩ := Option.map_eq_some_iff.1 hf.symm
        exact ⟨_, g, .directive hc, hafter, List.append_assoc ..⟩
  | group offset lines =>
      obtain ⟨results, hresults, ⟨-, -, hnone⟩ | ⟨-, after, hafter, hf⟩⟩ :=
        Line.renderSplices_group_eq_ok_iff.1 h
      · simp at hnone
      · obtain ⟨g, rfl, rfl⟩ := Option.map_eq_some_iff.1 hf.symm
        refine ⟨_, g, .group hresults, hafter, ?_⟩
        cases Block.assemble lines results with
        | none => exact List.append_assoc ..
        | some content => exact List.append_assoc ..

/-- The text of a line that is rendered is its slices with the outputs of its splices between
them. -/
theorem exists_interleave_of_renderSplices [Runtime] {s : Scope} {cursor : Nat}
    (hsorted : splices.Pairwise fun s s' => s.offset ≤ s'.offset)
    (hcursor : ∀ s ∈ splices, cursor ≤ s.offset) {f : Fragment}
    (h : Line.renderSplices s cursor (sql.drop cursor) splices = .ok (some f)) :
    ∃ outputs, List.Forall₂ (Renders s) splices outputs ∧
      f.sql = interleave (slices sql cursor splices) outputs := by
  induction splices generalizing cursor f with
  | nil =>
      obtain rfl := Option.some.inj (Line.renderSplices_nil_eq_ok_iff.1 h)
      exact ⟨[], .nil, by simp [slices, interleave]⟩
  | cons x splices ih =>
      obtain ⟨hfirst, hothers⟩ := List.pairwise_cons.1 hsorted
      obtain ⟨hle, -⟩ := List.forall_mem_cons.1 hcursor
      obtain ⟨output, after, houtput, hafter, hf⟩ := exists_output_of_renderSplices_cons h
      rw [List.drop_drop, Nat.add_sub_cancel' hle] at hafter
      obtain ⟨outputs, houtputs, hsql⟩ := ih hothers hfirst hafter
      refine ⟨output :: outputs, .cons houtput houtputs, ?_⟩
      rw [hf, hsql, slices, interleave, List.drop_take]

end Splice

/-- In a template that was parsed the splices of every line are in order and inside of its text, a
span stands between its parentheses, and neither a line nor the block of a line is blank. So cutting
the text at the splices gives every character once and in order, and what the line is rendered to is
these slices with the outputs of the splices between them. -/
theorem sliced_of_parse [Runtime] {registry : Registry} {resource : Option Text} {text : Text}
    {t : Template}
    (ht : Template.parse registry resource text = .ok t) :
    ∀ l ∈ t.deepLines,
      l.splices.Pairwise (fun s s' => s.offset ≤ s'.offset) ∧
      (∀ s ∈ l.splices, s.offset ≤ l.sql.length) ∧
      (∀ offset lines, .group offset lines ∈ l.splices →
        0 < offset ∧ l.sql[offset - 1]? = some '(' ∧ l.sql[offset]? = some ')') ∧
      l.isBlank = false ∧
      (∀ block, l.block? = some block → block ≠ [] ∧ ∀ k ∈ block, k.isBlank = false) ∧
      (Splice.slices l.sql 0 l.splices).flatten = l.sql ∧
      ∀ s f, Line.renderSplices s 0 l.sql l.splices = .ok (some f) →
        ∃ outputs, List.Forall₂ (Splice.Renders s) l.splices outputs ∧
          f.sql = Splice.interleave (Splice.slices l.sql 0 l.splices) outputs := by
  have hstands := (Reader.keeps_enclosed registry).of_parse (fun _ hl => hl.flat.block) ht
  intro l hl
  obtain ⟨hblank, hne, hflat, hbetween⟩ := hstands l hl
  have hfit := hflat.fit
  rw [Line.sql_withChildren, Line.splices_withChildren] at hfit
  rw [Line.sql_withChildren, Line.splices_withChildren] at hbetween
  have hcursor : ∀ s ∈ l.splices, 0 ≤ s.offset := fun _ _ => Nat.zero_le _
  refine ⟨hfit.sorted, hfit.bounded, ?_, hblank, ?_, ?_, ?_⟩
  · intro offset lines hmem
    exact (hbetween _ hmem).getElem? rfl
  · rintro block hblock
    have hchildren : l.children = block := by rw [Line.children, hblock, Option.getD_some]
    refine ⟨fun hnil => hne (hnil ▸ hblock), fun k hk => ?_⟩
    exact (hstands k (Line.mem_deepAll_of_mem_children t.lines hl (hchildren ▸ hk))).nonblank
  · exact Splice.flatten_slices hfit.sorted hcursor
  · intro s f hf
    exact Splice.exists_interleave_of_renderSplices hfit.sorted hcursor hf

/-- A template with a span in a span on one line, a block of lines in the span, and a comparison that
a line comment takes off the end of the line. -/
def Template.spanAndComparison : Template where
  lines :=
    [.mk "WHERE (a IN ()) AND ".toList 1 4
      [.group 13
        [.mk "  1, ".toList 2 2
          [.directive 5
            { source := "$v".toList
              expression := [.reference .param "v".toList false]
              sample := some "2".toList
              comparison := none
              line := some 2 }]
          (some [.mk "    OR 3".toList 3 3 [] none])],
        .directive 20
          { source := "?c".toList
            expression := [.reference .condition "c".toList false]
            sample := some "?".toList
            comparison := some ⟨"c".toList, "=".toList⟩
            line := some 4 }] none]
  resource := none

theorem sliced_of_parse_spanAndComparison :
    let t : Template := .spanAndComparison
    Template.parse .standard none
        "WHERE (a IN (\n  1, /* $v */2\n    OR 3\n)) AND c = ? -- ?c".toList = .ok t ∧
      ∀ l ∈ t.deepLines,
        l.splices.Pairwise (fun s s' => s.offset ≤ s'.offset) ∧
        (∀ s ∈ l.splices, s.offset ≤ l.sql.length) ∧
        (∀ offset lines, .group offset lines ∈ l.splices →
          0 < offset ∧ l.sql[offset - 1]? = some '(' ∧ l.sql[offset]? = some ')') ∧
        l.isBlank = false ∧ (∀ block, l.block? = some block → block ≠ []) ∧
        (Splice.slices l.sql 0 l.splices).flatten = l.sql := by
  have ht : Template.parse .standard none
      "WHERE (a IN (\n  1, /* $v */2\n    OR 3\n)) AND c = ? -- ?c".toList =
        .ok .spanAndComparison := by with_unfolding_all rfl
  refine ⟨ht, fun l hl => ?_⟩
  obtain ⟨hsorted, hbounded, hgroups, hblank, hblock, hslices, -⟩ := sliced_of_parse ht l hl
  exact ⟨hsorted, hbounded, hgroups, hblank, fun block h => (hblock block h).1, hslices⟩

end SqlTemplate
