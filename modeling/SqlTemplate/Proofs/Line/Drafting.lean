import SqlTemplate.Proofs.Line.Weaving
import SqlTemplate.Proofs.Template.Reading

/-!
# What is written to a draft

A draft is well formed if its splices fit its text. Everything that reading does to a draft keeps it
well formed and adds to what is woven from it: text that is written adds itself, a directive its
sample, and a span its lines between parentheses. A directive that takes a mark or a comparison off
the end of the draft puts it back in other words, which differ in blanks only.
-/

namespace SqlTemplate

namespace Draft

def text (d : Draft) : Text := d.reversed.reverse

/-- A draft whose splices fit its text. -/
def Fit (d : Draft) : Prop := Splice.Fit d.text d.splices

/-- The text of a draft with everything put back. -/
def woven (d : Draft) : Text := Splice.weave 0 d.text d.splices

theorem length_text (d : Draft) : d.text.length = d.offset := List.length_reverse

theorem text_write (t : Text) (d : Draft) : (d.write t).text = d.text ++ t := by
  rw [text, reversed_write, List.reverse_append, List.reverse_reverse]
  rfl

variable {d : Draft}

theorem fit_start (n : Nat) : (start n).Fit := Splice.fit_nil []

/-- Text with splices behind a draft. -/
theorem Fit.extend (h : d.Fit) {u : Text} {others : List Splice} (hu : Splice.Fit u others)
    {e : Draft} (htext : e.text = d.text ++ u)
    (hsplices : e.splices = d.splices ++ others.map (Splice.shift d.offset)) :
    e.Fit ∧ e.woven = d.woven ++ Splice.weave 0 u others := by
  rw [← length_text] at hsplices
  constructor
  · rw [Fit, htext, hsplices]
    exact Splice.Fit.append h hu
  · rw [woven, htext, hsplices]
    exact Splice.weave_append h u others

theorem Fit.write (h : d.Fit) (t : Text) : (d.write t).Fit ∧ (d.write t).woven = d.woven ++ t :=
  h.extend (Splice.fit_nil t) (text_write t d) (by simp)

theorem Fit.spliceDirective (h : d.Fit) (x : Directive) :
    (d.splice fun offset => .directive offset x).Fit ∧
      (d.splice fun offset => .directive offset x).woven = d.woven ++ x.written := by
  have hone : Splice.Fit [] [.directive 0 x] := by
    refine ⟨List.pairwise_singleton _ _, ?_, ?_⟩
    · intro s hs
      rw [List.mem_singleton.1 hs]
      exact Nat.le_refl 0
    · intro s hs hlines
      rw [List.mem_singleton.1 hs] at hlines
      simp [Splice.lines?] at hlines
  obtain ⟨hfit, hwoven⟩ := h.extend (e := d.splice fun offset => .directive offset x) hone
    (List.append_nil _).symm (by simp [splice, Splice.shift])
  refine ⟨hfit, ?_⟩
  rw [hwoven]
  simp [Splice.weave, Splice.written]

/-- A line merged into a draft stands between parentheses. -/
theorem Fit.merge (h : d.Fit) {l : Line} (hl : Splice.Fit l.sql l.splices) :
    (d.merge l).Fit ∧ (d.merge l).woven = d.woven ++ ('(' :: (l.woven ++ [')'])) := by
  obtain ⟨hopened, hopen⟩ := h.write ['(']
  obtain ⟨hfilled, hfill⟩ := hopened.extend (e := ⟨l.sql.reverse ++ (d.write ['(']).reversed,
      d.splices ++ l.splices.map (Splice.shift (d.write ['(']).offset), d.first⟩) hl
    (by simp [text]) rfl
  obtain ⟨hclosed, hclose⟩ := hfilled.write [')']
  refine ⟨hclosed, ?_⟩
  refine Eq.trans hclose ?_
  rw [hfill, hopen]
  simp only [List.append_assoc, List.cons_append, List.nil_append]
  rfl

/-- The lines of a span stand between parentheses. -/
theorem Fit.addGroup (h : d.Fit) (lines : List Line) :
    (d.addGroup lines).Fit ∧
      (d.addGroup lines).woven = d.woven ++ ('(' :: (Line.writtenAll lines ++ [')'])) := by
  have hone : Splice.Fit ['('] [.group 1 lines] := by
    refine ⟨List.pairwise_singleton _ _, ?_, ?_⟩
    · intro s hs
      rw [List.mem_singleton.1 hs]
      exact Nat.le_refl 1
    · intro s hs _
      rw [List.mem_singleton.1 hs]
      exact List.mem_singleton_self _
  obtain ⟨hspan, hwoven⟩ := h.extend
    (e := (d.write ['(']).splice fun offset => .group offset lines) hone
    (text_write ['('] d) (by simp [splice, Splice.shift, Nat.add_comm])
  obtain ⟨hclosed, hclose⟩ := hspan.write [')']
  refine ⟨hclosed, ?_⟩
  refine Eq.trans hclose ?_
  rw [hwoven]
  simp [Splice.weave, Splice.written, Splice.offset]

/-- No splice stands behind what is settled. -/
theorem Fit.offset_le_settled (h : d.Fit) : ∀ s ∈ d.splices, s.offset ≤ d.settled := by
  intro s hs
  unfold settled
  rcases List.eq_nil_or_concat d.splices with hnil | ⟨init, last, hlast⟩
  · rw [hnil] at hs
    exact absurd hs List.not_mem_nil
  · have hsorted := h.sorted
    rw [hlast, List.concat_eq_append] at hs hsorted
    rw [hlast, List.concat_eq_append, List.getLast?_append]
    rcases List.mem_append.1 hs with hs | hs
    · exact (List.pairwise_append.1 hsorted).2.2 s hs last (List.mem_singleton_self _)
    · rw [List.mem_singleton.1 hs]
      exact Nat.le_refl _

/-- Text taken off the end of a draft, behind what is settled. -/
theorem Fit.cut (h : d.Fit) {w before : Text} (hreversed : d.reversed = w ++ before)
    (hsettled : d.settled ≤ before.length) :
    Fit { d with reversed := before } ∧
      d.woven = woven { d with reversed := before } ++ w.reverse := by
  have htext : d.text = before.reverse ++ w.reverse := by
    rw [text, hreversed, List.reverse_append]
  have hbound : ∀ s ∈ d.splices, s.offset ≤ before.reverse.length := by
    intro s hs
    rw [List.length_reverse]
    exact Nat.le_trans (h.offset_le_settled s hs) hsettled
  have hcut : Splice.Fit before.reverse d.splices := by
    have hfit : Splice.Fit d.text d.splices := h
    rw [htext] at hfit
    exact hfit.of_append hbound
  refine ⟨hcut, ?_⟩
  have hwoven := Splice.weave_append hcut w.reverse []
  rw [List.map_nil, List.append_nil] at hwoven
  rw [woven, htext, hwoven]
  rfl

/-- A draft from which something was taken that reads `t` without blanks. -/
structure Gives (d : Draft) (t : Text) (d' : Draft) : Prop where
  fit : d'.Fit
  woven : unspaced d.woven = unspaced d'.woven ++ unspaced t

theorem Fit.gives_self (h : d.Fit) : d.Gives [] d := ⟨h, (List.append_nil _).symm⟩

theorem Fit.gives_cut (h : d.Fit) {w before t : Text} (hreversed : d.reversed = w ++ before)
    (hsettled : d.settled ≤ before.length) (ht : unspaced w.reverse = unspaced t) :
    d.Gives t { d with reversed := before } := by
  obtain ⟨hfit, hwoven⟩ := h.cut hreversed hsettled
  refine ⟨hfit, ?_⟩
  rw [hwoven, unspaced_append, ht]

theorem Fit.gives_takeMark (h : d.Fit) : d.Gives (d.takeMark.1.getD []) d.takeMark.2 := by
  rcases d.takeMark_cases with htake | ⟨e, hending, hsettled, htake⟩ <;> rw [htake]
  · exact h.gives_self
  · obtain ⟨⟨gap, hgap, hreversed⟩, -⟩ := Ending.exists_of_mark? hending
    rw [← List.append_assoc] at hreversed
    refine h.gives_cut hreversed hsettled ?_
    rw [List.reverse_append, List.reverse_reverse, unspaced_append, unspaced_reverse gap,
      unspaced_eq_nil_iff.2 hgap]
    exact List.append_nil _

/-- A comparison as it was written, blanks aside. -/
def comparisonText : Option Comparison → Text
  | some c => c.subject ++ c.operator
  | none => []

theorem Fit.gives_takeComparison (h : d.Fit) :
    d.Gives (comparisonText d.takeComparison.1) d.takeComparison.2 := by
  rcases d.takeComparison_cases with htake | ⟨e, hending, hsettled, htake⟩ <;> rw [htake]
  · exact h.gives_self
  · obtain ⟨w, hreversed, hw⟩ := (Ending.found_of_comparison? hending).written
    exact h.gives_cut hreversed hsettled (by rw [hw, comparisonText, unspaced_append])

theorem Fit.gives_takeFor (h : d.Fit) (expression : Expression) (sample : Option Text) :
    d.Gives (comparisonText (d.takeFor expression sample).1) (d.takeFor expression sample).2 := by
  unfold takeFor
  split
  · exact h.gives_takeComparison
  · exact h.gives_self

theorem unspaced_written (x : Directive) :
    unspaced x.written =
      unspaced (comparisonText x.comparison) ++ unspaced (x.sample.getD []) := by
  unfold Directive.written
  cases x.comparison with
  | none => rfl
  | some c =>
      simp only [comparisonText, List.cons_append, List.append_assoc, unspaced_append,
        unspaced_space_cons]

/-- A directive adds its sample, blanks aside. -/
theorem Fit.addCompiled (h : d.Fit) (line : Nat) (source : Text) (expression : Expression)
    (sample : Option Text) :
    (d.addCompiled line source expression sample).Fit ∧
      unspaced (d.addCompiled line source expression sample).woven =
        unspaced d.woven ++ unspaced (sample.getD []) := by
  have htaken := h.gives_takeFor expression sample
  rw [addCompiled_eq]
  obtain ⟨hfit, hwoven⟩ := htaken.fit.spliceDirective
    ⟨source, expression, sample, (d.takeFor expression sample).1, some line⟩
  refine ⟨hfit, ?_⟩
  rw [hwoven, unspaced_append, unspaced_written, htaken.woven, List.append_assoc]

theorem Fit.addLine {registry : Registry} (h : d.Fit) {line : Nat} {source : Text} {d' : Draft}
    (hd : d.addLine registry line source = .ok d') :
    d'.Fit ∧ unspaced d'.woven = unspaced d.woven := by
  obtain ⟨expression, -, rfl⟩ := addLine_eq_ok hd
  have htaken := h.gives_takeMark
  obtain ⟨hfit, hwoven⟩ := htaken.fit.addCompiled line source expression d.takeMark.1
  exact ⟨hfit, by rw [hwoven, htaken.woven]⟩

theorem Fit.addBlock {registry : Registry} (h : d.Fit) {line : Nat} {source : Text}
    {sample : Option Text} {d' : Draft} (hd : d.addBlock registry line source sample = .ok d') :
    d'.Fit ∧ unspaced d'.woven = unspaced d.woven ++ unspaced (sample.getD []) := by
  obtain ⟨expression, -, rfl⟩ := addBlock_eq_ok hd
  exact h.addCompiled line source expression sample

end Draft

/-- A line as it is read: it has fitting splices, and no lines belong to it yet. -/
structure Line.Flat (l : Line) : Prop where
  fit : Splice.Fit l.sql l.splices
  block : l.block? = none

/-- Reading keeps drafts well formed. -/
theorem Reader.keeps_fit (registry : Registry) : Keeps registry Draft.Fit Line.Flat := by
  constructor
  · intro n
    exact Draft.fit_start n
  · intro t d hd
    exact (hd.write t).1
  · intro n d hd
    exact ⟨hd, rfl⟩
  · intro l d hl hd
    exact (hd.merge hl.fit).1
  · intro ls d _ hd
    exact (hd.addGroup _).1
  · intro n source d d' hd hadded
    exact (hd.addLine hadded).1
  · intro n source sample d d' _ hd hadded
    exact (hd.addBlock hadded).1

namespace Line

theorem Flat.written {l : Line} (h : l.Flat) : l.written = l.woven := by
  rw [written_eq, children_of_block? h.block]
  exact List.append_nil _

/-- A blank line holds nothing that is not a blank. -/
theorem unspaced_woven_of_isBlank {l : Line} (h : l.isBlank = true) : unspaced l.woven = [] := by
  obtain ⟨hsql, hsplices⟩ := Bool.and_eq_true_iff.1 h
  rw [woven, List.isEmpty_iff.1 hsplices]
  exact unspaced_eq_nil_iff.2 hsql

/-- Nothing is lost by nesting lines. -/
theorem unspaced_writtenAll_nest (lines : List Line) :
    unspaced (writtenAll (nest lines)) = unspaced (lines.flatMap woven) := by
  rw [writtenAll_eq_flatMap, flatMap_nest woven written written_eq woven_withChildren,
    unspaced_flatMap, unspaced_flatMap]
  induction lines with
  | nil => rfl
  | cons l lines ih =>
      rw [List.filter_cons, List.flatMap_cons]
      cases hl : l.isBlank with
      | true =>
          rw [unspaced_woven_of_isBlank hl]
          exact ih
      | false =>
          rw [if_pos (by rfl), List.flatMap_cons, ih]

end Line

/-- A line as it stands in a template: not blank, with splices that fit. -/
structure Line.Neat (l : Line) : Prop where
  nonblank : l.isBlank = false
  fit : Splice.Fit l.sql l.splices

/-- All lines of a template are neat. -/
theorem neat_of_parse {registry : Registry} {resource : Option Text} {text : Text} {t : Template}
    (h : Template.parse registry resource text = .ok t) : ∀ l ∈ t.deepLines, l.Neat := by
  intro l hl
  obtain ⟨hblank, -, hflat⟩ := (Reader.keeps_fit registry).of_parse (fun _ hl => hl.block) h l hl
  refine ⟨hblank, ?_⟩
  have hfit := hflat.fit
  rwa [Line.sql_withChildren, Line.splices_withChildren] at hfit

end SqlTemplate
