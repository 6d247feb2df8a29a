import SqlTemplate.Proofs.Line.Weaving
import SqlTemplate.Proofs.Rendering.Joining
import SqlTemplate.Proofs.Text.Parted

/-!
# Connectives left at the ends of a block

If the first line of a block has no text, the connective in front of the first text that is left is
to be removed, unless the missing line was written with one itself. What is read to see how it was
written is its text without its directives. So a connective behind a directive counts as one in
front, and the connective of the next line stays although nothing precedes it; the end of a block is
treated alike. `Block.connectives_removed_iff` says exactly when the connectives are removed.
-/

namespace SqlTemplate

namespace Splice

/-- The rest `rest` of the text of a line, which begins at the offset `start`, with what its
directives were written around put back. -/
def restore (start : Nat) (rest : Text) : List Splice → Text
  | [] => rest
  | .directive offset d :: splices =>
      rest.take (offset - start) ++
        (d.written ++ restore offset (rest.drop (offset - start)) splices)
  | .group offset _ :: splices =>
      rest.take (offset - start) ++ restore offset (rest.drop (offset - start)) splices

end Splice

/-- The text of a line as it was written, without its comments. -/
def Line.asWritten (l : Line) : Text := Splice.restore 0 l.sql l.splices

theorem Line.asWritten_of_splices_eq_nil {l : Line} (h : l.splices = []) : l.asWritten = l.sql := by
  rw [asWritten, h]
  rfl

namespace Block

/-- The result of the lines of a block together. -/
def render [Runtime] (s : Scope) (lines : List Line) : Except RenderError (Option Fragment) := do
  let results ← Line.renderAll s lines
  return assemble lines results

theorem render_eq_ok [Runtime] {s : Scope} {lines : List Line} {results : List (Option Fragment)}
    (h : Line.renderAll s lines = .ok results) :
    render s lines = .ok (assemble lines results) := by
  rw [render, h]
  rfl

end Block

theorem Renderer.render_eq_render_lines [Runtime] (r : Renderer) (t : Template) (p : Parameters) :
    r.render t p = (do return (← Block.render ⟨r, t.resource, p⟩ t.lines).getD .empty) := by
  rw [render, Block.render, bind_assoc]
  rfl

theorem Line.render_mk_eq [Runtime] (s : Scope) (sql : Text) (first last : Nat)
    (splices : List Splice)
    (block : Option (List Line)) :
    Line.render s (.mk sql first last splices block) = (do
      match ← Line.renderSplices s 0 sql splices with
      | none => return none
      | some own =>
          let own : Fragment := { own with sql := strip own.sql }
          match block with
          | none => return some own
          | some children =>
              if children.isEmpty then return some own
              else return Block.attach own (← Block.render s children)) := by
  rw [Line.render]
  congr 1
  funext own
  cases own with
  | none => rfl
  | some own =>
      cases block with
      | none => rfl
      | some children =>
          dsimp only
          split
          · rfl
          · rw [Block.render, bind_assoc]
            rfl

theorem Line.renderSplices_group_eq [Runtime] (s : Scope) (start offset : Nat) (rest : Text)
    (lines : List Line) (splices : List Splice) :
    Line.renderSplices s start rest (.group offset lines :: splices) = (do
      match ← Block.render s lines, lines with
      | none, _ :: _ => return none
      | content, _ =>
          let after ← Line.renderSplices s offset (rest.drop (offset - start)) splices
          return after.map fun f =>
            ⟨rest.take (offset - start), []⟩ ++ content.getD .empty ++ f) := by
  rw [Line.renderSplices, Block.render, bind_assoc]
  rfl

namespace Block

variable {f : Text → Text} {before after texts : List Text} {t x y : Text} {lines : List Line}

theorem length_join_cons (t : Text) (ts : List Text) :
    (join (t :: ts)).length =
      if t = [] then (join ts).length
      else if ts.all List.isEmpty then t.length
      else t.length + 1 + (join ts).length := by
  rw [join_cons, apply_ite List.length, apply_ite List.length, List.length_append,
    List.length_cons, Nat.add_right_comm, Nat.add_assoc]

/-- A block with a shorter text in the place of another is shorter. -/
theorem length_join_lt (h : x.length < y.length) :
    (join (before ++ x :: after)).length < (join (before ++ y :: after)).length := by
  have hy : y ≠ [] := by
    rintro rfl
    simp at h
  induction before with
  | nil =>
      rw [List.nil_append, List.nil_append, length_join_cons, length_join_cons, if_neg hy]
      have := List.length_pos_iff.2 hy
      by_cases hafter : after.all List.isEmpty = true
      · rw [if_pos hafter, if_pos hafter, join_eq_nil hafter]
        split
        · exact this
        · exact h
      · rw [if_neg hafter, if_neg hafter]
        split <;> omega
  | cons t before ih =>
      rw [List.cons_append, List.cons_append, length_join_cons, length_join_cons]
      by_cases ht : t = []
      · rw [if_pos ht, if_pos ht]
        exact ih
      · have hall : (before ++ y :: after).all List.isEmpty = false := by
          rw [List.all_eq_false]
          exact ⟨y, by simp, by simpa using hy⟩
        rw [if_neg ht, if_neg ht, hall, if_neg Bool.false_ne_true]
        split <;> omega

theorem editFirst_of_all_isEmpty (h : texts.all List.isEmpty = true) :
    editFirst f texts = texts := by
  induction texts with
  | nil => rfl
  | cons t ts ih =>
      obtain ⟨ht, hts⟩ := Bool.and_eq_true_iff.1 h
      rw [editFirst, if_pos ht, ih hts]

theorem editFirst_append (h : before.all List.isEmpty = true) (ht : t ≠ []) :
    editFirst f (before ++ t :: after) = before ++ f t :: after := by
  induction before with
  | nil => rw [List.nil_append, List.nil_append, editFirst, if_neg (mt List.isEmpty_iff.1 ht)]
  | cons u before ih =>
      obtain ⟨hu, hbefore⟩ := Bool.and_eq_true_iff.1 h
      rw [List.cons_append, editFirst, if_pos hu, ih hbefore]
      rfl

/-- Where a text is left in front, what follows is not looked at. -/
theorem editFirst_append_of_not_all (h : before.all List.isEmpty = false) :
    editFirst f (before ++ after) = editFirst f before ++ after := by
  induction before with
  | nil => simp at h
  | cons u before ih =>
      rw [List.cons_append, editFirst, editFirst]
      by_cases hu : u.isEmpty = true
      · rw [if_pos hu, if_pos hu, ih]
        · rfl
        · rw [List.all_cons, hu] at h
          exact h
      · rw [if_neg hu, if_neg hu]
        rfl

theorem getLast?_editFirst (h : texts.getLast? = some []) :
    (editFirst f texts).getLast? = some [] := by
  obtain ⟨front, rfl⟩ := List.getLast?_eq_some_iff.1 h
  by_cases hfront : front.all List.isEmpty = true
  · rw [editFirst_of_all_isEmpty, List.getLast?_concat]
    rw [List.all_append, hfront]
    rfl
  · rw [editFirst_append_of_not_all (by simpa using hfront), List.getLast?_concat]

theorem editLast_of_all_isEmpty (h : texts.all List.isEmpty = true) : editLast f texts = texts := by
  rw [editLast, editFirst_of_all_isEmpty, List.reverse_reverse]
  rwa [List.all_reverse]

theorem editLast_append (h : after.all List.isEmpty = true) (ht : t ≠ []) :
    editLast f (before ++ t :: after) = before ++ f t :: after := by
  have hreverse : (before ++ t :: after).reverse = after.reverse ++ t :: before.reverse := by simp
  rw [editLast, hreverse, editFirst_append (by rwa [List.all_reverse]) ht]
  simp

theorem editLast_append_of_not_all (h : after.all List.isEmpty = false) :
    editLast f (before ++ after) = before ++ editLast f after := by
  rw [editLast, List.reverse_append, editFirst_append_of_not_all (by rwa [List.all_reverse]),
    List.reverse_append, List.reverse_reverse]
  rfl

theorem cleanEnd_of_getLast? {l : Line} (hl : lines.getLast? = some l)
    (htexts : texts.getLast? = some []) :
    cleanEnd lines texts =
      if Connective.endsWith l.sql then texts else editLast Connective.dropTrailing texts := by
  rw [cleanEnd, hl, htexts]

theorem cleanEnd_of_getLast?_ne_nil (h : texts.getLast? ≠ some []) : cleanEnd lines texts = texts := by
  unfold cleanEnd
  split
  · rename_i hlast
    exact absurd hlast h
  · rfl

theorem cleanStart_of_head? {l : Line} (hl : lines.head? = some l)
    (htexts : texts.head? = some []) :
    cleanStart lines texts =
      if Connective.startsWith l.sql then texts else editFirst Connective.dropLeading texts := by
  rw [cleanStart, hl, htexts]

theorem cleanEnd_of_all_isEmpty (h : texts.all List.isEmpty = true) :
    cleanEnd lines texts = texts := by
  unfold cleanEnd
  split
  · split
    · rfl
    · exact editLast_of_all_isEmpty h
  · rfl

theorem all_isEmpty_append_cons :
    (before ++ t :: after).all List.isEmpty = true ↔
      before.all List.isEmpty = true ∧ t = [] ∧ after.all List.isEmpty = true := by
  rw [List.all_append, List.all_cons, Bool.and_eq_true, Bool.and_eq_true, List.isEmpty_iff]

/-- Whether the end is cleaned depends on the lines alone, where the last one has no text. -/
theorem cleanEnd_eq_self_or_editLast (lines : List Line) :
    (∀ texts, texts.getLast? = some [] → cleanEnd lines texts = texts) ∨
      ∀ texts, texts.getLast? = some [] →
        cleanEnd lines texts = editLast Connective.dropTrailing texts := by
  cases hline : lines.getLast? with
  | none =>
      left
      intro texts _
      rw [cleanEnd, hline]
  | some l =>
      cases hends : Connective.endsWith l.sql with
      | true =>
          left
          intro texts hlast
          rw [cleanEnd_of_getLast? hline hlast, if_pos hends]
      | false =>
          right
          intro texts hlast
          rw [cleanEnd_of_getLast? hline hlast, hends]
          rfl

/-- Cleaning the end treats the first text that is left like any other in its place. It changes that
text only where it is the last one as well. -/
theorem cleanEnd_append (lines : List Line) (hbefore : before.all List.isEmpty = true)
    (after : List Text) :
    (∃ cleaned, ∀ x, cleanEnd lines (before ++ x :: after) = before ++ x :: cleaned) ∨
      after.all List.isEmpty = true ∧
        ∀ x, cleanEnd lines (before ++ x :: after) =
          before ++ Connective.dropTrailing x :: after := by
  have hall : ∀ x, x = [] → after.all List.isEmpty = true →
      (before ++ x :: after).all List.isEmpty = true := by
    intro x hx hafter
    exact all_isEmpty_append_cons.2 ⟨hbefore, hx, hafter⟩
  by_cases hnil : after = []
  · left
    refine ⟨after, fun x => ?_⟩
    by_cases hx : x = []
    · exact cleanEnd_of_all_isEmpty (hall x hx (by rw [hnil]; rfl))
    · rw [hnil, cleanEnd_of_getLast?_ne_nil]
      rw [List.getLast?_concat]
      exact fun h => hx (Option.some.inj h)
  have hlast : ∀ x, (before ++ x :: after).getLast? = after.getLast? := by
    intro x
    rw [List.getLast?_append, List.getLast?_cons_of_ne_nil hnil, List.getLast?_eq_some_getLast hnil]
    rfl
  by_cases hempty : after.getLast? = some []
  · rcases cleanEnd_eq_self_or_editLast lines with hclean | hclean
    · left
      exact ⟨after, fun x => hclean _ ((hlast x).trans hempty)⟩
    · by_cases hafter : after.all List.isEmpty = true
      · right
        refine ⟨hafter, fun x => ?_⟩
        rw [hclean _ ((hlast x).trans hempty)]
        by_cases hx : x = []
        · rw [editLast_of_all_isEmpty (hall x hx hafter), hx, Connective.dropTrailing_nil]
        · exact editLast_append hafter hx
      · left
        refine ⟨editLast Connective.dropTrailing after, fun x => ?_⟩
        rw [hclean _ ((hlast x).trans hempty), List.append_cons,
          editLast_append_of_not_all (by simpa using hafter), ← List.append_cons]
  · left
    refine ⟨after, fun x => ?_⟩
    rw [cleanEnd_of_getLast?_ne_nil]
    rwa [hlast]

/-- The connective in front of the first text that is left is gone from the block exactly if it is
taken off, or if it is the whole text and taken off behind. -/
theorem join_cleanEnd_eq_iff {u rest : Text} (hu : u ≠ []) (hparted : Parted u rest)
    (hbefore : before.all List.isEmpty = true) :
    join (cleanEnd lines (before ++ (u ++ rest) :: after)) =
        join (cleanEnd lines (before ++ rest :: after)) ↔
      (cleanEnd lines (before ++ (u ++ rest) :: after)).all List.isEmpty = true := by
  have hlength : rest.length < (u ++ rest).length := by
    have := List.length_pos_iff.2 hu
    rw [List.length_append]
    omega
  rcases cleanEnd_append lines hbefore after with ⟨cleaned, hcleaned⟩ | ⟨hafter, hcleaned⟩
  · rw [hcleaned, hcleaned]
    constructor
    · intro h
      have hshorter := @length_join_lt before cleaned rest (u ++ rest) hlength
      rw [h] at hshorter
      exact absurd hshorter (Nat.lt_irrefl _)
    · intro h
      rw [all_isEmpty_append_cons, List.append_eq_nil_iff] at h
      exact absurd h.2.1.1 hu
  · rw [hcleaned, hcleaned, all_isEmpty_append_cons]
    by_cases hgone : Connective.dropTrailing (u ++ rest) = []
    · rw [hgone, Connective.dropTrailing_eq_nil_of_append hu hparted hgone]
      exact ⟨fun _ => ⟨hbefore, rfl, hafter⟩, fun _ => rfl⟩
    · constructor
      · intro h
        have hshorter := @length_join_lt before after _ _
          (Connective.length_dropTrailing_lt hu hparted hgone)
        rw [h] at hshorter
        exact absurd hshorter (Nat.lt_irrefl _)
      · intro h
        exact absurd h.2.1 hgone

/-- Cleaning the start changes the last text that is left only where it is the first one as well. -/
theorem cleanStart_append (lines : List Line) (before : List Text) (ht : t ≠ [])
    (after : List Text) :
    (∃ cleaned, cleanStart lines (before ++ t :: after) = cleaned ++ t :: after) ∨
      before.all List.isEmpty = true ∧
        cleanStart lines (before ++ t :: after) = before ++ Connective.dropLeading t :: after := by
  unfold cleanStart
  split
  · split
    · exact .inl ⟨before, rfl⟩
    · by_cases hbefore : before.all List.isEmpty = true
      · exact .inr ⟨hbefore, editFirst_append hbefore ht⟩
      · exact .inl ⟨_, editFirst_append_of_not_all (by simpa using hbefore)⟩
  · exact .inl ⟨before, rfl⟩

theorem getLast?_cleanStart (h : texts.getLast? = some []) :
    (cleanStart lines texts).getLast? = some [] := by
  unfold cleanStart
  split
  · split
    · exact h
    · exact getLast?_editFirst h
  · exact h

theorem join_editLast_ne {r : Text} (hafter : after.all List.isEmpty = true)
    (hr : Connective.beforeTrailing? Connective.joining x = some r) :
    join (editLast Connective.dropTrailing (before ++ x :: after)) ≠
      join (before ++ x :: after) := by
  have hx : x ≠ [] := by
    rintro rfl
    exact absurd (hr.symm.trans rfl) (Option.some_ne_none r)
  have hdrop : Connective.dropTrailing x = r := by
    rw [Connective.dropTrailing, hr]
    rfl
  intro h
  rw [editLast_append hafter hx, hdrop] at h
  have hshorter := @length_join_lt before after r x (Connective.length_lt_of_beforeTrailing? hr)
  rw [h] at hshorter
  exact absurd hshorter (Nat.lt_irrefl _)

/-- The connective behind the last text that is left is still there after the start is cleaned, if
anything is. -/
theorem join_editLast_cleanStart_eq_iff (hafter : after.all List.isEmpty = true)
    (ht : (Connective.beforeTrailing? Connective.joining t).isSome = true) :
    join (editLast Connective.dropTrailing (cleanStart lines (before ++ t :: after))) =
        join (cleanStart lines (before ++ t :: after)) ↔
      (cleanStart lines (before ++ t :: after)).all List.isEmpty = true := by
  obtain ⟨r, hr⟩ := Option.isSome_iff_exists.1 ht
  have hne : t ≠ [] := by
    rintro rfl
    exact absurd (hr.symm.trans rfl) (Option.some_ne_none r)
  constructor
  · intro h
    rcases cleanStart_append lines before hne after with ⟨cleaned, hcleaned⟩ | ⟨hbefore, hcleaned⟩
    · rw [hcleaned] at h
      exact absurd h (join_editLast_ne hafter hr)
    · rw [hcleaned, Connective.dropLeading] at h ⊢
      cases hlead : Connective.afterLeading? t with
      | none =>
          rw [hlead] at h
          exact absurd h (join_editLast_ne hafter hr)
      | some rest =>
          obtain ⟨u, rfl, -, hparted⟩ := Connective.exists_parted_of_afterLeading? hlead
          rw [hlead] at h
          by_cases hrest : rest = []
          · exact all_isEmpty_append_cons.2 ⟨hbefore, hrest, hafter⟩
          · rw [Connective.isSome_beforeTrailing?_append hrest hparted] at ht
            obtain ⟨v, hv⟩ := Option.isSome_iff_exists.1 ht
            exact absurd h (join_editLast_ne hafter hv)
  · intro h
    rw [editLast_of_all_isEmpty h]

/-- The first line has no text and was written without a connective in front, and the first text
that is left begins with one. -/
structure DanglesInFront (lines : List Line) (texts : List Text) (l : Line) : Prop where
  line : lines.head? = some l
  missing : texts.head? = some []
  written : Connective.startsWith l.asWritten = false
  connective : ∃ t, texts.find? (fun t => !t.isEmpty) = some t ∧
    (Connective.afterLeading? t).isSome = true

/-- The last line has no text and was written without a connective behind, and the last text that is
left ends with one. -/
structure DanglesBehind (lines : List Line) (texts : List Text) (l : Line) : Prop where
  line : lines.getLast? = some l
  missing : texts.getLast? = some []
  written : Connective.endsWith l.asWritten = false
  connective : ∃ t, texts.reverse.find? (fun t => !t.isEmpty) = some t ∧
    (Connective.beforeTrailing? Connective.joining t).isSome = true

variable {l : Line}

/-- Where no directive is cut out, a connective that dangles is always removed. -/
theorem DanglesInFront.startsWith_sql (h : DanglesInFront lines texts l) (hl : l.splices = []) :
    Connective.startsWith l.sql = false := by
  rw [← Line.asWritten_of_splices_eq_nil hl]
  exact h.written

theorem DanglesBehind.endsWith_sql (h : DanglesBehind lines texts l) (hl : l.splices = []) :
    Connective.endsWith l.sql = false := by
  rw [← Line.asWritten_of_splices_eq_nil hl]
  exact h.written

theorem DanglesInFront.join_eq_iff (h : DanglesInFront lines texts l) :
    join (cleanEnd lines (cleanStart lines texts)) =
        join (cleanEnd lines (editFirst Connective.dropLeading texts)) ↔
      Connective.startsWith l.sql = false ∨ (cleanEnd lines texts).all List.isEmpty = true := by
  rw [cleanStart_of_head? h.line h.missing]
  cases hl : Connective.startsWith l.sql with
  | false => simp
  | true =>
      obtain ⟨t, hfind, hsome⟩ := h.connective
      obtain ⟨hne, before, after, rfl, hbefore⟩ := List.find?_eq_some_iff_append.1 hfind
      obtain ⟨rest, hrest⟩ := Option.isSome_iff_exists.1 hsome
      obtain ⟨u, rfl, hu, hparted⟩ := Connective.exists_parted_of_afterLeading? hrest
      have hall : before.all List.isEmpty = true := by
        rw [List.all_eq_true]
        intro b hb
        simpa using hbefore b hb
      have hdrop : Connective.dropLeading (u ++ rest) = rest := by
        rw [Connective.dropLeading, hrest]
        rfl
      rw [if_pos rfl, editFirst_append hall (by simpa using hne), hdrop,
        join_cleanEnd_eq_iff hu hparted hall]
      simp

theorem DanglesBehind.join_eq_iff (h : DanglesBehind lines texts l) :
    join (cleanEnd lines (cleanStart lines texts)) =
        join (editLast Connective.dropTrailing (cleanStart lines texts)) ↔
      Connective.endsWith l.sql = false ∨ (cleanStart lines texts).all List.isEmpty = true := by
  rw [cleanEnd_of_getLast? h.line (getLast?_cleanStart h.missing)]
  cases hl : Connective.endsWith l.sql with
  | false => simp
  | true =>
      obtain ⟨t, hfind, hsome⟩ := h.connective
      obtain ⟨-, after, before, hreverse, hafter⟩ := List.find?_eq_some_iff_append.1 hfind
      have htexts : texts = before.reverse ++ t :: after.reverse := by
        rw [← List.reverse_reverse texts, hreverse]
        simp
      have hall : after.reverse.all List.isEmpty = true := by
        rw [List.all_reverse, List.all_eq_true]
        intro b hb
        simpa using hafter b hb
      rw [if_pos rfl, htexts, eq_comm, join_editLast_cleanStart_eq_iff hall hsome]
      simp

theorem assemble_of_not_all_isEmpty {results : List (Option Fragment)}
    (h : (results.map textOf).all List.isEmpty = false) :
    assemble lines results =
      some ⟨join (cleanEnd lines (cleanStart lines (results.map textOf))),
        results.flatMap valuesOf⟩ := by
  unfold assemble
  simp only [h]
  rfl

/-- A connective that dangles in front of a block is removed exactly if the text of the first line
does not begin with one when its directives are cut out, or if the text that it stands in is nothing
more and is removed from behind. The same holds for a connective that dangles behind. -/
theorem connectives_removed_iff [Runtime] {s : Scope} {lines : List Line}
    {results : List (Option Fragment)}
    (hresults : Line.renderAll s lines = .ok results) :
    let texts := results.map textOf
    (∀ l, DanglesInFront lines texts l →
      ∃ f, render s lines = .ok (some f) ∧
        (f.sql = join (cleanEnd lines (editFirst Connective.dropLeading texts)) ↔
          Connective.startsWith l.sql = false ∨ (cleanEnd lines texts).all List.isEmpty = true)) ∧
    ∀ l, DanglesBehind lines texts l →
      ∃ f, render s lines = .ok (some f) ∧
        (f.sql = join (editLast Connective.dropTrailing (cleanStart lines texts)) ↔
          Connective.endsWith l.sql = false ∨
            (cleanStart lines texts).all List.isEmpty = true) := by
  intro texts
  constructor
  · intro l hl
    obtain ⟨t, hfind, -⟩ := hl.connective
    have hleft : texts.all List.isEmpty = false := by
      rw [List.all_eq_false]
      exact ⟨t, List.mem_of_find?_eq_some hfind, by simpa using List.find?_some hfind⟩
    exact ⟨_, (render_eq_ok hresults).trans (congrArg _ (assemble_of_not_all_isEmpty hleft)),
      hl.join_eq_iff⟩
  · intro l hl
    obtain ⟨t, hfind, -⟩ := hl.connective
    have hleft : texts.all List.isEmpty = false := by
      rw [List.all_eq_false]
      exact ⟨t, List.mem_reverse.1 (List.mem_of_find?_eq_some hfind),
        by simpa using List.find?_some hfind⟩
    exact ⟨_, (render_eq_ok hresults).trans (congrArg _ (assemble_of_not_all_isEmpty hleft)),
      hl.join_eq_iff⟩

/-- A condition in front of a line that is kept. -/
def leadingCondition : Line :=
  .mk "   AND b = 2".toList 3 3
    [.directive 2
      { source := "?x".toList
        expression := [.reference .condition "x".toList false]
        sample := some "1".toList
        comparison := some ⟨"a".toList, "=".toList⟩
        line := some 3 }] none

/-- A range behind a line that is kept. -/
def trailingRange : Line :=
  .mk "  d BETWEEN  AND ".toList 5 5
    [.directive 12
        { source := "$y".toList
          expression := [.reference .param "y".toList false]
          sample := some "1".toList
          comparison := none
          line := some 5 },
      .directive 17
        { source := "$z".toList
          expression := [.reference .param "z".toList false]
          sample := some "9".toList
          comparison := none
          line := some 5 }] none

/-- A line that is kept between two that are dropped. -/
def conditionAndRange : List Line :=
  [leadingCondition, .mk "  AND c = 3 AND".toList 4 4 [] none, trailingRange]

def conditionAndRangeTexts : List Text := [[], "AND c = 3 AND".toList, []]

theorem danglesInFront_leadingCondition :
    DanglesInFront conditionAndRange conditionAndRangeTexts leadingCondition where
  line := rfl
  missing := rfl
  written := by decide
  connective := ⟨"AND c = 3 AND".toList, rfl, by decide⟩

theorem danglesBehind_trailingRange :
    DanglesBehind conditionAndRange conditionAndRangeTexts trailingRange where
  line := rfl
  missing := rfl
  written := by decide
  connective := ⟨"AND c = 3 AND".toList, rfl, by decide⟩

theorem renderAll_conditionAndRange :
    Line.renderAll ⟨.standard, none, .empty⟩ conditionAndRange =
      .ok [none, some ⟨"AND c = 3 AND".toList, []⟩, none] := by
  rfl

theorem connectives_removed_iff_conditionAndRange :
    let lines := conditionAndRange
    let texts := conditionAndRangeTexts
    DanglesInFront lines texts leadingCondition ∧ DanglesBehind lines texts trailingRange ∧
      (∃ f, render ⟨.standard, none, .empty⟩ lines = .ok (some f) ∧
        (f.sql = join (cleanEnd lines (editFirst Connective.dropLeading texts)) ↔
          Connective.startsWith leadingCondition.sql = false ∨
            (cleanEnd lines texts).all List.isEmpty = true)) ∧
      ∃ f, render ⟨.standard, none, .empty⟩ lines = .ok (some f) ∧
        (f.sql = join (editLast Connective.dropTrailing (cleanStart lines texts)) ↔
          Connective.endsWith trailingRange.sql = false ∨
            (cleanStart lines texts).all List.isEmpty = true) :=
  ⟨danglesInFront_leadingCondition, danglesBehind_trailingRange,
    (connectives_removed_iff renderAll_conditionAndRange).1 _ danglesInFront_leadingCondition,
    (connectives_removed_iff renderAll_conditionAndRange).2 _ danglesBehind_trailingRange⟩

/-- A statement that is left with a connective at both ends of its conditions. -/
def conditionAndRangeTemplate : Template where
  lines :=
    [.mk "SELECT * FROM t".toList 1 1 [] none,
      .mk "WHERE".toList 2 2 [] (some conditionAndRange)]
  resource := none

theorem connectives_left_conditionAndRange :
    let text : Text :=
      ("SELECT * FROM t\nWHERE\n  a = /* ?x */1 AND b = 2\n  AND c = 3 AND\n" ++
        "  d BETWEEN /* $y */1 AND /* $z */9").toList
    let t := conditionAndRangeTemplate
    let lines := conditionAndRange
    let texts := conditionAndRangeTexts
    Template.parse .standard none text = .ok t ∧ lines ∈ t.blocks ∧
      Renderer.standard.render t .empty = .ok ⟨"SELECT * FROM t WHERE AND c = 3 AND".toList, []⟩ ∧
      (∃ results, Line.renderAll ⟨.standard, t.resource, .empty⟩ lines = .ok results ∧
        results.map textOf = texts) ∧
      DanglesInFront lines texts leadingCondition ∧ DanglesBehind lines texts trailingRange ∧
      ∃ f, render ⟨.standard, t.resource, .empty⟩ lines = .ok (some f) ∧
        f.sql ≠ join (cleanEnd lines (editFirst Connective.dropLeading texts)) ∧
        f.sql ≠ join (editLast Connective.dropTrailing (cleanStart lines texts)) := by
  intro text t lines texts
  have ht : Template.parse .standard none text = .ok t := by with_unfolding_all rfl
  have hlines : lines ∈ t.blocks := List.mem_cons_of_mem _ (List.mem_cons_self ..)
  refine ⟨ht, hlines, rfl, ⟨_, renderAll_conditionAndRange, rfl⟩, danglesInFront_leadingCondition,
    danglesBehind_trailingRange, _, render_eq_ok renderAll_conditionAndRange, ?_, ?_⟩
  · decide
  · decide

end Block

end SqlTemplate
