import Mathlib.Data.List.Chain
import SqlTemplate.Proofs.Template.Reading

/-!
# The lines of the source that lines stand on

A line of a template stands on one or several lines of its source. What is spliced into it must
stand on the same ones (`Line.Ranged`), and the lines of a list must follow each other without a gap
(`Line.Tile`). Drafts are measured as if they ended on a given line of the source, so that being
ranged is kept by everything that reading does to a draft (`Draft.Ranged.extend`).
-/

namespace SqlTemplate

namespace Splice

/-- What is spliced into a line that stands on the lines from `first` to `last` stands there too:
the comments of the directives begin there, and the lines of the spans are among these lines. -/
structure Within (first last : Nat) (splices : List Splice) : Prop where
  directives : ∀ d ∈ splices.filterMap directive?, ∃ n, d.line = some n ∧ first ≤ n ∧ n ≤ last
  lines : ∀ l ∈ deepAll splices, first ≤ l.first ∧ l.last ≤ last

variable {first last : Nat} {splices others : List Splice}

theorem within_nil (first last : Nat) : Within first last [] :=
  ⟨List.forall_mem_nil _, List.forall_mem_nil _⟩

theorem Within.mono (h : Within first last splices) {first' last' : Nat} (hfirst : first' ≤ first)
    (hlast : last ≤ last') : Within first' last' splices := by
  constructor
  · intro d hd
    obtain ⟨n, hn, hge, hle⟩ := h.directives d hd
    exact ⟨n, hn, hfirst.trans hge, hle.trans hlast⟩
  · intro l hl
    obtain ⟨hge, hle⟩ := h.lines l hl
    exact ⟨hfirst.trans hge, hle.trans hlast⟩

theorem Within.append (h : Within first last splices) (hothers : Within first last others) :
    Within first last (splices ++ others) := by
  constructor
  · intro d hd
    rw [List.filterMap_append] at hd
    exact (List.mem_append.1 hd).elim (h.directives d) (hothers.directives d)
  · intro l hl
    rw [deepAll_append] at hl
    exact (List.mem_append.1 hl).elim (h.lines l) (hothers.lines l)

theorem Within.map_shift (h : Within first last splices) (delta : Nat) :
    Within first last (splices.map (shift delta)) := by
  have hshift : (fun s : Splice => (s.shift delta).directive?) = directive? := by
    funext s
    cases s <;> rfl
  constructor
  · rw [List.filterMap_map, Function.comp_def, hshift]
    exact h.directives
  · rw [deepAll_map_shift]
    exact h.lines

end Splice

namespace Line

@[simp] theorem first_withChildren (children : List Line) (l : Line) :
    (l.withChildren children).first = l.first := by cases l; rfl

@[simp] theorem last_withChildren (children : List Line) (l : Line) :
    (l.withChildren children).last = l.last := by cases l; rfl

/-- A line that does not end before it begins, and what is spliced into it stands where it does. -/
structure Ranged (l : Line) : Prop where
  ordered : l.first ≤ l.last
  splices : Splice.Within l.first l.last l.splices

theorem Ranged.of_withChildren {l m : Line} (h : m.Ranged)
    (heq : l.withChildren [] = m.withChildren []) : l.Ranged := by
  have hfirst := congrArg first heq
  have hlast := congrArg last heq
  have hsplices := congrArg Line.splices heq
  rw [first_withChildren, first_withChildren] at hfirst
  rw [last_withChildren, last_withChildren] at hlast
  rw [splices_withChildren, splices_withChildren] at hsplices
  constructor
  · rw [hfirst, hlast]
    exact h.ordered
  · rw [hfirst, hlast, hsplices]
    exact h.splices

/-- Nesting keeps lines and the lines in their spans ranged and on the lines where they stand. -/
theorem ranged_of_mem_nest {lines : List Line} {first last : Nat}
    (h : ∀ l ∈ lines, (∀ k ∈ l.deep, k.Ranged) ∧ first ≤ l.first ∧ l.last ≤ last) {l : Line}
    (hl : l ∈ deepAll (nest lines)) : l.Ranged ∧ first ≤ l.first ∧ l.last ≤ last := by
  obtain ⟨k, hk, -, m, hm, heq⟩ := exists_of_mem_deepAll_nest hl
  obtain ⟨hranged, hfirst, hlast⟩ := h k hk
  have hinside : m.Ranged ∧ k.first ≤ m.first ∧ m.last ≤ k.last := by
    rcases List.mem_cons.1 hm with rfl | hm
    · exact ⟨hranged m m.mem_deep_self, Nat.le_refl _, Nat.le_refl _⟩
    · exact ⟨hranged m (mem_deep_of_mem (.inl hm)), (hranged k k.mem_deep_self).splices.lines m hm⟩
  obtain ⟨hm, hge, hle⟩ := hinside
  have hfirsts := congrArg Line.first heq
  have hlasts := congrArg Line.last heq
  rw [first_withChildren, first_withChildren] at hfirsts
  rw [last_withChildren, last_withChildren] at hlasts
  refine ⟨hm.of_withChildren heq, ?_, ?_⟩
  · rw [hfirsts]
    exact hfirst.trans hge
  · rw [hlasts]
    exact hle.trans hlast

/-- Lines that follow each other without a gap: the first one begins on the line `first` of the
source, each following one on the line behind the one before it, and the last one ends on the line
`last`. -/
structure Tile (first last : Nat) (lines : List Line) : Prop where
  head : lines.head?.map Line.first = some first
  chain : lines.IsChain fun l next => next.first = l.last + 1
  getLast : lines.getLast?.map Line.last = some last

theorem Tile.cons {l : Line} {ls : List Line} {last : Nat} (h : Tile (l.last + 1) last ls) :
    Tile l.first last (l :: ls) := by
  obtain ⟨k, hk, hfirst⟩ := Option.map_eq_some_iff.1 h.head
  obtain ⟨ls, rfl⟩ := List.head?_eq_some_iff.1 hk
  refine ⟨rfl, List.isChain_cons_cons.2 ⟨hfirst, h.chain⟩, ?_⟩
  rw [List.getLast?_cons_cons]
  exact h.getLast

/-- Lines that follow each other without a gap from the line `start` of the source up to the line
`stop`, which is not reached. There may be none. -/
def Reach (start stop : Nat) : List Line → Prop
  | [] => start = stop
  | l :: ls => l.first = start ∧ Reach (l.last + 1) stop ls

variable {start stop : Nat} {lines : List Line}

theorem Reach.concat (h : Reach start stop lines) {l : Line} (hl : l.first = stop) :
    Reach start (l.last + 1) (lines ++ [l]) := by
  induction lines generalizing start with
  | nil => exact ⟨hl.trans h.symm, rfl⟩
  | cons k ls ih => exact ⟨h.1, ih h.2⟩

/-- Lines up to a line, and this line, follow each other without a gap. -/
theorem Reach.tile_concat (h : Reach start stop lines) {l : Line} (hl : l.first = stop) :
    Tile start l.last (lines ++ [l]) := by
  induction lines generalizing start with
  | nil => exact ⟨congrArg some (hl.trans h.symm), List.isChain_singleton l, rfl⟩
  | cons k ls ih =>
      obtain ⟨rfl, hrest⟩ := h
      exact (ih hrest).cons

/-- Lines that follow each other stand between the ends, if none ends before it begins. -/
theorem Reach.bounds (h : Reach start stop lines) (hordered : ∀ l ∈ lines, l.first ≤ l.last) :
    start ≤ stop ∧ ∀ l ∈ lines, start ≤ l.first ∧ l.last < stop := by
  induction lines generalizing start with
  | nil => exact ⟨Nat.le_of_eq h, List.forall_mem_nil _⟩
  | cons k ls ih =>
      obtain ⟨hk, hls⟩ := List.forall_mem_cons.1 hordered
      obtain ⟨rfl, hrest⟩ := h
      obtain ⟨hstop, hinside⟩ := ih hrest hls
      refine ⟨by omega, List.forall_mem_cons.2 ⟨⟨Nat.le_refl _, by omega⟩, ?_⟩⟩
      intro l hl
      obtain ⟨hge, hlt⟩ := hinside l hl
      exact ⟨by omega, hlt⟩

end Line

namespace Draft

/-- A draft that would be a ranged line with ranged lines in its spans if it ended on `line`. -/
structure Ranged (line : Nat) (d : Draft) : Prop where
  ordered : d.first ≤ line
  splices : Splice.Within d.first line d.splices
  inner : ∀ l ∈ Splice.deepAll d.splices, l.Ranged

variable {registry : Registry} {line : Nat} {d : Draft}

theorem ranged_start (line : Nat) : (start line).Ranged line :=
  ⟨Nat.le_refl _, Splice.within_nil _ _, List.forall_mem_nil _⟩

theorem Ranged.mono (h : d.Ranged line) {line' : Nat} (hline : line ≤ line') : d.Ranged line' :=
  ⟨h.ordered.trans hline, h.splices.mono (Nat.le_refl _) hline, h.inner⟩

/-- Splices that stand where the draft does may be added to it. -/
theorem Ranged.extend (h : d.Ranged line) {e : Draft} {more : List Splice}
    (hfirst : e.first = d.first) (hsplices : e.splices = d.splices ++ more)
    (hmore : Splice.Within d.first line more) (hinner : ∀ l ∈ Splice.deepAll more, l.Ranged) :
    e.Ranged line := by
  constructor
  · rw [hfirst]
    exact h.ordered
  · rw [hfirst, hsplices]
    exact h.splices.append hmore
  · intro l hl
    rw [hsplices, Splice.deepAll_append] at hl
    exact (List.mem_append.1 hl).elim (h.inner l) (hinner l)

theorem Ranged.write (h : d.Ranged line) (t : Text) : (d.write t).Ranged line :=
  h.extend rfl (List.append_nil _).symm (Splice.within_nil _ _)
    (List.forall_mem_nil _)

theorem first_takeMark (d : Draft) : d.takeMark.2.first = d.first := by
  rcases d.takeMark_cases with h | ⟨e, -, -, h⟩ <;> rw [h]

theorem first_takeFor (expression : Expression) (sample : Option Text) (d : Draft) :
    (d.takeFor expression sample).2.first = d.first := by
  unfold takeFor
  split
  · rcases d.takeComparison_cases with h | ⟨e, -, -, h⟩ <;> rw [h]
  · rfl

/-- A draft with one more directive on the line `line`. -/
structure Gains (line : Nat) (source : Text) (d e : Draft) : Prop where
  first : e.first = d.first
  splices : ∃ offset x, e.splices = d.splices ++ [.directive offset x] ∧
    x.source = source ∧ x.line = some line

theorem gains_addCompiled {e : Draft} (hfirst : e.first = d.first)
    (hsplices : e.splices = d.splices) (line : Nat) (source : Text) (expression : Expression)
    (sample : Option Text) : d.Gains line source (e.addCompiled line source expression sample) := by
  refine ⟨(first_takeFor expression sample e).trans hfirst, ?_⟩
  rw [splices_addCompiled, hsplices]
  exact ⟨_, _, rfl, rfl, rfl⟩

theorem gains_addLine {source : Text} {d' : Draft}
    (hd : d.addLine registry line source = .ok d') : d.Gains line source d' := by
  obtain ⟨expression, -, rfl⟩ := addLine_eq_ok hd
  exact gains_addCompiled (first_takeMark d) (splices_takeMark d).1 line source expression _

theorem gains_addBlock {source : Text} {sample : Option Text} {d' : Draft}
    (hd : d.addBlock registry line source sample = .ok d') : d.Gains line source d' := by
  obtain ⟨expression, -, rfl⟩ := addBlock_eq_ok hd
  exact gains_addCompiled rfl rfl line source expression sample

/-- A directive stands on the line that is being read. -/
theorem Ranged.gains (h : d.Ranged line) {source : Text} {e : Draft}
    (he : d.Gains line source e) : e.Ranged line := by
  obtain ⟨offset, x, hsplices, -, hline⟩ := he.splices
  refine h.extend he.first hsplices ⟨?_, ?_⟩ (List.forall_mem_nil _)
  · intro y hy
    obtain rfl := List.mem_singleton.1 hy
    exact ⟨line, hline, h.ordered, Nat.le_refl _⟩
  · exact List.forall_mem_nil _

/-- A line that is merged into a draft brings along what is spliced into it. -/
theorem Ranged.merge (h : d.Ranged line) {l : Line} (hl : ∀ k ∈ l.deep, k.Ranged)
    (hfirst : d.first ≤ l.first) (hlast : l.last ≤ line) : (d.merge l).Ranged line := by
  have hself : l.Ranged := hl l l.mem_deep_self
  refine h.extend rfl (splices_merge l d) ((hself.splices.mono hfirst hlast).map_shift _) ?_
  intro k hk
  rw [Splice.deepAll_map_shift] at hk
  exact hl k (Line.mem_deep_of_mem (.inl hk))

/-- Lines that become a group stand where the draft does. -/
theorem Ranged.addGroup (h : d.Ranged line) {lines : List Line}
    (hlines : ∀ l ∈ lines, (∀ k ∈ l.deep, k.Ranged) ∧ d.first ≤ l.first ∧ l.last ≤ line) :
    (d.addGroup (Line.nest lines)).Ranged line := by
  have hnest : ∀ {l}, l ∈ Splice.deepAll [.group (d.write ['(']).offset (Line.nest lines)] →
      l.Ranged ∧ d.first ≤ l.first ∧ l.last ≤ line := by
    intro l hl
    rw [Splice.deepAll, Splice.deepAll, List.append_nil] at hl
    exact Line.ranged_of_mem_nest hlines hl
  exact h.extend rfl (splices_addGroup _ d)
    ⟨List.forall_mem_nil _, fun l hl => (hnest hl).2⟩ fun l hl => (hnest hl).1

/-- The line of a ranged draft is ranged, and so are the lines in its spans. -/
theorem Ranged.finish (h : d.Ranged line) : ∀ k ∈ (d.finish line).deep, k.Ranged := by
  intro k hk
  rw [Line.deep_eq_cons] at hk
  rcases List.mem_cons.1 hk with rfl | hk
  · exact ⟨h.ordered, h.splices⟩
  · rcases List.mem_append.1 hk with hk | hk
    · exact h.inner k hk
    · exact absurd hk List.not_mem_nil

end Draft

end SqlTemplate
