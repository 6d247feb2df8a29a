import SqlTemplate.Proofs.Line.Weaving
import SqlTemplate.Proofs.Rendering.Steps

/-!
# Rendering one behind the other

The parts of a line are rendered from left to right, and a part that drops the line keeps what is behind
it from being rendered. `Fragment.andThen` puts the results of two parts together in this way. It is
associative, so a line can be taken apart anywhere: at its first splice (`renderSplices_cons`), and
where texts with fitting splices have been put one behind the other (`renderSplices_append`).
-/

namespace SqlTemplate

namespace Fragment

theorem append_assoc (f g k : Fragment) : f ++ g ++ k = f ++ (g ++ k) :=
  congrArg₂ Fragment.mk (List.append_assoc ..) (List.append_assoc ..)

/-- What two parts of a line render one after the other: nothing is rendered of the second one if the
first one drops the line. -/
def andThen (front rest : Except RenderError (Option Fragment)) :
    Except RenderError (Option Fragment) := do
  match ← front with
  | none => return none
  | some f => return (← rest).map (f ++ ·)

theorem andThen_assoc (x y z : Except RenderError (Option Fragment)) :
    andThen (andThen x y) z = andThen x (andThen y z) := by
  rcases x with e | _ | f
  · rfl
  · rfl
  · rcases y with e | _ | g
    · rfl
    · rfl
    · rcases z with e | _ | k
      · rfl
      · rfl
      · exact congrArg (fun f => Except.ok (some f)) (append_assoc f g k)

theorem empty_andThen (result : Except RenderError (Option Fragment)) :
    andThen (.ok (some ⟨[], []⟩)) result = result := by
  rcases result with e | _ | f <;> rfl

theorem andThen_empty (result : Except RenderError (Option Fragment)) :
    andThen result (.ok (some ⟨[], []⟩)) = result := by
  rcases result with e | _ | f
  · rfl
  · rfl
  · exact congrArg (fun f => Except.ok (some f))
      (congrArg₂ Fragment.mk (List.append_nil _) (List.append_nil _))

theorem andThen_some_some (f g : Fragment) (rest : Except RenderError (Option Fragment)) :
    andThen (.ok (some f)) (andThen (.ok (some g)) rest) = do
      let after ← rest
      return after.map (f ++ g ++ ·) := by
  rw [← andThen_assoc]
  rfl

end Fragment

open Fragment

variable {s : Scope}

/-- What goes where a splice stood, or nothing if it drops its line. -/
def Splice.render [Runtime] (s : Scope) : Splice → Except RenderError (Option Fragment)
  | .directive _ d => do
    let c ← d.evaluate s
    return if c.dropsLine then none else some (d.output c)
  | .group _ lines => do
    match Block.assemble lines (← Line.renderAll s lines), lines with
    | none, _ :: _ => return none
    | content, _ => return some (content.getD .empty)

@[simp] theorem Splice.render_shift [Runtime] (delta : Nat) (x : Splice) :
    (x.shift delta).render s = x.render s := by
  cases x <;> rfl

namespace Line

open Splice

theorem renderSplices_cons [Runtime] (start : Nat) (rest : Text) (x : Splice)
    (splices : List Splice) :
    renderSplices s start rest (x :: splices) =
      andThen (.ok (some ⟨rest.take (x.offset - start), []⟩))
        (andThen (x.render s)
          (renderSplices s x.offset (rest.drop (x.offset - start)) splices)) := by
  cases x with
  | directive offset d =>
    rw [renderSplices, Splice.render]
    cases d.evaluate s with
    | error e => rfl
    | ok c =>
      rw [ok_bind, ok_bind]
      split
      · rfl
      · exact (andThen_some_some ..).symm
  | group offset lines =>
    rw [renderSplices, Splice.render]
    cases renderAll s lines with
    | error e => rfl
    | ok results =>
      rw [ok_bind, ok_bind]
      cases Block.assemble lines results with
      | some content => exact (andThen_some_some ..).symm
      | none =>
        cases lines with
        | nil => exact (andThen_some_some ..).symm
        | cons l ls => rfl

theorem renderSplices_map_shift [Runtime] (delta start : Nat) (rest : Text)
    (splices : List Splice) :
    renderSplices s (start + delta) rest (splices.map (shift delta)) =
      renderSplices s start rest splices := by
  induction splices generalizing start rest with
  | nil => rw [List.map_nil, renderSplices, renderSplices]
  | cons x splices ih =>
    have hwidth : x.offset + delta - (start + delta) = x.offset - start := by omega
    rw [List.map_cons, renderSplices_cons, renderSplices_cons, offset_shift, render_shift, hwidth, ih]

theorem renderSplices_append_map_shift [Runtime] (start : Nat) (rest u : Text)
    (others : List Splice) :
    renderSplices s start (rest ++ u) (others.map (shift (start + rest.length))) =
      andThen (.ok (some ⟨rest, []⟩)) (renderSplices s 0 u others) := by
  cases others with
  | nil =>
    rw [List.map_nil, renderSplices, renderSplices]
    rfl
  | cons x others =>
    have hwidth : x.offset + (start + rest.length) - start = rest.length + x.offset := by omega
    rw [List.map_cons, renderSplices_cons, renderSplices_cons, offset_shift, render_shift, hwidth,
      List.take_length_add_append, List.drop_length_add_append, renderSplices_map_shift, Nat.sub_zero,
      ← andThen_assoc (.ok (some ⟨rest, []⟩))]
    rfl

theorem renderSplices_append_from [Runtime] (start : Nat) (rest u : Text) {splices : List Splice}
    (others : List Splice) (hsorted : splices.Pairwise fun x x' => x.offset ≤ x'.offset)
    (hbound : ∀ x ∈ splices, start ≤ x.offset ∧ x.offset ≤ start + rest.length) :
    renderSplices s start (rest ++ u) (splices ++ others.map (shift (start + rest.length))) =
      andThen (renderSplices s start rest splices) (renderSplices s 0 u others) := by
  induction splices generalizing start rest with
  | nil =>
    rw [renderSplices]
    exact renderSplices_append_map_shift start rest u others
  | cons x splices ih =>
    obtain ⟨⟨hstart, hstop⟩, hbound⟩ := List.forall_mem_cons.1 hbound
    obtain ⟨hfirst, hsorted⟩ := List.pairwise_cons.1 hsorted
    have hlength : x.offset - start ≤ rest.length := by omega
    have hrest : x.offset + (rest.drop (x.offset - start)).length = start + rest.length := by
      rw [List.length_drop]
      omega
    have hnext := ih x.offset (rest.drop (x.offset - start)) hsorted (by
      intro x' hx'
      rw [hrest]
      exact ⟨hfirst x' hx', (hbound x' hx').2⟩)
    rw [hrest] at hnext
    rw [List.cons_append, renderSplices_cons, renderSplices_cons,
      List.take_append_of_le_length hlength, List.drop_append_of_le_length hlength, hnext,
      andThen_assoc, andThen_assoc]

/-- What lines render that are put one behind the other. -/
theorem renderSplices_append [Runtime] {t : Text} {splices : List Splice} (h : Fit t splices)
    (u : Text)
    (others : List Splice) :
    renderSplices s 0 (t ++ u) (splices ++ others.map (shift t.length)) =
      andThen (renderSplices s 0 t splices) (renderSplices s 0 u others) := by
  have happended := renderSplices_append_from 0 t u others h.sorted (s := s) (by
    intro x hx
    rw [Nat.zero_add]
    exact ⟨Nat.zero_le _, h.bounded x hx⟩)
  rwa [Nat.zero_add] at happended

end Line

namespace Splice

variable {t : Text} {ss : List Splice}

theorem fit_directive (x : Directive) : Fit [] [.directive 0 x] :=
  ⟨List.pairwise_singleton _ _, by simp [offset], by simp [lines?]⟩

theorem Fit.append_text (h : Fit t ss) (p : Text) : Fit (t ++ p) ss := by
  simpa using h.append (fit_nil p)

theorem Fit.append_directive (h : Fit t ss) (x : Directive) :
    Fit t (ss ++ [.directive t.length x]) := by
  simpa [shift] using h.append (fit_directive x)

theorem Fit.renderSplices_text [Runtime] (h : Fit t ss) (p : Text) :
    Line.renderSplices s 0 (t ++ p) ss =
      andThen (Line.renderSplices s 0 t ss) (.ok (some ⟨p, []⟩)) := by
  have happended := Line.renderSplices_append (s := s) h p []
  rwa [List.map_nil, List.append_nil, Line.renderSplices] at happended

theorem Fit.renderSplices_directive [Runtime] (h : Fit t ss) (x : Directive) :
    Line.renderSplices s 0 t (ss ++ [.directive t.length x]) =
      andThen (Line.renderSplices s 0 t ss) ((directive t.length x).render s) := by
  have happended := Line.renderSplices_append (s := s) h [] [.directive 0 x]
  rw [List.append_nil, Line.renderSplices_cons, Line.renderSplices, List.take_nil,
    List.drop_nil, empty_andThen, andThen_empty, List.map_singleton, shift, Nat.zero_add] at happended
  exact happended

end Splice

end SqlTemplate
