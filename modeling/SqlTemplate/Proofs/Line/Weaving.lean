import SqlTemplate.Proofs.Line.Ending
import SqlTemplate.Proofs.Line.Forest

/-!
# Weaving splices back in

`Splice.weave` puts back what was taken out of the text of a line: the comparison and the sample of
every directive, and the lines of every span. Splices fit a text if they are in order and inside of
it, and if every span stands behind a parenthesis. Texts with fitting splices can be put one after
the other, and so can what is woven from them (`weave_append`). Everything that happens to a line
while it is read is of this kind, but for a piece that a directive takes off its end and brings back
itself.
-/

namespace SqlTemplate

/-- What a directive was written around: its comparison and its sample. -/
def Directive.written (d : Directive) : Text :=
  match d.comparison with
  | some c => c.subject ++ ' ' :: c.operator ++ ' ' :: d.sample.getD []
  | none => d.sample.getD []

mutual

/-- The text of a line and of the lines that belong to it, with everything put back. -/
def Line.written : Line → Text
  | .mk sql _ _ splices block =>
      let below :=
        match block with
        | none => []
        | some children => Line.writtenAll children
      Splice.weave 0 sql splices ++ below

def Splice.written : Splice → Text
  | .directive _ d => d.written
  | .group _ lines => Line.writtenAll lines

/-- The rest `rest` of the text of a line, which begins at the offset `start`, with the splices put
back. -/
def Splice.weave (start : Nat) (rest : Text) : List Splice → Text
  | [] => rest
  | s :: splices =>
      rest.take (s.offset - start) ++
        (Splice.written s ++ Splice.weave s.offset (rest.drop (s.offset - start)) splices)

def Line.writtenAll : List Line → Text
  | [] => []
  | l :: ls => Line.written l ++ Line.writtenAll ls

end

/-- The text of a line alone with everything put back. -/
def Line.woven (l : Line) : Text := Splice.weave 0 l.sql l.splices

theorem Line.writtenAll_eq_flatMap (ls : List Line) : writtenAll ls = ls.flatMap written := by
  induction ls with
  | nil => rfl
  | cons l ls ih => rw [writtenAll, ih, List.flatMap_cons]

theorem Line.written_eq (l : Line) : l.written = l.woven ++ l.children.flatMap written := by
  rw [← writtenAll_eq_flatMap]
  cases l with
  | mk sql first last splices block => cases block <;> rfl

theorem Line.woven_withChildren (children : List Line) (l : Line) :
    (l.withChildren children).woven = l.woven := by
  rw [woven, sql_withChildren, splices_withChildren]
  rfl

namespace Splice

@[simp] theorem written_shift (delta : Nat) (s : Splice) : (s.shift delta).written = s.written := by
  cases s <;> rfl

@[simp] theorem lines?_shift (delta : Nat) (s : Splice) : (s.shift delta).lines? = s.lines? := by
  cases s <;> rfl

/-- Splices in order and inside of a text, a span behind a parenthesis. -/
structure Fit (t : Text) (splices : List Splice) : Prop where
  sorted : splices.Pairwise fun s s' => s.offset ≤ s'.offset
  bounded : ∀ s ∈ splices, s.offset ≤ t.length
  grouped : ∀ s ∈ splices, s.lines?.isSome → '(' ∈ t.take s.offset

variable {t u : Text} {splices others : List Splice}

theorem fit_nil (t : Text) : Fit t [] :=
  ⟨.nil, fun _ hs => absurd hs List.not_mem_nil, fun _ hs => absurd hs List.not_mem_nil⟩

/-- Fitting splices still fit if text with further splices follows. -/
theorem Fit.append (h : Fit t splices) (hu : Fit u others) :
    Fit (t ++ u) (splices ++ others.map (shift t.length)) := by
  constructor
  · refine List.pairwise_append.2 ⟨h.sorted, ?_, ?_⟩
    · rw [List.pairwise_map]
      refine hu.sorted.imp ?_
      intro s s' hle
      rw [offset_shift, offset_shift]
      omega
    · intro s hs s' hs'
      obtain ⟨o, -, rfl⟩ := List.mem_map.1 hs'
      rw [offset_shift]
      have := h.bounded s hs
      omega
  · intro s hs
    rw [List.length_append]
    rcases List.mem_append.1 hs with hs | hs
    · have := h.bounded s hs
      omega
    · obtain ⟨o, ho, rfl⟩ := List.mem_map.1 hs
      have := hu.bounded o ho
      rw [offset_shift]
      omega
  · intro s hs hlines
    rcases List.mem_append.1 hs with hs | hs
    · rw [List.take_append_of_le_length (h.bounded s hs)]
      exact h.grouped s hs hlines
    · obtain ⟨o, ho, rfl⟩ := List.mem_map.1 hs
      rw [lines?_shift] at hlines
      rw [offset_shift, Nat.add_comm, List.take_length_add_append]
      exact List.mem_append_right _ (hu.grouped o ho hlines)

/-- Text behind the last splice can be taken off. -/
theorem Fit.of_append (h : Fit (t ++ u) splices) (hbound : ∀ s ∈ splices, s.offset ≤ t.length) :
    Fit t splices := by
  refine ⟨h.sorted, hbound, ?_⟩
  intro s hs hlines
  rw [← List.take_append_of_le_length (hbound s hs)]
  exact h.grouped s hs hlines

theorem weave_map_shift (delta start : Nat) (rest : Text) (splices : List Splice) :
    weave (start + delta) rest (splices.map (shift delta)) = weave start rest splices := by
  induction splices generalizing start rest with
  | nil => rfl
  | cons s splices ih =>
      have hwidth : s.offset + delta - (start + delta) = s.offset - start := by omega
      rw [List.map_cons, weave, weave, offset_shift, written_shift, hwidth, ih]

theorem weave_append_map_shift (start : Nat) (rest u : Text) (others : List Splice) :
    weave start (rest ++ u) (others.map (shift (start + rest.length))) =
      rest ++ weave 0 u others := by
  cases others with
  | nil => rfl
  | cons s others =>
      have hwidth : s.offset + (start + rest.length) - start = rest.length + s.offset := by omega
      rw [List.map_cons, weave, weave, offset_shift, written_shift, hwidth,
        List.take_length_add_append, List.drop_length_add_append, weave_map_shift, Nat.sub_zero,
        List.append_assoc]

theorem weave_append_from (start : Nat) (rest u : Text) (others : List Splice)
    (hsorted : splices.Pairwise fun s s' => s.offset ≤ s'.offset)
    (hbound : ∀ s ∈ splices, start ≤ s.offset ∧ s.offset ≤ start + rest.length) :
    weave start (rest ++ u) (splices ++ others.map (shift (start + rest.length))) =
      weave start rest splices ++ weave 0 u others := by
  induction splices generalizing start rest with
  | nil => exact weave_append_map_shift start rest u others
  | cons s splices ih =>
      obtain ⟨⟨hstart, hstop⟩, hbound⟩ := List.forall_mem_cons.1 hbound
      obtain ⟨hfirst, hsorted⟩ := List.pairwise_cons.1 hsorted
      have hlength : s.offset - start ≤ rest.length := by omega
      have hrest : s.offset + (rest.drop (s.offset - start)).length = start + rest.length := by
        rw [List.length_drop]
        omega
      have hnext := ih s.offset (rest.drop (s.offset - start)) hsorted (by
        intro s' hs'
        rw [hrest]
        exact ⟨hfirst s' hs', (hbound s' hs').2⟩)
      rw [hrest] at hnext
      rw [List.cons_append, weave, weave, List.take_append_of_le_length hlength,
        List.drop_append_of_le_length hlength, hnext]
      simp only [List.append_assoc]

/-- What is woven from texts one after the other. -/
theorem weave_append (h : Fit t splices) (u : Text) (others : List Splice) :
    weave 0 (t ++ u) (splices ++ others.map (shift t.length)) =
      weave 0 t splices ++ weave 0 u others := by
  have hwoven := weave_append_from 0 t u others h.sorted (by
    intro s hs
    rw [Nat.zero_add]
    exact ⟨Nat.zero_le _, h.bounded s hs⟩)
  rwa [Nat.zero_add] at hwoven

end Splice

end SqlTemplate
