import Mathlib.Data.List.Infix
import SqlTemplate.Template.Basic

/-!
# Plain text

Where no delimiter begins, every character is a lexeme of its own, and reading writes the text to
the draft as it is. `IsPlain` says of a text that no delimiter stands in it; then none begins in it
either, unless its last character and what follows make one.
-/

namespace SqlTemplate

/-- A text in which no delimiter stands. -/
def IsPlain (t : Text) : Prop := ∀ d : Delimiter, ¬d.chars <:+: t

def Delimiter.all : List Delimiter :=
  [.commentOpen, .commentClose, .dashes, .quote .single, .quote .double, .opening, .closing,
    .lineEnd .crlf, .lineEnd .cr, .lineEnd .lf]

theorem Delimiter.mem_all (d : Delimiter) : d ∈ all := by
  cases d with
  | quote q => cases q <;> decide
  | lineEnd e => cases e <;> decide
  | _ => decide

instance (t : Text) : Decidable (IsPlain t) :=
  decidable_of_iff (∀ d ∈ Delimiter.all, ¬d.chars <:+: t)
    ⟨fun h d => h d d.mem_all, fun h d _ => h d⟩

/-- Up to the first place where a delimiter begins, the lexemes are the characters. -/
theorem lexemes_append {t rest : Text}
    (h : ∀ u v, t = u ++ v → v ≠ [] → Delimiter.take? (v ++ rest) = none) :
    lexemes (t ++ rest) = t.map .plain ++ lexemes rest := by
  induction t with
  | nil => rfl
  | cons c t ih =>
      have hfirst : Lexeme.first c (t ++ rest) = (.plain c, t ++ rest) := by
        have hnone := h [] (c :: t) rfl (List.cons_ne_nil _ _)
        rw [List.cons_append] at hnone
        rw [Lexeme.first, hnone]
      rw [List.cons_append, lexemes_cons, hfirst, ih fun u v ht hv => h (c :: u) v (by rw [ht]; rfl) hv]
      rfl

theorem lexemes_append_of_forall {t : Text} (rest : Text)
    (h : ∀ c ∈ t, ∀ u, Delimiter.take? (c :: u) = none) :
    lexemes (t ++ rest) = t.map .plain ++ lexemes rest := by
  refine lexemes_append ?_
  rintro u v rfl hv
  obtain ⟨c, w, rfl⟩ := List.exists_cons_of_ne_nil hv
  exact h c (by simp) _

theorem Delimiter.take?_lineEnd (e : LineEnd) {rest : Text}
    (h : e = .cr → rest.head? ≠ some '\n') : take? (e.chars ++ rest) = some (.lineEnd e, rest) := by
  cases e with
  | crlf => rfl
  | lf => rfl
  | cr =>
      cases rest with
      | nil => rfl
      | cons c rest =>
          have hc : c ≠ '\n' := by simpa using h rfl
          simp [take?, LineEnd.chars, hc]

theorem lexemes_lineEnd (e : LineEnd) {rest : Text} (h : e = .cr → rest.head? ≠ some '\n') :
    lexemes (e.chars ++ rest) = .lineEnd e :: lexemes rest := by
  obtain ⟨c, u, hchars⟩ : ∃ c u, e.chars = c :: u :=
    List.exists_cons_of_ne_nil (Delimiter.chars_ne_nil (.lineEnd e))
  have htake := Delimiter.take?_lineEnd e h
  rw [hchars, List.cons_append] at htake ⊢
  rw [lexemes_cons, Lexeme.first, htake]
  rfl

/-- A character that begins no delimiter breaks no line. -/
theorem isLineBreak_eq_false_of_take? {c : Char} (h : ∀ u, Delimiter.take? (c :: u) = none) :
    isLineBreak c = false := by
  refine isLineBreak_eq_false_iff.2 ⟨?_, ?_⟩
  · rintro rfl
    exact absurd (h []) (by simp [Delimiter.take?])
  · rintro rfl
    exact absurd (h []) (by simp [Delimiter.take?])

namespace IsPlain

variable {c a b : Char} {t u v rest r : Text}

theorem of_append_right (h : IsPlain (u ++ v)) : IsPlain v := by
  refine fun d hd => h d (hd.trans ?_)
  have hinfix := List.infix_append u v []
  rwa [List.append_nil] at hinfix

theorem not_mem (h : IsPlain t) {d : Delimiter} (hd : d.chars = [c]) : c ∉ t := by
  intro hc
  obtain ⟨u, v, rfl⟩ := List.append_of_mem hc
  exact h d (by rw [hd]; exact ⟨u, v, by simp⟩)

theorem isLineBreak_eq_false (h : IsPlain t) : ∀ c ∈ t, isLineBreak c = false := by
  intro c hc
  refine isLineBreak_eq_false_iff.2 ⟨?_, ?_⟩
  · rintro rfl
    exact h.not_mem (d := .lineEnd .cr) rfl hc
  · rintro rfl
    exact h.not_mem (d := .lineEnd .lf) rfl hc

theorem cons_ne (h : IsPlain (c :: t)) {d : Delimiter} (hd : d.chars = [a]) : c ≠ a := by
  rintro rfl
  exact h.not_mem hd (List.mem_cons_self ..)

theorem cons_append_ne (h : IsPlain (c :: t)) {d : Delimiter} (hd : d.chars = [a, b])
    (hrest : t = [] → c = a → rest.head? ≠ some b) : c :: (t ++ rest) ≠ a :: b :: r := by
  intro heq
  obtain ⟨rfl, htail⟩ := List.cons.inj heq
  cases t with
  | nil => exact hrest rfl rfl (by rw [← List.nil_append rest, htail]; rfl)
  | cons x t =>
      obtain ⟨rfl, -⟩ := List.cons.inj htail
      exact h d (by rw [hd]; exact ⟨[], t, rfl⟩)

/-- No delimiter begins with a plain text, unless its last character and the first one behind it
are one. -/
theorem take?_eq_none (h : IsPlain (c :: t))
    (hseam : ∀ y ∈ (c :: t).getLast?, ∀ x ∈ rest.head?, ∀ d : Delimiter, d.chars ≠ [y, x]) :
    Delimiter.take? (c :: t ++ rest) = none := by
  have hcomment (d : Delimiter) {a b : Char} (hd : d.chars = [a, b]) :
      t = [] → c = a → rest.head? ≠ some b := by
    rintro rfl rfl hb
    exact hseam c rfl b hb d hd
  cases htake : Delimiter.take? (c :: t ++ rest) with
  | none => rfl
  | some found =>
      obtain ⟨d, r⟩ := found
      have heq := Delimiter.chars_append_of_take? htake
      rw [List.cons_append] at heq
      exfalso
      cases d with
      | commentOpen => exact h.cons_append_ne (d := .commentOpen) rfl (hcomment .commentOpen rfl) heq
      | commentClose => exact h.cons_append_ne (d := .commentClose) rfl (hcomment .commentClose rfl) heq
      | dashes => exact h.cons_append_ne (d := .dashes) rfl (hcomment .dashes rfl) heq
      | quote q => exact h.cons_ne (d := .quote q) rfl (List.cons.inj heq).1
      | opening => exact h.cons_ne (d := .opening) rfl (List.cons.inj heq).1
      | closing => exact h.cons_ne (d := .closing) rfl (List.cons.inj heq).1
      | lineEnd e =>
          cases e with
          | crlf => exact h.cons_ne (d := .lineEnd .cr) rfl (List.cons.inj heq).1
          | cr => exact h.cons_ne (d := .lineEnd .cr) rfl (List.cons.inj heq).1
          | lf => exact h.cons_ne (d := .lineEnd .lf) rfl (List.cons.inj heq).1

/-- A plain text is cut into its characters, unless its last character goes on as a delimiter. -/
theorem lexemes_append_of_seam (h : IsPlain t)
    (hseam : ∀ y ∈ t.getLast?, ∀ x ∈ rest.head?, ∀ d : Delimiter, d.chars ≠ [y, x]) :
    lexemes (t ++ rest) = t.map .plain ++ lexemes rest := by
  refine SqlTemplate.lexemes_append ?_
  rintro u v rfl hv
  obtain ⟨c, w, rfl⟩ := List.exists_cons_of_ne_nil hv
  rw [List.getLast?_append_of_ne_nil _ hv] at hseam
  exact h.of_append_right.take?_eq_none hseam

/-- A plain text is cut into its characters. -/
theorem lexemes_append (h : IsPlain t)
    (hrest : ∀ x ∈ rest.head?, x ≠ '-' ∧ x ≠ '*' ∧ x ≠ '/') :
    lexemes (t ++ rest) = t.map .plain ++ lexemes rest := by
  refine h.lexemes_append_of_seam fun y hy x hx d hd => ?_
  obtain ⟨hdash, hstar, hslash⟩ := hrest x hx
  have hend : ∀ e : LineEnd, e.chars ≠ [y, x] := by
    rintro e he
    cases e with
    | crlf =>
        obtain ⟨rfl, -⟩ := List.cons.inj he
        exact h.not_mem (d := .lineEnd .cr) rfl (List.mem_of_getLast? hy)
    | cr => cases he
    | lf => cases he
  cases d with
  | commentOpen => exact hstar (List.cons.inj (List.cons.inj hd).2).1.symm
  | commentClose => exact hslash (List.cons.inj (List.cons.inj hd).2).1.symm
  | dashes => exact hdash (List.cons.inj (List.cons.inj hd).2).1.symm
  | quote q => cases hd
  | opening => cases hd
  | closing => cases hd
  | lineEnd e => exact hend e hd

end IsPlain

namespace Reader

/-- The lines that a reader finishes with when it has read some lexemes. -/
def linesAfter (registry : Registry) (r : Reader) (ls : List Lexeme) :
    Except Misfit (List Line) :=
  match r.readAll registry ls with
  | .ok reader => reader.finish
  | .error misfit => .error misfit

theorem linesAfter_nil (registry : Registry) (r : Reader) :
    r.linesAfter registry [] = r.finish := rfl

theorem linesAfter_cons (registry : Registry) (r : Reader) (l : Lexeme) (ls : List Lexeme) :
    r.linesAfter registry (l :: ls) =
      match r.readContent registry l with
      | .ok next => linesAfter registry { next with line := r.line + lineEnds l.source } ls
      | .error misfit => .error misfit := by
  rw [linesAfter, readAll, read]
  cases r.readContent registry l <;> rfl

/-- Plain characters are written to the draft. -/
theorem readAll_map_plain (registry : Registry) (r : Reader) (t : Text) (ls : List Lexeme)
    (h : ∀ c ∈ t, isLineBreak c = false) :
    r.readAll registry (t.map .plain ++ ls) = (r.write t).readAll registry ls := by
  induction t generalizing r with
  | nil => rfl
  | cons c t ih =>
      rw [List.forall_mem_cons] at h
      have hread : r.read registry (.plain c) = .ok (r.write [c]) := by
        have hends : lineEnds (Lexeme.plain c).source = 0 :=
          lineEnds_cons_of_not_isLineBreak [] h.1
        simp only [read, readContent, hends]
        rfl
      have hwrite : (r.write [c]).write t = r.write (c :: t) := by
        simp [write, Span.edit, Draft.write]
      rw [List.map_cons, List.cons_append, readAll, hread]
      simp only
      rw [ih _ h.2, hwrite]

end Reader

end SqlTemplate
