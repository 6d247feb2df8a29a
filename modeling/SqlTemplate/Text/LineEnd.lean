import SqlTemplate.Text.Blank

/-!
# Line ends

A line ends with a carriage return and a line feed together, or with one of the two alone. The
two-character form is always taken whole, so `lineEnds` counts it once, and no other character ends
a line. `restOfLine` splits a text before its first line end.
-/

namespace SqlTemplate

/-- The three spellings of a line end. -/
inductive LineEnd where
  | crlf
  | cr
  | lf
deriving DecidableEq, Repr

namespace LineEnd

def chars : LineEnd → Text
  | crlf => ['\r', '\n']
  | cr => ['\r']
  | lf => ['\n']

/-- The line end that a text begins with, and what follows it. -/
def take? : Text → Option (LineEnd × Text)
  | '\r' :: '\n' :: t => some (crlf, t)
  | '\r' :: t => some (cr, t)
  | '\n' :: t => some (lf, t)
  | _ => none

/-- A line end taken from a text is its beginning. -/
theorem chars_append_of_take? {t r : Text} {e : LineEnd} (h : take? t = some (e, r)) :
    t = e.chars ++ r := by
  unfold take? at h
  split at h <;> simp only [Option.some.injEq, Prod.mk.injEq, reduceCtorEq] at h
  all_goals (obtain ⟨rfl, rfl⟩ := h; rfl)

end LineEnd

/-- The two characters that line ends are made of. -/
def isLineBreak (c : Char) : Bool := c == '\r' || c == '\n'

theorem isLineBreak_eq_false_iff {c : Char} : isLineBreak c = false ↔ c ≠ '\r' ∧ c ≠ '\n' := by
  rw [isLineBreak, Bool.or_eq_false_iff, beq_eq_false_iff_ne, beq_eq_false_iff_ne]

theorem isLineBreak_eq_true_iff {c : Char} : isLineBreak c = true ↔ c = '\r' ∨ c = '\n' := by
  rw [isLineBreak, Bool.or_eq_true, beq_iff_eq, beq_iff_eq]

/-- How many line ends a text holds. -/
def lineEnds : Text → Nat
  | [] => 0
  | '\r' :: '\n' :: t => lineEnds t + 1
  | c :: t => if isLineBreak c then lineEnds t + 1 else lineEnds t

/-- The text up to its first line end, and the rest that starts with it. -/
def restOfLine (t : Text) : Text × Text :=
  (t.takeWhile fun c => !isLineBreak c, t.dropWhile fun c => !isLineBreak c)

@[simp] theorem lineEnds_nil : lineEnds [] = 0 := rfl

theorem lineEnds_cons_of_not_isLineBreak {c : Char} (t : Text) (h : isLineBreak c = false) :
    lineEnds (c :: t) = lineEnds t := by
  have hc : c ≠ '\r' := by rintro rfl; simp [isLineBreak] at h
  rw [lineEnds.eq_def]
  split <;> simp_all

/-- A text without line breaks holds no line end, whatever follows it. -/
theorem lineEnds_append_of_all_not (s t : Text) (h : ∀ c ∈ s, isLineBreak c = false) :
    lineEnds (s ++ t) = lineEnds t := by
  induction s with
  | nil => rfl
  | cons c s ih =>
    rw [List.cons_append, lineEnds_cons_of_not_isLineBreak _ (h c (by simp))]
    exact ih fun d hd => h d (by simp [hd])

theorem lineEnds_eq_zero {t : Text} (h : ∀ c ∈ t, isLineBreak c = false) : lineEnds t = 0 := by
  have hends := lineEnds_append_of_all_not t [] h
  rwa [List.append_nil] at hends

theorem isLineBreak_of_mem_restOfLine {t : Text} :
    ∀ c ∈ (restOfLine t).1, isLineBreak c = false := by
  intro c hc
  simpa using List.all_eq_true.1 List.all_takeWhile c hc

theorem lineEnds_chars_append (e : LineEnd) (t : Text) (h : e = .cr → t.head? ≠ some '\n') :
    lineEnds (e.chars ++ t) = lineEnds t + 1 := by
  cases e with
  | crlf => rfl
  | lf => rfl
  | cr =>
    cases t with
    | nil => rfl
    | cons c t =>
      have hc : c ≠ '\n' := by simpa using h rfl
      simp only [LineEnd.chars, List.cons_append, List.nil_append]
      rw [lineEnds.eq_def]
      split
      · simp_all
      · simp_all
      · rename_i heq
        obtain ⟨rfl, rfl⟩ := List.cons.inj heq
        simp [isLineBreak]

end SqlTemplate
