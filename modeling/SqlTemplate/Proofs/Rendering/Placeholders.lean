import SqlTemplate.Proofs.Rendering.Indifference
import SqlTemplate.Proofs.Rendering.MarkCount
import SqlTemplate.Proofs.Source.Whole

/-!
# Marks outside of literals

A mark in a literal stands for no value: `placeholders` counts the marks outside. A sample leaves no
literal open, so what is written around it stays outside of literals, and a text that is written for
some values holds a placeholder for each. The exception is a sample that is repeated for rows of
values: its marks are counted wherever they stand. If some of them stand in literals, the rows hold
fewer placeholders than values (`placeholders_eq_count_iff`).
-/

namespace SqlTemplate

namespace Marks

/-- How many marks of a text stand outside of its literals, if the literal with the given quote is
open where the text begins. -/
def placeholders : Option Char → Text → Nat
  | _, [] => 0
  | quote, c :: t => (if quote = none ∧ c = mark then 1 else 0) + placeholders (toggle quote c) t

variable {s t : Text}

theorem placeholders_append (quote : Option Char) (s t : Text) :
    placeholders quote (s ++ t) = placeholders quote s + placeholders (s.foldl toggle quote) t := by
  induction s generalizing quote with
  | nil => simp [placeholders]
  | cons c s ih =>
    rw [List.cons_append, placeholders, ih, placeholders, List.foldl_cons, Nat.add_assoc]

theorem placeholders_append_of_whole (hs : Whole s) (t : Text) :
    placeholders none (s ++ t) = placeholders none s + placeholders none t := by
  rw [placeholders_append, hs.foldl_toggle]

theorem placeholders_le_count (quote : Option Char) (t : Text) :
    placeholders quote t ≤ t.count mark := by
  induction t generalizing quote with
  | nil => exact le_rfl
  | cons c t ih =>
    have hrest := ih (toggle quote c)
    rw [placeholders, List.count_cons]
    by_cases hc : c = mark
    · rw [if_pos (beq_iff_eq.2 hc)]
      split <;> omega
    · rw [if_neg (mt And.right hc)]
      omega

/-- Without quotes every mark stands outside of literals. -/
theorem placeholders_of_quoteless (h : Quoteless t) : placeholders none t = t.count mark := by
  induction t with
  | nil => rfl
  | cons c t ih =>
    rw [placeholders, h.toggle (List.mem_cons_self ..), ih h.tail, List.count_cons, Nat.add_comm]
    simp

theorem placeholders_quoteless_append (hs : Quoteless s) (t : Text) :
    placeholders none (s ++ t) = s.count mark + placeholders none t := by
  rw [placeholders_append, hs.foldl_toggle, placeholders_of_quoteless hs]

theorem placeholders_intercalate_replicate {separator : Text} (hseparator : Quoteless separator)
    (hmark : mark ∉ separator) (ht : Whole t) (n : Nat) :
    placeholders none (List.intercalate separator (List.replicate n t)) =
      n * placeholders none t := by
  induction n with
  | zero => simp [placeholders]
  | succ n ih =>
    cases n with
    | zero => simp
    | succ n =>
      rw [List.replicate_succ, List.replicate_succ, List.intercalate_cons_cons, List.append_assoc,
        placeholders_append_of_whole ht, placeholders_quoteless_append hseparator,
        ← List.replicate_succ, ih, List.count_eq_zero_of_not_mem hmark, Nat.zero_add,
        Nat.succ_mul (n + 1), Nat.add_comm]

/-! ### Texts without samples -/

theorem quoteless_list (count : Nat) : Quoteless (list count) := by
  refine .intercalate (by decide) fun t ht => ?_
  rw [List.eq_of_mem_replicate ht]
  decide

/-- A comparison whose subject and operator hold neither marks nor quotes. -/
structure Plain (c : Comparison) : Prop extends Clear c where
  quotelessSubject : Quoteless c.subject
  quotelessOperator : Quoteless c.operator

variable {c : Comparison} {m : Membership} {sample : Option Text} {count : Nat} {limit : Int}

theorem quoteless_test {subject inner : Text} (hsubject : Quoteless subject) (m : Membership)
    (hinner : Quoteless inner) : Quoteless (test subject m inner) := by
  have hoperator : Quoteless (' ' :: m.operator ++ [' ']) := by cases m <;> decide
  have htest := (hsubject.append hoperator).append hinner.parenthesised
  simpa [test, parenthesised] using htest

theorem quoteless_single (h : Plain c) : Quoteless (single c) := by
  have hspace : Quoteless [' '] := by decide
  have hmark : Quoteless [' ', mark] := by decide
  simpa [single] using ((h.quotelessSubject.append hspace).append h.quotelessOperator).append hmark

theorem quoteless_bind (hrows : rows? sample count = none) : Quoteless (bind count sample) := by
  unfold bind
  rw [hrows]
  dsimp only
  split
  · exact (quoteless_list count).parenthesised
  · exact quoteless_list count

theorem quoteless_of_membership {subject : Text} (hsubject : Quoteless subject)
    (hrows : rows? sample count = none) (ht : membership subject m count sample limit = .ok t) :
    Quoteless t := by
  unfold membership at ht
  rw [hrows] at ht
  dsimp only at ht
  split at ht
  · obtain rfl := Except.ok.inj ht
    exact quoteless_test hsubject m (quoteless_list count)
  · split at ht
    · obtain rfl := Except.ok.inj ht
      have hjoiner : Quoteless m.joiner := by cases m <;> decide
      refine (Quoteless.intercalate hjoiner fun u hu => ?_).parenthesised
      obtain ⟨size, -, rfl⟩ := List.mem_map.1 hu
      exact quoteless_test hsubject m (quoteless_list size)
    · simp at ht

/-- A comparison that does not repeat its sample brings no quotes along. -/
theorem quoteless_of_condition (h : Plain c) {multi : Bool}
    (hrows : (Membership.ofOperator? c.operator).isSome = true → rows? sample count = none)
    (ht : condition c count multi sample limit = .ok t) : Quoteless t := by
  unfold condition at ht
  split at ht
  · dsimp only at ht
    split at ht
    · rename_i hnormalized
      obtain rfl := Except.ok.inj ht
      have hoperator :
          Quoteless (' ' :: Membership.normalize c.operator ++ [' ', '(', mark, ')']) := by
        rcases hnormalized with hn | hn
        · rw [hn]
          decide
        · rw [hn]
          decide
      simpa [parenthesised] using h.quotelessSubject.append hoperator
    · obtain rfl := Except.ok.inj ht
      exact quoteless_single h
  · split at ht
    · rename_i hm
      exact quoteless_of_membership h.quotelessSubject (hrows (by rw [hm]; rfl)) ht
    · obtain rfl := Except.ok.inj ht
      refine (Quoteless.intercalate (by decide) fun u hu => ?_).parenthesised
      rw [List.eq_of_mem_replicate hu]
      exact quoteless_single h

/-! ### Rows -/

/-- A sample is repeated for rows of so many values, although it has marks in literals. -/
def HidesMarks (sample : Option Text) (count : Nat) : Prop :=
  (rows? sample count).isSome = true ∧
    placeholders none (sample.getD []) < (sample.getD []).count mark

theorem whole_of_rows? (hsample : Whole (sample.getD [])) (h : rows? sample count = some t) :
    Whole t := by
  obtain ⟨-, -, -, rfl⟩ := rows?_eq_some_iff.1 h
  have hseparator : Whole ", ".toList := rfl
  refine hseparator.intercalate fun u hu => ?_
  rw [List.eq_of_mem_replicate hu]
  exact hsample

theorem placeholders_of_rows? (hsample : Whole (sample.getD [])) (h : rows? sample count = some t) :
    placeholders none t =
      count / (sample.getD []).count mark * placeholders none (sample.getD []) := by
  obtain ⟨-, -, -, rfl⟩ := rows?_eq_some_iff.1 h
  exact placeholders_intercalate_replicate (by decide) (by decide) hsample _

theorem placeholders_rows_eq_iff (hsample : Whole (sample.getD []))
    (h : rows? sample count = some t) :
    placeholders none t = count ↔ ¬ HidesMarks sample count := by
  have hle := placeholders_le_count none (sample.getD [])
  rw [placeholders_of_rows? hsample h, HidesMarks, h]
  obtain ⟨hwidth, hcount, ⟨rows, rfl⟩, -⟩ := rows?_eq_some_iff.1 h
  have hpos : rows ≠ 0 := by
    rintro rfl
    exact hcount rfl
  rw [Nat.mul_div_cancel_left _ (by omega), Nat.mul_comm _ rows, Nat.mul_right_inj hpos]
  simp
  omega

theorem not_hidesMarks_of_rows?_eq_none (h : rows? sample count = none) :
    ¬ HidesMarks sample count := by
  rintro ⟨hsome, -⟩
  rw [h] at hsome
  exact Bool.false_ne_true hsome

/-- Rows are for several values. -/
theorem two_le_of_rows? (h : rows? sample count = some t) : 2 ≤ count := by
  obtain ⟨hwidth, hcount, heven, -⟩ := rows?_eq_some_iff.1 h
  exact hwidth.trans (Nat.le_of_dvd (Nat.pos_of_ne_zero hcount) heven)

theorem condition_of_rows? {rows : Text} (hm : Membership.ofOperator? c.operator = some m)
    (hrows : rows? sample count = some rows) (multi : Bool) (limit : Int) :
    condition c count multi sample limit = .ok (test c.subject m rows) := by
  have hmany : ¬ (count = 1 ∧ multi = false) := by
    have := two_le_of_rows? hrows
    omega
  rw [condition, if_neg hmany, hm]
  simp only [membership, hrows]

theorem placeholders_test {subject inner : Text} (hsubject : Quoteless subject)
    (hmark : mark ∉ subject) (m : Membership) (hinner : Whole inner) :
    placeholders none (test subject m inner) = placeholders none inner := by
  have hoperator : Quoteless (' ' :: m.operator ++ [' ', '(']) := by cases m <;> decide
  have hnone : (' ' :: m.operator ++ [' ', '(']).count mark = 0 := by cases m <;> decide
  have htest : test subject m inner =
      subject ++ (' ' :: m.operator ++ [' ', '('] ++ (inner ++ [')'])) := by
    simp [test, parenthesised]
  rw [htest, placeholders_quoteless_append hsubject, placeholders_quoteless_append hoperator,
    placeholders_append_of_whole hinner, List.count_eq_zero_of_not_mem hmark, hnone]
  simp [placeholders, mark]

/-- Whatever is written for some values holds a placeholder for each, unless it repeats a sample
with marks in its literals: the marks that replace a sample, and comparisons whose subject and
operator bring neither marks nor quotes along. A comparison with a single value never repeats its
sample. -/
theorem placeholders_eq_count_iff (hsample : ∀ s, sample = some s → Sample.IsCaptured s)
    (count : Nat) :
    (placeholders none (bind count sample) = count ↔ ¬ HidesMarks sample count) ∧
      ∀ (c : Comparison) (multi : Bool) (limit : Int), Plain c → 1 ≤ limit →
        ∃ t, condition c count multi sample limit = .ok t ∧
          (placeholders none t = count ↔
            ((Membership.ofOperator? c.operator).isSome = true → ¬ HidesMarks sample count)) := by
  have hwhole := Sample.whole_getD hsample
  constructor
  · cases hrows : rows? sample count with
    | none =>
      rw [placeholders_of_quoteless (quoteless_bind hrows), count_bind]
      exact iff_of_true rfl (not_hidesMarks_of_rows?_eq_none hrows)
    | some rows =>
      have hbind : bind count sample = rows := by rw [bind, hrows]
      rw [hbind]
      exact placeholders_rows_eq_iff hwhole hrows
  · intro c multi limit hc hlimit
    obtain ⟨t, ht⟩ := exists_condition_eq_ok c count multi sample (by omega : limit ≠ 0)
    refine ⟨t, ht, ?_⟩
    have hplain (hrows : (Membership.ofOperator? c.operator).isSome = true →
        rows? sample count = none) : placeholders none t = count := by
      rw [placeholders_of_quoteless (quoteless_of_condition hc hrows ht)]
      exact count_of_condition hc.toClear hlimit ht
    cases hm : Membership.ofOperator? c.operator with
    | none => exact iff_of_true (hplain (by simp [hm])) (by simp)
    | some m =>
      rw [Option.isSome_some, eq_self_iff_true, true_imp_iff]
      cases hrows : rows? sample count with
      | none => exact iff_of_true (hplain fun _ => hrows) (not_hidesMarks_of_rows?_eq_none hrows)
      | some rows =>
        obtain rfl := Except.ok.inj ((condition_of_rows? hm hrows multi limit).symm.trans ht)
        rw [placeholders_test hc.quotelessSubject hc.subject m (whole_of_rows? hwhole hrows)]
        exact placeholders_rows_eq_iff hwhole hrows

/-- A row of two marks and a quoted parenthesis, for four values. -/
theorem placeholders_eq_count_iff_quotedParenthesis :
    let sample : Option Text := some "(?, ')', ?)".toList
    let c : Comparison := ⟨"a".toList, "IN".toList⟩
    (∀ s, sample = some s → Sample.IsCaptured s) ∧ Plain c ∧ ¬ HidesMarks sample 4 ∧
      placeholders none (bind 4 sample) = 4 ∧
      ∃ t, condition c 4 true sample 2 = .ok t ∧ placeholders none t = 4 := by
  intro sample c
  have hread : Sample.read "(?, ')', ?)".toList = .taken "(?, ')', ?)".toList [] := by
    decide +kernel
  have hsample : ∀ s, sample = some s → Sample.IsCaptured s := by
    intro s hs
    obtain rfl := Option.some.inj hs
    exact .inl ⟨_, _, hread⟩
  have hplain : Plain c := ⟨⟨by decide, by decide⟩, by decide, by decide⟩
  have hhides : ¬ HidesMarks sample 4 := fun h => absurd h.2 (by decide)
  obtain ⟨hbind, hcondition⟩ := placeholders_eq_count_iff hsample 4
  obtain ⟨t, ht, hcount⟩ := hcondition c true 2 hplain (by decide)
  exact ⟨hsample, hplain, hhides, hbind.2 hhides, t, ht, hcount.2 fun _ => hhides⟩

/-- A sample of two literals that hold a mark each is taken for a row of two values, for which no
placeholder is left then. -/
theorem placeholders_quotedMarks :
    let sample : Text := "('?', '?')".toList
    let c : Comparison := ⟨"a".toList, "IN".toList⟩
    Sample.IsCaptured sample ∧ Plain c ∧
      bind 2 (some sample) = "('?', '?')".toList ∧ placeholders none (bind 2 (some sample)) = 0 ∧
      condition c 2 true (some sample) 1000 = .ok "a IN (('?', '?'))".toList ∧
      placeholders none "a IN (('?', '?'))".toList = 0 := by
  intro sample c
  have hread : Sample.read sample = .taken sample [] := by decide +kernel
  exact ⟨.inl ⟨_, _, hread⟩, ⟨⟨by decide, by decide⟩, by decide, by decide⟩, by decide, by decide,
    by decide, by decide⟩

end Marks

end SqlTemplate
