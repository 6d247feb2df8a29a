import Mathlib.Algebra.Order.Floor.Div
import SqlTemplate.Proofs.Rendering.Lists
import SqlTemplate.Proofs.Rendering.MarkCount
import SqlTemplate.Proofs.Rendering.Meaning

/-!
# Long lists

A test of membership in a list that is longer than the limit is split into tests of as few lists as
possible, all of them full except the last one. They are joined so that the condition means the same
as the test of the whole list (`Marks.condition_of_writes`).
-/

namespace SqlTemplate

/-! ### Operators -/

theorem isBlank_eq_false_of_code {c : Char} (h : 65 ≤ c.toNat ∧ c.toNat ≤ 122) :
    isBlank c = false := by
  unfold isBlank
  simp
  omega

theorem isBlank_toUpper (c : Char) : isBlank c.toUpper = isBlank c := by
  unfold Char.toUpper
  split
  · rename_i h
    have hlower : 97 ≤ c.toNat ∧ c.toNat ≤ 122 := by simpa [UInt32.le_iff_toNat_le] using h
    have hupper : (c.val + ('A'.val - 'a'.val)).toNat = c.toNat - 32 := by
      rw [UInt32.toNat_add]
      change (c.toNat + 4294967264) % 4294967296 = _
      omega
    rw [isBlank_eq_false_of_code (c := c) ⟨by omega, hlower.2⟩]
    refine isBlank_eq_false_of_code ?_
    change 65 ≤ (c.val + ('A'.val - 'a'.val)).toNat ∧ (c.val + ('A'.val - 'a'.val)).toNat ≤ 122
    omega
  · rfl

theorem words_cons (c : Char) (t : Text) : words (c :: t) =
    if isBlank c then words t
    else
      match t, words t with
      | d :: _, w :: ws => if isBlank d then [c] :: w :: ws else (c :: w) :: ws
      | _, ws => [c] :: ws := rfl

theorem words_map {f : Char → Char} (hf : ∀ c, isBlank (f c) = isBlank c) (t : Text) :
    words (t.map f) = (words t).map (List.map f) := by
  induction t with
  | nil => rfl
  | cons c t ih =>
    rw [List.map_cons, words_cons, words_cons, hf, ih]
    split
    · rfl
    · cases t with
      | nil => rfl
      | cons d t =>
        cases words (d :: t) with
        | nil => rfl
        | cons w ws =>
          simp only [List.map_cons, hf]
          split <;> rfl

namespace Marks

namespace Membership

/-- The capital of a letter. -/
def capital (c : Char) : Char := if c = 'ı' then 'I' else c.toUpper

theorem isBlank_capital (c : Char) : isBlank (capital c) = isBlank c := by
  unfold capital
  split
  · rename_i h
    rw [h]
    decide
  · exact isBlank_toUpper c

/-- The operators of a test, each of them by its words in capitals. -/
def operators : Membership → List (List Text)
  | isIn => [["=".toList], ["IN".toList]]
  | isNotIn => [["<>".toList], ["!=".toList], ["NOT".toList, "IN".toList]]

/-- Whether `c` is a way to write the capital `l`. -/
def IsCase (l c : Char) : Prop := c = l ∨ c = l.toLower ∨ l = 'I' ∧ c = 'ı'

instance (l c : Char) : Decidable (IsCase l c) :=
  inferInstanceAs (Decidable (c = l ∨ c = l.toLower ∨ l = 'I' ∧ c = 'ı'))

/-- An operator of a test, up to the case of its letters and the blanks around its words. -/
def Writes (m : Membership) (operator : Text) : Prop :=
  ∃ ws ∈ m.operators, List.Forall₂ (List.Forall₂ IsCase) ws (words operator)

theorem map_capital_of_isCase {w u : Text} (h : List.Forall₂ IsCase w u)
    (hw : ∀ l ∈ w, capital l = l ∧ capital l.toLower = l) : u.map capital = w := by
  induction h with
  | nil => rfl
  | cons hc _ ih =>
    obtain ⟨⟨hupper, hlower⟩, hw⟩ := List.forall_mem_cons.1 hw
    rw [List.map_cons, ih hw]
    rcases hc with rfl | rfl | ⟨rfl, rfl⟩
    · rw [hupper]
    · rw [hlower]
    · rfl

theorem normalize_of_forall₂ {ws : List Text} {operator : Text}
    (h : List.Forall₂ (List.Forall₂ IsCase) ws (words operator))
    (hws : ∀ w ∈ ws, ∀ l ∈ w, capital l = l ∧ capital l.toLower = l) :
    normalize operator = List.intercalate [' '] ws := by
  have hwords : (words operator).map (List.map capital) = ws := by
    generalize words operator = us at h
    induction h with
    | nil => rfl
    | cons hu _ ih =>
      obtain ⟨hw, hws⟩ := List.forall_mem_cons.1 hws
      rw [List.map_cons, map_capital_of_isCase hu hw, ih hws]
  rw [← hwords, ← words_map isBlank_capital]
  rfl

theorem capital_of_mem_operators (m : Membership) :
    ∀ ws ∈ m.operators, ∀ w ∈ ws, ∀ l ∈ w, capital l = l ∧ capital l.toLower = l := by
  cases m <;> simp [operators, capital]

theorem ofOperator?_of_writes {m : Membership} {operator : Text} (h : m.Writes operator) :
    ofOperator? operator = some m := by
  obtain ⟨ws, hws, hwords⟩ := h
  unfold ofOperator?
  rw [normalize_of_forall₂ hwords (m.capital_of_mem_operators ws hws)]
  clear hwords
  revert ws
  cases m <;> decide

/-- Whether a value is among others, or differs from all of them. -/
def Holds (m : Membership) (same : Value → Value → Truth) (x : Value) (values : List Value) :
    Prop :=
  match m with
  | isIn => ∃ v ∈ values, same x v = .yes
  | isNotIn => ∀ v ∈ values, same x v = .no

theorem truth_eq_yes_iff {m : Membership} {same : Value → Value → Truth} {x : Value}
    {values : List Value} : m.truth same x values = .yes ↔ m.Holds same x values := by
  cases m with
  | isIn => exact truth_isIn_eq_yes_iff
  | isNotIn => exact truth_isNotIn_eq_yes_iff

end Membership

/-! ### Parts -/

/-- The parts of a list: all of them are full, except the last one. -/
theorem partSizes_eq {limit count : Nat} (hlimit : 1 ≤ limit) (hcount : 1 ≤ count) :
    ∃ full last, partSizes limit count = full ++ [last] ∧
      full.length + 1 = count ⌈/⌉ limit ∧ (∀ size ∈ full, size = limit) ∧
      1 ≤ last ∧ last ≤ limit := by
  have hdivided := Nat.div_add_mod count limit
  have hmod := Nat.mod_lt count hlimit
  rw [partSizes_eq_replicate_append (by omega), Nat.ceilDiv_eq_add_pred_div]
  split
  · rename_i heven
    have hceil : (count + limit - 1) / limit = count / limit := by
      have hsplit : count + limit - 1 = limit * (count / limit) + (limit - 1) := by omega
      have hless : (limit - 1) / limit = 0 := Nat.div_eq_of_lt (by omega)
      rw [hsplit, Nat.mul_add_div hlimit, hless, Nat.add_zero]
    have hpos : 1 ≤ count / limit :=
      Nat.div_pos (Nat.le_of_dvd hcount (Nat.dvd_of_mod_eq_zero heven)) hlimit
    refine ⟨List.replicate (count / limit - 1) limit, limit, ?_, ?_, ?_, hlimit, le_rfl⟩
    · rw [List.append_nil, ← List.replicate_succ', Nat.sub_add_cancel hpos]
    · rw [List.length_replicate, hceil]
      omega
    · exact fun size => List.eq_of_mem_replicate
  · rename_i hrest
    have hceil : (count + limit - 1) / limit = count / limit + 1 := by
      have hsplit : count + limit - 1 = limit * (count / limit + 1) + (count % limit - 1) := by
        rw [Nat.mul_add, Nat.mul_one]
        omega
      have hless : (count % limit - 1) / limit = 0 := Nat.div_eq_of_lt (by omega)
      rw [hsplit, Nat.mul_add_div hlimit, hless, Nat.add_zero]
    refine ⟨List.replicate (count / limit) limit, count % limit, rfl, ?_, ?_, by omega, by omega⟩
    · rw [List.length_replicate, hceil]
    · exact fun size => List.eq_of_mem_replicate

theorem membership_eq (subject : Text) (m : Membership) {count limit : Nat} (hlimit : 1 ≤ limit)
    {sample : Option Text} (hsample : rows? sample count = none) :
    membership subject m count sample limit =
      .ok (if count ≤ limit then test subject m (list count)
        else parenthesised (joined subject m (partSizes limit count))) := by
  obtain ⟨limit, rfl⟩ := Nat.exists_eq_add_of_le' hlimit
  unfold membership
  rw [hsample]
  simp only [Int.ofNat_le]
  split
  · rfl
  · rfl

/-- For an operator that is a test of membership up to case and blanks, a list no longer than the
limit is tested as it is. A longer one is split into as few lists as possible, all of them full except
the last one. With values bound to the marks in order, the condition has the truth value of the
test of the whole list: it holds if the subject is among the values, or differs from all of them. -/
theorem condition_of_writes {c : Comparison} {m : Membership} (hoperator : m.Writes c.operator)
    {count limit : Nat} {multi : Bool} (hcount : 1 ≤ count) (hmulti : multi = true ∨ 1 < count)
    (hlimit : 1 ≤ limit) {sample : Option Text} (hsample : rows? sample count = none) :
    ∃ t, condition c count multi sample limit = .ok t ∧
      (count ≤ limit → t = test c.subject m (list count)) ∧
      (limit < count → ∃ full last, t = parenthesised (joined c.subject m (full ++ [last])) ∧
        full.length + 1 = count ⌈/⌉ limit ∧ (∀ size ∈ full, size = limit) ∧
        1 ≤ last ∧ last ≤ limit ∧ full.sum + last = count) ∧
      ∀ same x values, values.length = count → ∃ truth,
        Condition.truthOf? same c.subject x values t = some truth ∧
        Condition.truthOf? same c.subject x values (test c.subject m (list count)) = some truth ∧
        (truth = .yes ↔ m.Holds same x values) := by
  have hmany : ¬ (count = 1 ∧ multi = false) := by
    rintro ⟨rfl, rfl⟩
    simp at hmulti
  have hcondition : condition c count multi sample limit =
      .ok (if count ≤ limit then test c.subject m (list count)
        else parenthesised (joined c.subject m (partSizes limit count))) := by
    rw [condition, if_neg hmany, Membership.ofOperator?_of_writes hoperator]
    exact membership_eq c.subject m hlimit hsample
  obtain ⟨full, last, hparts, hlength, hfull, hpos, hlast⟩ := partSizes_eq hlimit hcount
  have hsum := sum_partSizes (by omega : limit ≠ 0) count
  refine ⟨_, hcondition, fun hle => if_pos hle, fun hlt => ?_, ?_⟩
  · rw [if_neg (Nat.not_le.2 hlt), hparts]
    rw [hparts, List.sum_append, List.sum_singleton] at hsum
    exact ⟨full, last, rfl, hlength, hfull, hpos, hlast, hsum⟩
  · rintro same x values rfl
    have hvalues : values ≠ [] := List.ne_nil_of_length_pos hcount
    have hwhole : Condition.truthOf? same c.subject x values
        (test c.subject m (list values.length)) = some (m.truth same x values) :=
      Condition.truthOf?_test c.subject m hvalues
    refine ⟨m.truth same x values, ?_, hwhole, Membership.truth_eq_yes_iff⟩
    split
    · exact hwhole
    · rename_i hlong
      have hfullNe : full ≠ [] := by
        rintro rfl
        rw [hparts, List.nil_append, List.sum_singleton] at hsum
        omega
      have htwo : 2 ≤ (partSizes limit values.length).length := by
        have hpositive := List.length_pos_iff.2 hfullNe
        rw [hparts, List.length_append, List.length_singleton]
        omega
      exact Condition.truthOf?_joined c.subject m htwo
        (fun _ => ne_zero_of_mem_partSizes (by omega)) hsum

/-- Five values that are none of those of the subject, tested in lists of two. -/
theorem condition_of_writes_fiveValues :
    let c : Comparison := ⟨"id".toList, "not\tIn".toList⟩
    let t : Text := "(id NOT IN (?, ?) AND id NOT IN (?, ?) AND id NOT IN (?))".toList
    Membership.isNotIn.Writes c.operator ∧ rows? (some "(1, 2)".toList) 5 = none ∧
      condition c 5 true (some "(1, 2)".toList) 2 = .ok t ∧
      ∀ same x values, values.length = 5 → ∃ truth,
        Condition.truthOf? same c.subject x values t = some truth ∧
        (truth = .yes ↔ ∀ v ∈ values, same x v = .no) := by
  intro c t
  have hwrites : Membership.isNotIn.Writes c.operator :=
    ⟨["NOT".toList, "IN".toList], by simp [Membership.operators], by decide⟩
  have hsample : rows? (some "(1, 2)".toList) 5 = none := by decide
  obtain ⟨u, hu, -, -, hmeaning⟩ := condition_of_writes (c := c) hwrites (by decide)
    (.inl rfl : true = true ∨ 1 < 5) (by decide : 1 ≤ 2) hsample
  have ht : condition c 5 true (some "(1, 2)".toList) 2 = .ok t := by rfl
  obtain rfl : t = u := Except.ok.inj (ht.symm.trans hu)
  refine ⟨hwrites, hsample, ht, fun same x values hvalues => ?_⟩
  obtain ⟨truth, htruth, -, hholds⟩ := hmeaning same x values hvalues
  exact ⟨truth, htruth, hholds⟩

end Marks

end SqlTemplate
