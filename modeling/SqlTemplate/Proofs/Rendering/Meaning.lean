import Mathlib.Algebra.GroupWithZero.Nat
import Mathlib.Data.List.Basic
import SqlTemplate.Proofs.Rendering.Truth

/-!
# What conditions mean

A condition on a subject is a test of membership in a list of marks, or such tests in parentheses,
joined by `OR` or by `AND`. `Condition.read?` reads one from the text of a statement, given the text
of its subject, and `Condition.truthOf?` is its truth value once values are bound to the marks in
order. Tests of several lists that are joined have the truth value of the test of one list
(`Condition.truthOf?_joined`).
-/

namespace SqlTemplate

namespace Marks

/-- A test of membership in a list of so many marks. -/
structure Test where
  membership : Membership
  count : Nat
deriving DecidableEq, Repr

/-- A condition on a subject. -/
inductive Condition where
  | single (test : Test)
  /-- Tests joined by `OR`. -/
  | anyOf (tests : List Test)
  /-- Tests joined by `AND`. -/
  | allOf (tests : List Test)
deriving DecidableEq, Repr

/-- Reads marks with commas between them, and gives back their count and the text behind them. -/
def readMarks? : Text → Option (Nat × Text)
  | '?' :: ',' :: ' ' :: t => (readMarks? t).map fun (n, r) => (n + 1, r)
  | '?' :: t => some (1, t)
  | _ => none

namespace Test

/-- Reads a subject and the operator behind it, up to the opening parenthesis. -/
def opening? (subject t : Text) : Option (Membership × Text) :=
  match (subject ++ " IN (".toList).isPrefixOf? t with
  | some r => some (.isIn, r)
  | none => ((subject ++ " NOT IN (".toList).isPrefixOf? t).map fun r => (.isNotIn, r)

/-- Reads a test of membership at the start of a text, and gives back the text behind it. -/
def read? (subject t : Text) : Option (Test × Text) :=
  match opening? subject t with
  | none => none
  | some (m, r) =>
    match readMarks? r with
    | some (n, ')' :: rest) => some (⟨m, n⟩, rest)
    | _ => none

theorem length_of_opening? {subject t r : Text} {m : Membership}
    (h : opening? subject t = some (m, r)) : r.length ≤ t.length := by
  have hprefix {p r : Text} (h : p.isPrefixOf? t = some r) : r.length ≤ t.length := by
    rw [← List.isPrefixOf?_eq_some_iff_append_eq.1 h, List.length_append]
    exact Nat.le_add_left _ _
  unfold opening? at h
  split at h
  · rename_i hin
    obtain ⟨-, rfl⟩ := Prod.mk.inj (Option.some.inj h)
    exact hprefix hin
  · obtain ⟨s, hnotIn, heq⟩ := Option.map_eq_some_iff.1 h
    obtain ⟨-, rfl⟩ := Prod.mk.inj heq
    exact hprefix hnotIn

theorem length_of_readMarks? {t r : Text} {n : Nat} (h : readMarks? t = some (n, r)) :
    r.length < t.length := by
  fun_induction readMarks? t generalizing n r with
  | case1 t ih =>
    obtain ⟨⟨m, s⟩, hs, heq⟩ := Option.map_eq_some_iff.1 h
    obtain ⟨-, rfl⟩ := Prod.mk.inj heq
    have := ih hs
    simp only [List.length_cons]
    omega
  | case2 t =>
    obtain ⟨-, rfl⟩ := Prod.mk.inj (Option.some.inj h)
    exact Nat.lt_succ_self _
  | case3 => cases h

theorem length_of_read? {subject t rest : Text} {test : Test}
    (h : read? subject t = some (test, rest)) : rest.length < t.length := by
  unfold read? at h
  split at h
  · cases h
  · rename_i m r hopening
    split at h
    · rename_i n rest' hmarks
      obtain ⟨-, rfl⟩ := Prod.mk.inj (Option.some.inj h)
      have hbehind := length_of_readMarks? hmarks
      have hbefore := length_of_opening? hopening
      rw [List.length_cons] at hbehind
      omega
    · cases h

end Test

/-- Reads tests with the joiner between them, up to a closing parenthesis at the end of the text. -/
def readTests? (subject joiner t : Text) : Option (List Test) :=
  match _ : Test.read? subject t with
  | none => none
  | some (test, rest) =>
    if rest = [')'] then some [test]
    else
      match _ : joiner.isPrefixOf? rest with
      | none => none
      | some next => (readTests? subject joiner next).map fun tests => test :: tests
termination_by t.length
decreasing_by
  rename_i hread _ hnext
  have hlength := Test.length_of_read? hread
  have happend := congrArg List.length (List.isPrefixOf?_eq_some_iff_append_eq.1 hnext)
  rw [List.length_append] at happend
  omega

namespace Condition

/-- Reads a whole text as a condition on a subject. -/
def read? (subject t : Text) : Option Condition :=
  match Test.read? subject t, t with
  | some (test, []), _ => some (.single test)
  | none, '(' :: t =>
    match readTests? subject " OR ".toList t with
    | some tests => some (.anyOf tests)
    | none => (readTests? subject " AND ".toList t).map .allOf
  | _, _ => none

def tests : Condition → List Test
  | single test => [test]
  | anyOf tests | allOf tests => tests

/-- How many marks a condition holds. -/
def count (c : Condition) : Nat := (c.tests.map Test.count).sum

/-- The truth values of tests, each of which takes its values from the front. -/
def truths (same : Value → Value → Truth) (x : Value) : List Test → List Value → List Truth
  | [], _ => []
  | test :: tests, values =>
    test.membership.truth same x (values.take test.count) ::
      truths same x tests (values.drop test.count)

/-- The truth value of a condition on a subject of the value `x`, with these values bound to its marks
in order. -/
def truth (same : Value → Value → Truth) (x : Value) (values : List Value) (c : Condition) :
    Truth :=
  match c with
  | single test => test.membership.truth same x values
  | anyOf tests => .any (truths same x tests values)
  | allOf tests => .all (truths same x tests values)

/-- The truth value of the text of a condition, if it is one with a mark for every value. -/
def truthOf? (same : Value → Value → Truth) (subject : Text) (x : Value) (values : List Value)
    (t : Text) : Option Truth :=
  match read? subject t with
  | some c => if c.count = values.length then some (c.truth same x values) else none
  | none => none

/-! ### Reading what is written -/

end Condition

theorem readMarks?_list {n : Nat} (hn : n ≠ 0) (r : Text) :
    readMarks? (list n ++ ')' :: r) = some (n, ')' :: r) := by
  obtain ⟨n, rfl⟩ := Nat.exists_eq_succ_of_ne_zero hn
  clear hn
  induction n with
  | zero => rfl
  | succ n ih =>
    have hlist : list (n + 2) ++ ')' :: r = '?' :: ',' :: ' ' :: (list (n + 1) ++ ')' :: r) := by
      rw [list, List.replicate_succ, List.replicate_succ, List.intercalate_cons_cons]
      rfl
    rw [hlist, readMarks?, ih]
    rfl

/-- A subject is not the same text with a parenthesis in front, even if it consists of nothing else. -/
theorem append_space_ne_cons (subject u v : Text) :
    subject ++ ' ' :: u ≠ '(' :: (subject ++ ' ' :: v) := by
  induction subject with
  | nil => simp
  | cons c subject ih =>
    intro h
    obtain ⟨rfl, htail⟩ := List.cons.inj h
    exact ih htail

namespace Test

variable {subject rest t : Text} {m : Membership} {n : Nat}

theorem isPrefixOf?_append (p r : Text) : p.isPrefixOf? (p ++ r) = some r :=
  List.isPrefixOf?_eq_some_iff_append_eq.2 rfl

theorem isPrefixOf?_eq_none {p : Text} (h : ∀ r, p ++ r ≠ t) : p.isPrefixOf? t = none :=
  Option.eq_none_iff_forall_ne_some.2 fun r hr =>
    h r (List.isPrefixOf?_eq_some_iff_append_eq.1 hr)

theorem opening?_test (subject : Text) (m : Membership) (inner rest : Text) :
    opening? subject (test subject m inner ++ rest) = some (m, inner ++ ')' :: rest) := by
  cases m with
  | isIn =>
    have htest : test subject .isIn inner ++ rest =
        (subject ++ " IN (".toList) ++ (inner ++ ')' :: rest) := by
      simp [test, parenthesised, Membership.operator]
    rw [opening?, htest, isPrefixOf?_append]
  | isNotIn =>
    have htest : test subject .isNotIn inner ++ rest =
        (subject ++ " NOT IN (".toList) ++ (inner ++ ')' :: rest) := by
      simp [test, parenthesised, Membership.operator]
    have hnotIn (r : Text) : subject ++ " IN (".toList ++ r ≠
        (subject ++ " NOT IN (".toList) ++ (inner ++ ')' :: rest) := by
      simp
    rw [opening?, htest, isPrefixOf?_eq_none hnotIn, isPrefixOf?_append]
    rfl

theorem read?_test (subject : Text) (m : Membership) (hn : n ≠ 0) (rest : Text) :
    read? subject (test subject m (list n) ++ rest) = some (⟨m, n⟩, rest) := by
  rw [read?, opening?_test]
  simp only [readMarks?_list hn]

theorem opening?_cons_test (subject : Text) (m : Membership) (inner rest : Text) :
    opening? subject ('(' :: (test subject m inner ++ rest)) = none := by
  have htest : '(' :: (test subject m inner ++ rest) =
      '(' :: (subject ++ ' ' :: (m.operator ++ ' ' :: (parenthesised inner ++ rest))) := by
    simp [test]
  have hnone (u r : Text) : subject ++ ' ' :: u ++ r ≠ '(' :: (test subject m inner ++ rest) := by
    rw [htest, List.append_assoc]
    exact append_space_ne_cons _ _ _
  have hin : " IN (".toList = ' ' :: "IN (".toList := by decide
  have hnotIn : " NOT IN (".toList = ' ' :: "NOT IN (".toList := by decide
  rw [opening?, hin, hnotIn, isPrefixOf?_eq_none (hnone _), isPrefixOf?_eq_none (hnone _)]
  rfl

theorem read?_cons_test (subject : Text) (m : Membership) (inner rest : Text) :
    read? subject ('(' :: (test subject m inner ++ rest)) = none := by
  rw [read?, opening?_cons_test]

end Test

/-- The joiner of a test is not read as that of the other one. -/
theorem isPrefixOf?_joiner (m m' : Membership) (rest : Text) :
    m'.joiner.isPrefixOf? (m.joiner ++ rest) = if m = m' then some rest else none := by
  by_cases hm : m = m'
  · rw [hm, if_pos rfl, Test.isPrefixOf?_append]
  · rw [if_neg hm]
    refine Test.isPrefixOf?_eq_none fun r => ?_
    cases m <;> cases m' <;> simp [Membership.joiner] at hm ⊢

section Joined

variable {n : Nat} {sizes : List Nat}

theorem readTests?_last (subject joiner : Text) (m : Membership) (hn : n ≠ 0) :
    readTests? subject joiner (test subject m (list n) ++ [')']) = some [⟨m, n⟩] := by
  rw [readTests?]
  split
  · rename_i hread
    rw [Test.read?_test subject m hn] at hread
    cases hread
  · rename_i test rest hread
    rw [Test.read?_test subject m hn] at hread
    obtain ⟨rfl, rfl⟩ := Prod.mk.inj (Option.some.inj hread)
    rw [if_pos rfl]

theorem readTests?_next (subject : Text) (m m' : Membership) (hn : n ≠ 0) (rest : Text) :
    readTests? subject m'.joiner (test subject m (list n) ++ (m.joiner ++ rest)) =
      if m = m' then (readTests? subject m'.joiner rest).map fun tests => ⟨m, n⟩ :: tests
      else none := by
  have hjoiner : m.joiner ++ rest ≠ [')'] := by cases m <;> simp [Membership.joiner]
  rw [readTests?]
  split
  · rename_i hread
    rw [Test.read?_test subject m hn] at hread
    cases hread
  · rename_i test rest' hread
    rw [Test.read?_test subject m hn] at hread
    obtain ⟨rfl, rfl⟩ := Prod.mk.inj (Option.some.inj hread)
    rw [if_neg hjoiner]
    split
    · rename_i hnone
      rw [isPrefixOf?_joiner] at hnone
      split at hnone
      · cases hnone
      · rename_i hm
        rw [if_neg hm]
    · rename_i next hnext
      rw [isPrefixOf?_joiner] at hnext
      split at hnext
      · rename_i hm
        obtain rfl := Option.some.inj hnext
        rw [if_pos hm]
      · cases hnext

/-- Joined tests, in the text of a statement. -/
def joined (subject : Text) (m : Membership) (sizes : List Nat) : Text :=
  List.intercalate m.joiner (sizes.map fun size => test subject m (list size))

theorem joined_singleton (subject : Text) (m : Membership) (size : Nat) :
    joined subject m [size] = test subject m (list size) :=
  List.intercalate_singleton

theorem joined_cons_cons (subject : Text) (m : Membership) (size next : Nat) (sizes : List Nat) :
    joined subject m (size :: next :: sizes) =
      test subject m (list size) ++ (m.joiner ++ joined subject m (next :: sizes)) := by
  rw [joined, List.map_cons, List.map_cons, List.intercalate_cons_cons, List.append_assoc]
  rfl

theorem readTests?_joined (subject : Text) (m : Membership) (hne : sizes ≠ [])
    (hsizes : ∀ size ∈ sizes, size ≠ 0) :
    readTests? subject m.joiner (joined subject m sizes ++ [')']) =
      some (sizes.map fun size => ⟨m, size⟩) := by
  induction sizes with
  | nil => exact absurd rfl hne
  | cons size sizes ih =>
    obtain ⟨hsize, hsizes⟩ := List.forall_mem_cons.1 hsizes
    cases sizes with
    | nil =>
      rw [joined_singleton]
      exact readTests?_last subject m.joiner m hsize
    | cons next sizes =>
      rw [joined_cons_cons, List.append_assoc, List.append_assoc, readTests?_next subject m m hsize,
        if_pos rfl, ih (List.cons_ne_nil _ _) hsizes]
      rfl

/-- A negative test of two lists is not read as a positive one. -/
theorem readTests?_joined_isNotIn (subject : Text) (hlength : 2 ≤ sizes.length)
    (hsizes : ∀ size ∈ sizes, size ≠ 0) :
    readTests? subject Membership.isIn.joiner (joined subject .isNotIn sizes ++ [')']) = none := by
  match sizes, hlength with
  | size :: next :: sizes, _ =>
    rw [joined_cons_cons, List.append_assoc, List.append_assoc,
      readTests?_next subject _ _ (List.forall_mem_cons.1 hsizes).1]
    rfl

namespace Condition

/-- The condition that tests of several lists are. -/
def ofSizes (m : Membership) (sizes : List Nat) : Condition :=
  match m with
  | .isIn => anyOf (sizes.map fun size => ⟨m, size⟩)
  | .isNotIn => allOf (sizes.map fun size => ⟨m, size⟩)

theorem read?_test (subject : Text) (m : Membership) (hn : n ≠ 0) :
    read? subject (test subject m (list n)) = some (single ⟨m, n⟩) := by
  have hread := Test.read?_test subject m hn []
  rw [List.append_nil] at hread
  simp only [read?, hread]

theorem read?_joined (subject : Text) (m : Membership) (hlength : 2 ≤ sizes.length)
    (hsizes : ∀ size ∈ sizes, size ≠ 0) :
    read? subject (parenthesised (joined subject m sizes)) = some (ofSizes m sizes) := by
  have hne : sizes ≠ [] := by
    rintro rfl
    simp at hlength
  have hsingle : Test.read? subject ('(' :: (joined subject m sizes ++ [')'])) = none := by
    match sizes, hlength with
    | size :: next :: sizes, _ =>
      rw [joined_cons_cons, List.append_assoc]
      exact Test.read?_cons_test subject m _ _
  have htests := readTests?_joined subject m hne hsizes
  cases m with
  | isIn =>
    simp only [read?, parenthesised, hsingle]
    have hor : Membership.isIn.joiner = " OR ".toList := rfl
    rw [← hor, htests]
    rfl
  | isNotIn =>
    have hother := readTests?_joined_isNotIn subject hlength hsizes
    simp only [read?, parenthesised, hsingle]
    have hor : Membership.isIn.joiner = " OR ".toList := rfl
    have hand : Membership.isNotIn.joiner = " AND ".toList := rfl
    rw [← hor, hother, ← hand, htests]
    rfl

variable {same : Value → Value → Truth} {x : Value} {values : List Value}

/-- Tests of the parts of a list have the truth value of a test of the list. -/
theorem join_truths (m : Membership) (h : sizes.sum = values.length) :
    m.join (truths same x (sizes.map fun size => ⟨m, size⟩) values) = m.truth same x values := by
  induction sizes generalizing values with
  | nil =>
    obtain rfl := List.eq_nil_of_length_eq_zero h.symm
    cases m <;> rfl
  | cons size sizes ih =>
    rw [List.sum_cons] at h
    have hdrop : sizes.sum = (values.drop size).length := by
      rw [List.length_drop]
      omega
    have htruth := m.truth_append (values.take size) (values.drop size) _ (ih hdrop)
    rwa [List.take_append_drop] at htruth

theorem truthOf?_test (subject : Text) (m : Membership) (hvalues : values ≠ []) :
    truthOf? same subject x values (test subject m (list values.length)) =
      some (m.truth same x values) := by
  have hlength : values.length ≠ 0 := mt List.eq_nil_of_length_eq_zero hvalues
  simp [truthOf?, read?_test subject m hlength, count, tests, truth]

/-- Tests of several lists, joined in parentheses, have the truth value of the test of one list. -/
theorem truthOf?_joined (subject : Text) (m : Membership) (hlength : 2 ≤ sizes.length)
    (hsizes : ∀ size ∈ sizes, size ≠ 0) (hsum : sizes.sum = values.length) :
    truthOf? same subject x values (parenthesised (joined subject m sizes)) =
      some (m.truth same x values) := by
  have hcount : (ofSizes m sizes).count = values.length := by
    rw [← hsum, count]
    cases m <;> simp [ofSizes, tests, Function.comp_def]
  have htruth : (ofSizes m sizes).truth same x values = m.truth same x values := by
    rw [← join_truths m hsum]
    cases m <;> rfl
  rw [truthOf?, read?_joined subject m hlength hsizes]
  simp only [hcount, if_true, htruth]

end Condition

end Joined

end Marks

end SqlTemplate
