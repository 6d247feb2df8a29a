import SqlTemplate.Proofs.Rendering.Placeholders
import SqlTemplate.Proofs.Rendering.Splitting

/-!
# How long lists are

`lists?` reads the lists of the tests of membership that a condition consists of, whatever they
hold, given the text of the subject. No list of marks is longer than the limit: longer ones are
split. But a sample that is repeated for rows of values stands in one list, and that is never split
(`lists_le_limit_iff`).
-/

namespace SqlTemplate

namespace Opened

theorem length_of_inner? {o : Opened} {t s r : Text} (h : o.inner? t = some (s, r)) :
    r.length < t.length := by
  induction t generalizing o s r with
  | nil => simp [inner?] at h
  | cons c t ih =>
    unfold inner? at h
    split at h
    · obtain ⟨-, rfl⟩ := Prod.mk.inj (Option.some.inj h)
      exact Nat.lt_succ_self _
    · obtain ⟨⟨u, v⟩, hrest, he⟩ := Option.map_eq_some_iff.1 h
      obtain ⟨-, rfl⟩ := Prod.mk.inj he
      exact (ih hrest).trans (Nat.lt_succ_self _)

end Opened

namespace Marks

/-! ### Reading lists -/

/-- Reads a test of membership at the start of a text, and gives back its list, without the
parentheses, and the text behind it. -/
def Membership.read? (subject t : Text) : Option (Membership × Text × Text) :=
  (Test.opening? subject t).bind fun (m, r) =>
    (Opened.nothing.inner? r).map fun (inner, rest) => (m, inner, rest)

theorem Membership.length_of_read? {subject t inner rest : Text} {m : Membership}
    (h : Membership.read? subject t = some (m, inner, rest)) : rest.length < t.length := by
  obtain ⟨⟨m', r⟩, hopening, hr⟩ := Option.bind_eq_some_iff.1 h
  obtain ⟨⟨s, v⟩, hinner, he⟩ := Option.map_eq_some_iff.1 hr
  obtain ⟨-, -, rfl⟩ := he
  exact (Opened.length_of_inner? hinner).trans_le (Test.length_of_opening? hopening)

/-- Reads the lists of tests, each of them joined to the next one as its operator demands, up to a
closing parenthesis at the end of the text. -/
def joinedLists? (subject t : Text) : Option (List Text) :=
  match _ : Membership.read? subject t with
  | none => none
  | some (m, inner, rest) =>
    if rest = [')'] then some [inner]
    else
      match _ : m.joiner.isPrefixOf? rest with
      | none => none
      | some next => (joinedLists? subject next).map fun inners => inner :: inners
termination_by t.length
decreasing_by
  rename_i hread _ hnext
  have hlength := Membership.length_of_read? hread
  have happend := congrArg List.length (List.isPrefixOf?_eq_some_iff_append_eq.1 hnext)
  rw [List.length_append] at happend
  omega

/-- The lists in which a condition looks for its subject: that of one test, or those of tests in
parentheses. -/
def lists? (subject t : Text) : Option (List Text) :=
  match Membership.read? subject t, t with
  | some (_, inner, []), _ => some [inner]
  | none, '(' :: t => joinedLists? subject t
  | _, _ => none

variable {subject inner : Text} {m : Membership} {n : Nat} {sizes : List Nat}

theorem Membership.read?_test (subject : Text) (m : Membership) (hinner : Whole inner)
    (rest : Text) :
    Membership.read? subject (test subject m inner ++ rest) = some (m, inner, rest) := by
  rw [Membership.read?, Test.opening?_test, Option.bind_some]
  dsimp only
  rw [hinner.inner?_append]
  rfl

theorem lists?_test (subject : Text) (m : Membership) (hinner : Whole inner) :
    lists? subject (test subject m inner) = some [inner] := by
  have hread := Membership.read?_test subject m hinner []
  rw [List.append_nil] at hread
  simp only [lists?, hread]

theorem whole_list (count : Nat) : Whole (list count) := by
  have hseparator : Whole ", ".toList := rfl
  refine hseparator.intercalate fun t ht => ?_
  rw [List.eq_of_mem_replicate ht]
  rfl

/-- Behind a test stands the end of the text, or the joiner and further tests. -/
theorem joinedLists?_test (subject : Text) (m : Membership) (hinner : Whole inner) (rest : Text) :
    joinedLists? subject (test subject m inner ++ rest) =
      if rest = [')'] then some [inner]
      else (m.joiner.isPrefixOf? rest).bind fun next =>
        (joinedLists? subject next).map fun inners => inner :: inners := by
  rw [joinedLists?]
  split
  · rename_i hread
    rw [Membership.read?_test subject m hinner] at hread
    cases hread
  · rename_i hread
    rw [Membership.read?_test subject m hinner] at hread
    cases hread
    split
    · rfl
    · split
      · rename_i hnone
        rw [hnone]
        rfl
      · rename_i hnext
        rw [hnext]
        rfl

theorem joinedLists?_joined (subject : Text) (m : Membership) (hne : sizes ≠ []) :
    joinedLists? subject (joined subject m sizes ++ [')']) = some (sizes.map list) := by
  induction sizes with
  | nil => exact absurd rfl hne
  | cons size sizes ih =>
    cases sizes with
    | nil =>
      rw [joined_singleton, joinedLists?_test subject m (whole_list size), if_pos rfl]
      rfl
    | cons next sizes =>
      have hjoiner : m.joiner ++ (joined subject m (next :: sizes) ++ [')']) ≠ [')'] := by
        cases m <;> simp [Membership.joiner]
      rw [joined_cons_cons, List.append_assoc, List.append_assoc,
        joinedLists?_test subject m (whole_list size), if_neg hjoiner, isPrefixOf?_joiner,
        if_pos rfl, Option.bind_some, ih (List.cons_ne_nil _ _)]
      rfl

theorem lists?_joined (subject : Text) (m : Membership) (hne : sizes ≠ []) :
    lists? subject (parenthesised (joined subject m sizes)) = some (sizes.map list) := by
  have hread : Membership.read? subject ('(' :: (joined subject m sizes ++ [')'])) = none := by
    obtain ⟨size, sizes, rfl⟩ := List.exists_cons_of_ne_nil hne
    rw [Membership.read?]
    cases sizes with
    | nil => rw [joined_singleton, Test.opening?_cons_test, Option.bind_none]
    | cons next sizes =>
      rw [joined_cons_cons, List.append_assoc, Test.opening?_cons_test, Option.bind_none]
  simp only [lists?, parenthesised, hread]
  exact joinedLists?_joined subject m hne

/-! ### Limits -/

theorem le_of_mem_partSizes {limit count size : Nat} (h : size ∈ partSizes limit count) :
    size ≤ limit := by
  obtain ⟨start, -, rfl⟩ := List.mem_map.1 h
  exact Nat.min_le_left limit (count - start)

variable {c : Comparison} {count limit : Nat} {sample : Option Text}

/-- Without rows the values stand in lists of marks within the limit. -/
theorem exists_lists?_of_rows?_eq_none (hm : Membership.ofOperator? c.operator = some m)
    (hcount : 1 ≤ count) (hlimit : 1 ≤ limit) (hrows : rows? sample count = none) :
    ∃ (t : Text) (sizes : List Nat), condition c count true sample limit = .ok t ∧
      lists? c.subject t = some (sizes.map list) ∧ sizes.sum = count ∧
      ∀ size ∈ sizes, size ≤ limit := by
  have hcondition : condition c count true sample limit =
      .ok (if count ≤ limit then test c.subject m (list count)
        else parenthesised (joined c.subject m (partSizes limit count))) := by
    rw [condition, if_neg (by simp), hm]
    exact membership_eq c.subject m hlimit hrows
  by_cases hfits : count ≤ limit
  · rw [if_pos hfits] at hcondition
    refine ⟨_, [count], hcondition, lists?_test c.subject m (whole_list count), by simp, ?_⟩
    simpa using hfits
  · rw [if_neg hfits] at hcondition
    exact ⟨_, partSizes limit count, hcondition,
      lists?_joined c.subject m (partSizes_ne_nil (by omega) (by omega)),
      sum_partSizes (by omega) count,
      fun size hsize => le_of_mem_partSizes hsize⟩

/-- For the values of a sequence and an operator that is a test of membership up to case and blanks,
a condition consists of tests of membership, whose lists hold its marks. No list holds more of them
than the limit, unless the sample is repeated for rows of more values than that. The same is true of
placeholders, of which rows may hold fewer than marks. -/
theorem lists_le_limit_iff (hoperator : m.Writes c.operator) (hcount : 1 ≤ count)
    (hlimit : 1 ≤ limit) (hsample : ∀ s, sample = some s → Sample.IsCaptured s) :
    ∃ t ls, condition c count true sample limit = .ok t ∧ lists? c.subject t = some ls ∧
      (ls.map (List.count mark)).sum = count ∧
      ((∀ l ∈ ls, l.count mark ≤ limit) ↔ (rows? sample count = none ∨ count ≤ limit)) ∧
      ((∀ l ∈ ls, placeholders none l ≤ limit) ↔
        ∀ rows, rows? sample count = some rows → placeholders none rows ≤ limit) := by
  have hm := Membership.ofOperator?_of_writes hoperator
  cases hrows : rows? sample count with
  | none =>
    obtain ⟨t, sizes, ht, hlists, hsum, hsizes⟩ :=
      exists_lists?_of_rows?_eq_none hm hcount hlimit hrows
    have hlong : ∀ l ∈ sizes.map list, l.count mark ≤ limit := by
      intro l hl
      obtain ⟨size, hsize, rfl⟩ := List.mem_map.1 hl
      rw [count_list]
      exact hsizes size hsize
    refine ⟨t, _, ht, hlists, ?_, iff_of_true hlong (.inl rfl), iff_of_true ?_ (by simp)⟩
    · rw [List.map_map, ← hsum]
      congr 1
      exact (List.map_congr_left fun size _ => count_list size).trans sizes.map_id
    · exact fun l hl => (placeholders_le_count none l).trans (hlong l hl)
  | some rows =>
    have hwhole : Whole rows := whole_of_rows? (Sample.whole_getD hsample) hrows
    have hmarks := count_of_rows? hrows
    refine ⟨_, [rows], condition_of_rows? hm hrows true limit, lists?_test c.subject m hwhole,
      ?_, ?_, ?_⟩
    · simpa using hmarks
    · simp [hmarks]
    · simp

/-- Five values are no rows of two, and so they are split. -/
theorem lists_le_limit_iff_fiveValues :
    let c : Comparison := ⟨"id".toList, "not\tIn".toList⟩
    let sample : Option Text := some "(?, ?)".toList
    Membership.isNotIn.Writes c.operator ∧ (∀ s, sample = some s → Sample.IsCaptured s) ∧
      rows? sample 5 = none ∧
      ∃ t ls, condition c 5 true sample 2 = .ok t ∧ lists? c.subject t = some ls ∧
        (ls.map (List.count mark)).sum = 5 ∧ (∀ l ∈ ls, l.count mark ≤ 2) := by
  intro c sample
  have hwrites : Membership.isNotIn.Writes c.operator :=
    ⟨["NOT".toList, "IN".toList], by simp [Membership.operators], by decide⟩
  have hread : Sample.read "(?, ?)".toList = .taken "(?, ?)".toList [] := by decide +kernel
  have hsample : ∀ s, sample = some s → Sample.IsCaptured s := by
    intro s hs
    obtain rfl := Option.some.inj hs
    exact .inl ⟨_, _, hread⟩
  have hrows : rows? sample 5 = none := by decide
  obtain ⟨t, ls, ht, hls, hsum, hlimit, -⟩ :=
    lists_le_limit_iff (c := c) hwrites (by decide : 1 ≤ 5) (by decide : 1 ≤ 2) hsample
  exact ⟨hwrites, hsample, hrows, t, ls, ht, hls, hsum, hlimit.2 (.inl hrows)⟩

/-- Two rows of two values stand in one list, although no list may hold more than two. -/
theorem lists_twoRows :
    let c : Comparison := ⟨"a".toList, "IN".toList⟩
    let sample : Text := "(?, ?)".toList
    Membership.isIn.Writes c.operator ∧ Sample.IsCaptured sample ∧
      condition c 4 true (some sample) 2 = .ok "a IN ((?, ?), (?, ?))".toList ∧
      lists? c.subject "a IN ((?, ?), (?, ?))".toList = some ["(?, ?), (?, ?)".toList] ∧
      2 < "(?, ?), (?, ?)".toList.count mark ∧ 2 < placeholders none "(?, ?), (?, ?)".toList := by
  intro c sample
  have hwrites : Membership.isIn.Writes c.operator :=
    ⟨["IN".toList], by simp [Membership.operators], by decide⟩
  have hread : Sample.read sample = .taken sample [] := by decide +kernel
  exact ⟨hwrites, .inl ⟨_, _, hread⟩, by decide, by decide, by decide, by decide⟩

end Marks

end SqlTemplate
