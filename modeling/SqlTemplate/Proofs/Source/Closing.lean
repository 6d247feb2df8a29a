import SqlTemplate.Proofs.Source.Moves
import SqlTemplate.Proofs.Source.Seams

/-!
# Comments inside of comments

Where comments are nested, the end of the outer one is looked for behind the ends of the inner ones.
`Comment.close?_succ` says so of the closing of a comment and `Comment.openLines_of_close?` of the
lines where comments were opened that are still open at the end of a text.
-/

namespace SqlTemplate

namespace Comment

variable {depth : Nat} {c : Char} {t u v rest body : Text} {line : Nat} {stack inner : List Nat}

/-- Neither the opening nor the closing of a comment begins with a text. -/
def IsOther (t : Text) : Prop := (∀ v, t ≠ '/' :: '*' :: v) ∧ ∀ v, t ≠ '*' :: '/' :: v

theorem isOther_of_forall {m : Nat} (hclose : ∀ v, m = 0 → c = '*' → t = '/' :: v → False)
    (hclosing : ∀ n v, m = n + 1 → c = '*' → t = '/' :: v → False)
    (hopening : ∀ v, c = '/' → t = '*' :: v → False) : IsOther (c :: t) := by
  refine ⟨fun v heq => hopening v (List.cons.inj heq).1 (List.cons.inj heq).2, fun v heq => ?_⟩
  obtain ⟨hc, ht⟩ := List.cons.inj heq
  cases m with
  | zero => exact hclose v rfl hc ht
  | succ m => exact hclosing m v rfl hc ht

theorem close?_cons (h : IsOther (c :: t)) :
    close? depth (c :: t) = (close? depth t).map fun (b, r) => (c :: b, r) := by
  rw [close?.eq_def]
  split
  · rename_i heq
    exact absurd heq (List.cons_ne_nil _ _)
  · rename_i heq
    exact absurd heq (h.2 _)
  · rename_i heq
    exact absurd heq (h.2 _)
  · rename_i heq
    exact absurd heq (h.1 _)
  · rename_i heq
    obtain ⟨rfl, rfl⟩ := List.cons.inj heq
    rfl

theorem openLines_cons (h : IsOther (c :: t)) (hc : isLineBreak c = false) :
    openLines stack line (c :: t) = openLines stack line t := by
  rw [openLines.eq_def]
  split
  · rename_i heq
    exact absurd heq (List.cons_ne_nil _ _)
  · rename_i heq
    exact absurd heq (h.2 _)
  · rename_i heq
    exact absurd heq (h.1 _)
  · rename_i heq
    obtain ⟨rfl, rfl⟩ := List.cons.inj heq
    exact absurd hc (by decide)
  · rename_i heq
    obtain ⟨rfl, rfl⟩ := List.cons.inj heq
    rw [hc]
    rfl

section Free

open Pattern

theorem isOther_of_free (h : commentDelimiter.Free (c :: u) v) : IsOther (c :: (u ++ v)) := by
  have hnone : commentDelimiter.take? (c :: (u ++ v)) = none :=
    h [] (c :: u) rfl (List.cons_ne_nil _ _)
  constructor
  · intro w heq
    rw [heq] at hnone
    exact absurd hnone (by simp [Pattern.take?, Delimiter.take?])
  · intro w heq
    rw [heq] at hnone
    exact absurd hnone (by simp [Pattern.take?, Delimiter.take?])

theorem isLineBreak_of_free (h : commentDelimiter.Free u v) :
    ∀ c ∈ u, isLineBreak c = false :=
  h.isLineBreak_eq_false fun t e r htake => by simp [Pattern.take?, htake]

/-- The closing of a comment is looked for behind a text where nothing of comments begins. -/
theorem close?_append_of_free (h : commentDelimiter.Free u v) :
    close? depth (u ++ v) = (close? depth v).map fun (b, r) => (u ++ b, r) := by
  induction u with
  | nil => exact Option.map_id'.symm
  | cons c u ih =>
      have hu : commentDelimiter.Free u v := fun w x hwx hx =>
        h (c :: w) x (by rw [hwx]; rfl) hx
      rw [List.cons_append, close?_cons (isOther_of_free h), ih hu, Option.map_map]
      rfl

theorem openLines_append_of_free (h : commentDelimiter.Free u v) :
    openLines stack line (u ++ v) = openLines stack line v := by
  induction u with
  | nil => rfl
  | cons c u ih =>
      have hu : commentDelimiter.Free u v := fun w x hwx hx =>
        h (c :: w) x (by rw [hwx]; rfl) hx
      rw [List.cons_append, openLines_cons (isOther_of_free h)
        (isLineBreak_of_free h c (List.mem_cons_self ..)), ih hu]

end Free

section LineEnds

variable {e : LineEnd}

theorem isOther_of_isLineBreak (hc : isLineBreak c = true) (t : Text) : IsOther (c :: t) := by
  constructor
  · intro v heq
    obtain ⟨rfl, -⟩ := List.cons.inj heq
    exact absurd hc (by decide)
  · intro v heq
    obtain ⟨rfl, -⟩ := List.cons.inj heq
    exact absurd hc (by decide)

theorem isLineBreak_of_mem_chars : ∀ c ∈ e.chars, isLineBreak c = true := by
  cases e with
  | crlf => exact List.forall_mem_cons.2 ⟨rfl, List.forall_mem_singleton.2 rfl⟩
  | cr => exact List.forall_mem_singleton.2 rfl
  | lf => exact List.forall_mem_singleton.2 rfl

theorem close?_append_of_isLineBreak (h : ∀ c ∈ u, isLineBreak c = true) :
    close? depth (u ++ v) = (close? depth v).map fun (b, r) => (u ++ b, r) := by
  induction u with
  | nil => exact Option.map_id'.symm
  | cons c u ih =>
      rw [List.forall_mem_cons] at h
      rw [List.cons_append, close?_cons (isOther_of_isLineBreak h.1 _), ih h.2, Option.map_map]
      rfl

/-- The closing is looked for behind the first line end. -/
theorem close?_append_lineEnd (h : Pattern.commentDelimiter.Free u (e.chars ++ v)) :
    close? depth (u ++ (e.chars ++ v)) =
      (close? depth v).map fun (b, r) => (u ++ e.chars ++ b, r) := by
  rw [close?_append_of_free h, close?_append_of_isLineBreak isLineBreak_of_mem_chars,
    Option.map_map]
  simp only [Function.comp_def, List.append_assoc]

/-- The closing is looked for behind the first comment that is opened inside. -/
theorem close?_append_opening (h : Pattern.commentDelimiter.Free u ('/' :: '*' :: v)) :
    close? depth (u ++ '/' :: '*' :: v) =
      (close? (depth + 1) v).map fun (b, r) => (u ++ '/' :: '*' :: b, r) := by
  rw [close?_append_of_free h, close?, Option.map_map]
  rfl

theorem openLines_chars_append (h : Delimiter.take? (e.chars ++ t) = some (.lineEnd e, t)) :
    openLines stack line (e.chars ++ t) = openLines stack (line + 1) t := by
  cases e with
  | crlf => rfl
  | lf => rfl
  | cr =>
      have hsealed := Lexeme.sealed_chars_of_take? h
      cases t with
      | nil => rfl
      | cons c t =>
          have hc : c ≠ '\n' := by
            rintro rfl
            exact hsealed rfl rfl
          rw [LineEnd.chars, List.singleton_append, openLines.eq_def]
          split
          · rename_i heq
            exact absurd heq (List.cons_ne_nil _ _)
          · rename_i heq
            exact absurd (List.cons.inj heq).1 (by decide)
          · rename_i heq
            exact absurd (List.cons.inj heq).1 (by decide)
          · rename_i heq
            exact absurd (List.cons.inj (List.cons.inj heq).2).1 hc
          · rename_i heq
            obtain ⟨rfl, rfl⟩ := List.cons.inj heq
            rfl

end LineEnds

/-- The closing of a comment inside of which another one is open stands behind the closing of that
one. -/
theorem close?_add (m depth : Nat) (t : Text) :
    close? (m + depth + 1) t = (close? m t).bind fun (b, r) =>
      (close? depth r).map fun (b', r') => (b ++ '*' :: '/' :: b', r') := by
  have hmap : ∀ (u : Text) (found : Option (Text × Text)),
      ((found.bind fun (b, r) =>
        (close? depth r).map fun (b', r') => (b ++ '*' :: '/' :: b', r')).map
          fun (b, r) => (u ++ b, r)) =
        (found.map fun (b, r) => (u ++ b, r)).bind fun (b, r) =>
          (close? depth r).map fun (b', r') => (b ++ '*' :: '/' :: b', r') := by
    intro u found
    cases found with
    | none => rfl
    | some p => simp [Option.map_map, Function.comp_def]
  fun_induction close? m t with
  | case1 => rfl
  | case2 t =>
      rw [Nat.zero_add]
      rfl
  | case3 m t ih =>
      rw [Nat.add_right_comm m 1 depth, close?, ih]
      exact hmap ['*', '/'] _
  | case4 m t ih =>
      rw [Nat.add_right_comm m 1 depth] at ih
      rw [close?, ih]
      exact hmap ['/', '*'] _
  | case5 m c t hclose hclosing hopening ih =>
      rw [close?_cons (isOther_of_forall hclose hclosing hopening), ih]
      exact hmap [c] _

/-- A character that neither opens nor closes a comment counts as a line end, or it does not. -/
theorem exists_openLines_cons (h : IsOther (c :: t)) :
    ∃ k, (∀ stack line, openLines stack line (c :: t) = openLines stack (line + k) t) ∧
      lineEnds (c :: t) = k + lineEnds t ∧
      ∀ body rest, t = body ++ '*' :: '/' :: rest → lineEnds (c :: body) = k + lineEnds body := by
  by_cases hcrlf : ∃ u, c = '\r' ∧ t = '\n' :: u
  · obtain ⟨u, rfl, rfl⟩ := hcrlf
    refine ⟨0, fun stack line => rfl, (Nat.zero_add _).symm, fun body rest hbody => ?_⟩
    cases body with
    | nil => exact absurd (List.cons.inj hbody).1 (by decide)
    | cons d body =>
        obtain ⟨rfl, -⟩ := List.cons.inj hbody
        exact (Nat.zero_add _).symm
  · refine ⟨if isLineBreak c then 1 else 0, fun stack line => ?_, lineEnds_cons fun hc hhead => ?_,
      fun body rest hbody => ?_⟩
    · rw [openLines.eq_def]
      split
      · rename_i heq
        exact absurd heq (List.cons_ne_nil _ _)
      · rename_i heq
        exact absurd heq (h.2 _)
      · rename_i heq
        exact absurd heq (h.1 _)
      · rename_i u heq
        exact absurd ⟨u, List.cons.inj heq⟩ hcrlf
      · rename_i heq
        obtain ⟨rfl, rfl⟩ := List.cons.inj heq
        split <;> rfl
    · obtain ⟨u, rfl⟩ := List.head?_eq_some_iff.1 hhead
      exact hcrlf ⟨u, hc, rfl⟩
    · refine lineEnds_cons fun hc hhead => ?_
      obtain ⟨u, rfl⟩ := List.head?_eq_some_iff.1 hhead
      exact hcrlf ⟨u ++ '*' :: '/' :: rest, hc, hbody⟩

/-- The comments that are closed are not open at the end. -/
theorem openLines_of_close? {m : Nat} (h : close? m t = some (body, rest))
    (hinner : inner.length = m + 1) (stack : List Nat) (line : Nat) :
    openLines (inner ++ stack) line t = openLines stack (line + lineEnds body) rest := by
  fun_induction close? m t generalizing body rest inner line with
  | case1 => simp at h
  | case2 t =>
      obtain ⟨rfl, rfl⟩ := Prod.mk.inj (Option.some.inj h)
      obtain ⟨k, rfl⟩ := List.length_eq_one_iff.1 hinner
      rfl
  | case3 m t ih =>
      obtain ⟨⟨b, r⟩, hb, heq⟩ := Option.map_eq_some_iff.1 h
      obtain ⟨rfl, rfl⟩ := Prod.mk.inj heq
      obtain ⟨k, inner, rfl⟩ := List.exists_cons_of_length_eq_add_one hinner
      exact ih hb (Nat.succ.inj hinner) line
  | case4 m t ih =>
      obtain ⟨⟨b, r⟩, hb, heq⟩ := Option.map_eq_some_iff.1 h
      obtain ⟨rfl, rfl⟩ := Prod.mk.inj heq
      have hlength : (line :: inner).length = m + 1 + 1 := congrArg (· + 1) hinner
      exact ih hb hlength line
  | case5 m c t hclose hclosing hopening ih =>
      obtain ⟨⟨b, r⟩, hb, heq⟩ := Option.map_eq_some_iff.1 h
      obtain ⟨rfl, rfl⟩ := Prod.mk.inj heq
      obtain ⟨k, hlines, -, hends⟩ :=
        exists_openLines_cons (isOther_of_forall hclose hclosing hopening)
      rw [hlines, ih hb hinner, hends b r (append_of_close? hb), Nat.add_assoc]

/-- The comments that were open before are still open at the end, behind one that is never
closed. -/
theorem openLines_of_close?_eq_none {m : Nat} (h : close? m t = none)
    (hinner : inner.length = m + 1) (stack : List Nat) (line : Nat) :
    openLines (inner ++ stack) line t = openLines inner line t ++ stack ∧
      openLines inner line t ≠ [] := by
  fun_induction close? m t generalizing inner line with
  | case1 m =>
      have hlines : ∀ opened, openLines opened line [] = opened := fun opened => by rw [openLines]
      rw [hlines, hlines]
      refine ⟨rfl, ?_⟩
      rintro rfl
      exact absurd hinner (by simp)
  | case2 t => simp at h
  | case3 m t ih =>
      obtain ⟨k, inner, rfl⟩ := List.exists_cons_of_length_eq_add_one hinner
      exact ih (Option.map_eq_none_iff.1 h) (Nat.succ.inj hinner) line
  | case4 m t ih =>
      have hlength : (line :: inner).length = m + 1 + 1 := congrArg (· + 1) hinner
      exact ih (Option.map_eq_none_iff.1 h) hlength line
  | case5 m c t hclose hclosing hopening ih =>
      obtain ⟨k, hlines, -⟩ := exists_openLines_cons (isOther_of_forall hclose hclosing hopening)
      rw [hlines, hlines]
      exact ih (Option.map_eq_none_iff.1 h) hinner (line + k)

end Comment

end SqlTemplate
