import SqlTemplate.Proofs.Source.Uncommented

/-!
# Counting line ends piece by piece

A carriage return and a line feed behind it are one line end, so the line ends of two texts add up
unless the first one ends with a carriage return and the second one begins with a line feed. No
lexeme is cut there (`Lexeme.sealed_first`): the line ends of a text are those of its first lexeme
and those of what is left behind it.
-/

namespace SqlTemplate

/-- No line end runs from one text into the next. -/
def Sealed (u t : Text) : Prop := u.getLast? = some '\r' → t.head? ≠ some '\n'

theorem sealed_of_getLast? {u : Text} {c : Char} (hu : u.getLast? = some c)
    (hc : isLineBreak c = false) (t : Text) : Sealed u t := by
  intro hlast
  obtain rfl := Option.some.inj (hu.symm.trans hlast)
  exact absurd hc (by decide)

theorem sealed_of_head? {t : Text} {c : Char} (ht : t.head? = some c)
    (hc : isLineBreak c = false) (u : Text) : Sealed u t := by
  intro _ hhead
  obtain rfl := Option.some.inj (ht.symm.trans hhead)
  exact absurd hc (by decide)

theorem sealed_of_forall {u : Text} (h : ∀ c ∈ u, isLineBreak c = false) (t : Text) :
    Sealed u t := by
  intro hlast
  exact absurd (h _ (List.mem_of_getLast? hlast)) (by decide)

theorem sealed_nil (u : Text) : Sealed u [] := fun _ h => absurd h (by simp)

theorem lineEnds_cons {c : Char} {t : Text} (h : c = '\r' → t.head? ≠ some '\n') :
    lineEnds (c :: t) = (if isLineBreak c then 1 else 0) + lineEnds t := by
  rw [lineEnds.eq_def]
  split
  · rename_i heq
    exact absurd heq (List.cons_ne_nil c t)
  · rename_i u heq
    obtain ⟨hc, ht⟩ := List.cons.inj heq
    exact absurd (by rw [ht]; rfl) (h hc)
  · rename_i heq
    obtain ⟨rfl, rfl⟩ := List.cons.inj heq
    split
    · exact Nat.add_comm _ _
    · exact (Nat.zero_add _).symm

theorem Sealed.tail {c : Char} {u t : Text} (h : Sealed (c :: u) t) : Sealed u t := by
  intro hlast
  refine h ?_
  rw [List.getLast?_cons, hlast]
  rfl

theorem Sealed.of_append_right {u v t : Text} (h : Sealed u (v ++ t)) : Sealed u v := by
  intro hlast hhead
  obtain ⟨w, rfl⟩ := List.head?_eq_some_iff.1 hhead
  exact h hlast rfl

theorem Sealed.append {u v t : Text} (hu : Sealed u t) (hv : Sealed v t) : Sealed (u ++ v) t := by
  intro hlast
  rw [List.getLast?_append] at hlast
  cases hc : v.getLast? with
  | none =>
      rw [hc] at hlast
      exact hu hlast
  | some c =>
      rw [hc] at hlast
      exact hv (hc.trans hlast)

theorem Sealed.append_right {u v t : Text} (hv : Sealed v t) (hne : v ≠ []) :
    Sealed (u ++ v) t := by
  intro hlast
  rw [List.getLast?_append, List.getLast?_eq_some_getLast hne] at hlast
  exact hv ((List.getLast?_eq_some_getLast hne).trans hlast)

/-- The line ends of two texts add up, unless one runs from the first into the second. -/
theorem lineEnds_append {u t : Text} (h : Sealed u t) :
    lineEnds (u ++ t) = lineEnds u + lineEnds t := by
  have hstep : ∀ c v, Sealed (c :: v) t → (∀ w, c :: v ≠ '\r' :: '\n' :: w) →
      lineEnds (c :: v ++ t) = (if isLineBreak c then 1 else 0) + lineEnds (v ++ t) := by
    intro c v hv hne
    refine lineEnds_cons fun hc hhead => ?_
    cases v with
    | nil => exact hv (by rw [hc]; rfl) hhead
    | cons d v =>
        obtain rfl := Option.some.inj hhead
        exact hne v (by rw [hc])
  fun_induction lineEnds u with
  | case1 => exact (Nat.zero_add _).symm
  | case2 v ih =>
      have hih := ih h.tail.tail
      simp only [List.cons_append, lineEnds, hih]
      omega
  | case3 c v hne hbreak ih =>
      rw [hstep c v h fun w hw => hne w (List.cons.inj hw).1 (List.cons.inj hw).2, if_pos hbreak,
        ih h.tail]
      omega
  | case4 c v hne hbreak ih =>
      rw [hstep c v h fun w hw => hne w (List.cons.inj hw).1 (List.cons.inj hw).2, if_neg hbreak,
        ih h.tail]
      omega

theorem isLineBreak_eq_false_of_isBlank {x : Char} (h : isBlank x = false) :
    isLineBreak x = false := by
  refine isLineBreak_eq_false_iff.2 ⟨?_, ?_⟩
  · rintro rfl
    exact absurd h (by decide)
  · rintro rfl
    exact absurd h (by decide)

theorem Quote.isLineBreak_char (q : Quote) : isLineBreak q.char = false := by
  cases q <;> decide

/-- A closed literal ends with its quote. -/
theorem Quoted.getLast?_of_closing? {q : Char} {t body rest : Text}
    (h : closing? q t = some (body, rest)) : body.getLast? = some q := by
  have hcons : ∀ c (u : Text), u.getLast? = some q → (c :: u).getLast? = some q := by
    intro c u hu
    rw [List.getLast?_cons, hu, Option.getD_some]
  fun_induction closing? q t generalizing body rest with
  | case1 => simp at h
  | case2 =>
      obtain ⟨rfl, rfl⟩ := Prod.mk.inj (Option.some.inj h)
      rfl
  | case3 => simp at h
  | case4 t b r hb ih =>
      obtain ⟨rfl, rfl⟩ := Prod.mk.inj (Option.some.inj h)
      exact hcons _ _ (hcons _ _ (ih hb))
  | case5 t hb ih =>
      obtain ⟨rfl, rfl⟩ := Prod.mk.inj (Option.some.inj h)
      rfl
  | case6 d t hd =>
      obtain ⟨rfl, rfl⟩ := Prod.mk.inj (Option.some.inj h)
      rfl
  | case7 c d t hc ih =>
      obtain ⟨⟨b, r⟩, hb, he⟩ := Option.map_eq_some_iff.1 h
      obtain ⟨rfl, rfl⟩ := Prod.mk.inj he
      exact hcons _ _ (ih hb)

namespace Sample

theorem isBare_of_mem_bare {t : Text} :
    ∀ c ∈ (bare t).1, isBare c = true ∨ c ∈ "-/*".toList := by
  induction t with
  | nil => simp [bare]
  | cons c t ih =>
      rw [bare]
      split
      · rename_i hc
        rw [List.forall_mem_cons]
        refine ⟨?_, ih⟩
        simp only [Bool.or_eq_true, Bool.and_eq_true, beq_iff_eq] at hc
        rcases hc with ((hbare | ⟨rfl, -⟩) | ⟨rfl, -⟩) | ⟨rfl, -⟩
        · exact .inl hbare
        · exact .inr (by decide)
        · exact .inr (by decide)
        · exact .inr (by decide)
      · simp

theorem isBlank_of_mem_bare {t : Text} : ∀ c ∈ (bare t).1, isBlank c = false := by
  intro c hc
  rcases isBare_of_mem_bare c hc with hbare | hsign
  · simp only [isBare, Bool.and_eq_true, Bool.not_eq_true'] at hbare
    exact hbare.1
  · exact (by simp [isBlank] : ∀ c ∈ "-/*".toList, isBlank c = false) c hsign

theorem isLineBreak_getLast?_of_simple? {t s r : Text} (h : simple? t = some (s, r)) :
    ∃ c, s.getLast? = some c ∧ isLineBreak c = false := by
  unfold simple? at h
  split at h
  · rename_i found hquoted
    obtain rfl := Option.some.inj h
    unfold Quoted.take? at hquoted
    split at hquoted
    · simp at hquoted
    · split at hquoted
      · rename_i q hq
        obtain ⟨⟨b, u⟩, hb, he⟩ := Option.map_eq_some_iff.1 hquoted
        obtain ⟨rfl, rfl⟩ := Prod.mk.inj he
        refine ⟨q.char, ?_, q.isLineBreak_char⟩
        rw [List.getLast?_cons, Quoted.getLast?_of_closing? hb, Option.getD_some]
      · simp at hquoted
  · split at h
    · simp at h
    · rename_i hne
      have hbare := Option.some.inj h
      obtain ⟨front, c, hs⟩ := (List.eq_nil_or_concat s).resolve_left fun hnil => by
        rw [hnil] at hbare
        exact hne r hbare
      rw [List.concat_eq_append] at hs
      have hc : c ∈ (bare t).1 := by
        rw [hbare, hs]
        exact List.mem_append_right _ (List.mem_singleton_self c)
      exact ⟨c, by rw [hs, List.getLast?_concat],
        isLineBreak_eq_false_of_isBlank (isBlank_of_mem_bare c hc)⟩

/-- A sample does not end with a line break. -/
theorem sealed_of_read {t s r : Text} (h : read t = .taken s r) (u : Text) : Sealed s u := by
  unfold read at h
  split at h
  · split at h
    · rename_i hb
      obtain ⟨rfl, rfl⟩ := Reading.taken.inj h
      obtain ⟨-, hlast⟩ := isClosed_of_balanced? (by simp) hb
      exact sealed_of_getLast? hlast (by decide) u
    · simp at h
  · split at h
    · rename_i hsimple
      obtain ⟨rfl, rfl⟩ := Reading.taken.inj h
      obtain ⟨c, hlast, hc⟩ := isLineBreak_getLast?_of_simple? hsimple
      exact sealed_of_getLast? hlast hc u
    · simp at h

end Sample

namespace Lexeme

theorem sealed_ofBlock (body rest : Text) :
    Sealed (ofBlock body rest).1.source (ofBlock body rest).2 := by
  have hclose : ∀ u : Text, Sealed ('/' :: '*' :: (body ++ ['*', '/'])) u := by
    intro u
    refine sealed_of_getLast? ?_ (by decide : isLineBreak '/' = false) u
    rw [List.getLast?_cons, List.getLast?_cons, List.getLast?_append]
    rfl
  unfold ofBlock
  split
  · exact hclose _
  · exact hclose _
  · split
    · exact hclose _
    · rename_i sample rest' hread
      have hsource : (blockDirective body (some sample)).source =
          '/' :: '*' :: (body ++ ['*', '/']) ++ sample := by simp [source]
      rw [hsource]
      exact (hclose _).append (Sample.sealed_of_read hread _)
    · exact sealed_nil _

/-- A line end is taken whole. -/
theorem sealed_chars_of_take? {t rest : Text} {e : LineEnd}
    (h : Delimiter.take? t = some (.lineEnd e, rest)) : Sealed e.chars rest := by
  intro hlast hhead
  obtain ⟨u, rfl⟩ := List.head?_eq_some_iff.1 hhead
  have ht := Delimiter.chars_append_of_take? h
  cases e with
  | crlf => exact absurd hlast (by decide)
  | lf => exact absurd hlast (by decide)
  | cr =>
      rw [ht] at h
      exact absurd h (by simp [Delimiter.chars, LineEnd.chars, Delimiter.take?])

/-- A line comment breaks no line. -/
theorem isLineBreak_of_mem_ofLine (t : Text) :
    ∀ c ∈ (ofLine (restOfLine t).1).source, isLineBreak c = false := by
  rw [source_ofLine]
  exact List.forall_mem_cons.2
    ⟨by decide, List.forall_mem_cons.2 ⟨by decide, isLineBreak_of_mem_restOfLine⟩⟩

theorem sealed_ofDelimiter {t rest : Text} {d : Delimiter} (h : Delimiter.take? t = some (d, rest)) :
    Sealed (ofDelimiter d rest).1.source (ofDelimiter d rest).2 := by
  cases d with
  | lineEnd e => exact sealed_chars_of_take? h
  | opening => exact sealed_of_getLast? rfl (by decide) rest
  | closing => exact sealed_of_getLast? rfl (by decide) rest
  | commentClose => exact sealed_of_getLast? rfl (by decide) rest
  | quote q =>
      simp only [ofDelimiter]
      split
      · rename_i body rest' hclosing
        refine sealed_of_getLast? ?_ q.isLineBreak_char _
        rw [source, List.getLast?_cons, Quoted.getLast?_of_closing? hclosing, Option.getD_some]
      · exact sealed_nil _
  | dashes =>
      exact sealed_of_forall (isLineBreak_of_mem_ofLine rest) _
  | commentOpen =>
      simp only [ofDelimiter]
      split
      · exact sealed_ofBlock _ _
      · exact sealed_nil _

/-- No line end is cut by taking the first lexeme off a text. -/
theorem sealed_first (c : Char) (t : Text) : Sealed (first c t).1.source (first c t).2 := by
  unfold first
  split
  · rename_i h
    exact sealed_ofDelimiter h
  · rename_i h
    intro hlast hhead
    obtain rfl := Option.some.inj hlast
    obtain ⟨u, rfl⟩ := List.head?_eq_some_iff.1 hhead
    exact absurd h (by simp [Delimiter.take?])

theorem lineEnds_first (c : Char) (t : Text) :
    lineEnds (c :: t) = lineEnds (first c t).1.source + lineEnds (first c t).2 := by
  rw [← lineEnds_append (sealed_first c t), source_first]

end Lexeme

end SqlTemplate
