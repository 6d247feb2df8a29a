import SqlTemplate.Source.Cursor

/-!
# Moves of cursors

`Cursor.At` says where a cursor is: what stands before it, the number of its line, and what is left
of the text. Every move of a cursor is described by what it passes, and the line number grows by the
line ends that are passed.
-/

namespace SqlTemplate

namespace Pattern

variable {p : Pattern} {t : Text} {k : Nat} {x : Taken}

/-- A pattern begins nowhere in a text that `rest` follows. -/
def Free (p : Pattern) (u rest : Text) : Prop :=
  ∀ v w, u = v ++ w → w ≠ [] → p.take? (w ++ rest) = none

theorem Free.cons {c : Char} {u rest : Text} (h : p.take? (c :: u ++ rest) = none)
    (hu : p.Free u rest) : p.Free (c :: u) rest := by
  intro v w hvw hw
  cases v with
  | nil =>
      rw [List.nil_append] at hvw
      rwa [← hvw]
  | cons d v => exact hu v w (List.cons.inj hvw).2 hw

/-- What is found is the first place where the pattern begins. -/
theorem exists_of_search?_eq_some (h : p.search? t = some (k, x)) :
    ∃ u v, t = u ++ v ∧ u.length = k ∧ p.take? v = some x ∧ p.Free u v := by
  induction t generalizing k with
  | nil =>
      obtain ⟨y, hy, heq⟩ := Option.map_eq_some_iff.1 h
      obtain ⟨rfl, rfl⟩ := Prod.mk.inj heq
      exact ⟨[], [], rfl, rfl, hy, fun v w hvw hw =>
        absurd (List.append_eq_nil_iff.1 hvw.symm).2 hw⟩
  | cons c t ih =>
      rw [search?] at h
      split at h
      · rename_i y hy
        obtain ⟨rfl, rfl⟩ := Prod.mk.inj (Option.some.inj h)
        exact ⟨[], c :: t, rfl, rfl, hy, fun v w hvw hw =>
          absurd (List.append_eq_nil_iff.1 hvw.symm).2 hw⟩
      · rename_i hnone
        obtain ⟨⟨j, y⟩, hfound, heq⟩ := Option.map_eq_some_iff.1 h
        obtain ⟨rfl, rfl⟩ := Prod.mk.inj heq
        obtain ⟨u, v, rfl, rfl, htake, hfree⟩ := ih hfound
        exact ⟨c :: u, v, rfl, rfl, htake, hfree.cons hnone⟩

theorem free_of_search?_eq_none (h : p.search? t = none) : p.Free t [] := by
  induction t with
  | nil => exact fun v w hvw hw => absurd (List.append_eq_nil_iff.1 hvw.symm).2 hw
  | cons c t ih =>
      rw [search?] at h
      split at h
      · simp at h
      · rename_i hnone
        refine Free.cons ?_ (ih (Option.map_eq_none_iff.1 h))
        rwa [List.append_nil]

/-- A line end begins where a line break stands. -/
theorem exists_lineEnd_of_isLineBreak {c : Char} (v : Text) (hc : isLineBreak c = true) :
    ∃ e rest, Delimiter.take? (c :: v) = some (.lineEnd e, rest) := by
  rcases isLineBreak_eq_true_iff.1 hc with rfl | rfl
  · cases v with
    | nil => exact ⟨.cr, [], rfl⟩
    | cons d v =>
        by_cases hd : d = '\n'
        · exact ⟨.crlf, v, by rw [hd]; rfl⟩
        · exact ⟨.cr, d :: v, by simp [Delimiter.take?, hd]⟩
  · exact ⟨.lf, v, rfl⟩

/-- There is no line break in a text that is free of a pattern which begins with line ends. -/
theorem Free.isLineBreak_eq_false {u rest : Text} (h : p.Free u rest)
    (hp : ∀ t e r, Delimiter.take? t = some (.lineEnd e, r) → p.take? t ≠ none) :
    ∀ c ∈ u, isLineBreak c = false := by
  intro c hc
  obtain ⟨v, w, rfl⟩ := List.append_of_mem hc
  cases hbreak : isLineBreak c with
  | false => rfl
  | true =>
      obtain ⟨e, r, htake⟩ := exists_lineEnd_of_isLineBreak (w ++ rest) hbreak
      exact absurd (h v (c :: w) rfl (List.cons_ne_nil _ _)) (hp _ e r htake)

/-- A delimiter or the end is always found. -/
theorem exists_search?_delimiter (t : Text) : ∃ found, delimiter.search? t = some found := by
  induction t with
  | nil => exact ⟨_, rfl⟩
  | cons c t ih =>
      obtain ⟨found, hfound⟩ := ih
      rw [search?, hfound]
      split
      · exact ⟨_, rfl⟩
      · exact ⟨_, rfl⟩

theorem Free.take?_eq_none {u rest : Text} (h : delimiter.Free u rest) :
    ∀ v w, u = v ++ w → w ≠ [] → Delimiter.take? (w ++ rest) = none := by
  intro v w hvw hw
  have hnone : delimiter.take? (w ++ rest) = none := h v w hvw hw
  cases htake : Delimiter.take? (w ++ rest) with
  | none => rfl
  | some found =>
      rw [Pattern.take?, htake] at hnone
      exact absurd hnone (by simp)

theorem isLineBreak_of_free_delimiter {u rest : Text} (h : delimiter.Free u rest) :
    ∀ c ∈ u, isLineBreak c = false :=
  h.isLineBreak_eq_false fun t e r htake => by simp [Pattern.take?, htake]

end Pattern

namespace Delimiter

/-- The first delimiter of the text `t` is `d`, with `u` before it and `rest` behind it. -/
structure First (d : Delimiter) (u rest t : Text) : Prop where
  text : t = u ++ (d.chars ++ rest)
  take : take? (d.chars ++ rest) = some (d, rest)
  free : Pattern.delimiter.Free u (d.chars ++ rest)

variable {d : Delimiter} {u rest t : Text}

theorem First.lineEnds_eq (h : d.First u rest t) : lineEnds (u ++ d.chars) = lineEnds d.chars :=
  lineEnds_append_of_all_not _ _ (Pattern.isLineBreak_of_free_delimiter h.free)

theorem First.length_lt (h : d.First u rest t) : rest.length < t.length := by
  have hpos := List.length_pos_iff.2 d.chars_ne_nil
  rw [h.text, List.length_append, List.length_append]
  omega

end Delimiter

namespace Cursor

/-- The cursor is on the line `line`, with `before` before it and `rest` behind it. -/
structure At (c : Cursor) (before : Text) (line : Nat) (rest : Text) : Prop where
  text : c.text = before ++ rest
  pos : c.pos = before.length
  line : c.line = line

variable {c : Cursor} {before u rest : Text} {line : Nat} {p : Pattern} {x : Taken}

theorem between_append {t v w : Text} (h : c.text = t ++ (v ++ w)) :
    c.between t.length (t.length + v.length) = v := by
  rw [between, h, ← List.append_assoc, List.take_left' (List.length_append ..), List.drop_left]

theorem At.rest_eq (h : c.At before line rest) : c.rest = rest := by
  rw [Cursor.rest, h.text, h.pos, List.drop_left]

theorem At.toNat_line (h : c.At before line rest) : c.line.toNat = line := by
  rw [h.line, Int.toNat_natCast]

theorem At.remember (h : c.At before line rest) : c.remember.At before line rest :=
  ⟨h.text, h.pos, h.line⟩

theorem At.moveTo (h : c.At before line (u ++ rest)) {pos : Nat}
    (hpos : pos = before.length + u.length) :
    (c.moveTo pos).At (before ++ u) (line + lineEnds u) rest := by
  refine ⟨?_, ?_, ?_⟩
  · rw [text_moveTo, h.text, List.append_assoc]
  · rw [pos_moveTo, hpos, List.length_append]
  · have hbetween : c.between c.pos pos = u := by
      rw [h.pos, hpos, between_append h.text]
    change c.line + lineEnds (c.between c.pos pos) = _
    rw [hbetween, h.line]
    rfl

theorem At.find_eq_none (h : c.At before line rest) (hc : c.exhausted = false)
    (hsearch : p.search? rest = none) : c.find p = (c, none) := by
  rw [find, hc, h.rest_eq, hsearch]
  rfl

theorem At.meet (h : c.At before line (u ++ (x.text ++ rest))) :
    (c.meet (before ++ u).length x).At (before ++ (u ++ x.text)) (line + lineEnds (u ++ x.text))
      rest := by
  have hat : c.At before line ((u ++ x.text) ++ rest) :=
    ⟨by rw [h.text, List.append_assoc], h.pos, h.line⟩
  have hpos : (before ++ u).length + x.text.length = before.length + (u ++ x.text).length := by
    rw [List.length_append, List.length_append, Nat.add_assoc]
  have hmoved := hat.moveTo hpos
  exact ⟨hmoved.text, hmoved.pos, hmoved.line⟩

/-- The cursor moves over what it skips and over what it looks for. -/
theorem At.find_eq (h : c.At before line (u ++ (x.text ++ rest))) (hc : c.exhausted = false)
    (hsearch : p.search? (u ++ (x.text ++ rest)) = some (u.length, x)) :
    ∃ next, c.find p = (next, some ⟨(before ++ u).length, x⟩) ∧
      next.found = some ⟨(before ++ u).length, x⟩ ∧ next.mark = c.mark ∧
      next.At (before ++ (u ++ x.text)) (line + lineEnds (u ++ x.text)) rest ∧
      (x.text ≠ [] → next.exhausted = false) := by
  have hstart : c.pos + u.length = (before ++ u).length := by rw [h.pos, List.length_append]
  have hfind : c.find p =
      ({ c.meet (before ++ u).length x with
          exhausted := (c.meet (before ++ u).length x).pos == c.text.length && x.text.isEmpty },
        some ⟨(before ++ u).length, x⟩) := by
    rw [find, hc, h.rest_eq, hsearch]
    simp only [hstart]
    rfl
  refine ⟨_, hfind, rfl, rfl, ⟨h.meet.text, h.meet.pos, h.meet.line⟩, fun hne => ?_⟩
  rw [List.isEmpty_eq_false_iff.2 hne, Bool.and_false]

theorem At.consume_eq_none (h : c.At before line rest) (htake : p.take? rest = none) :
    c.consume p = (c, none) := by
  rw [consume, h.rest_eq, htake]

/-- The cursor moves over a pattern that begins right there. -/
theorem At.consume_eq (h : c.At before line (x.text ++ rest))
    (htake : p.take? (x.text ++ rest) = some x) :
    ∃ next, c.consume p = (next, some ⟨before.length, x⟩) ∧ next.exhausted = c.exhausted ∧
      next.At (before ++ x.text) (line + lineEnds x.text) rest := by
  have hmeet : (c.meet before.length x).At (before ++ x.text) (line + lineEnds x.text) rest := by
    have hat := At.meet (u := []) h
    rwa [List.append_nil, List.nil_append] at hat
  refine ⟨c.meet before.length x, ?_, rfl, hmeet⟩
  rw [consume, h.rest_eq, htake, h.pos]
  rfl

theorem At.advance_eq (h : c.At before line (u ++ rest)) :
    ∃ next, c.advance u.length = (next, u) ∧ next.exhausted = c.exhausted ∧
      next.At (before ++ u) (line + lineEnds u) rest := by
  have hpos : min (c.pos + u.length) c.text.length = before.length + u.length := by
    rw [h.pos, h.text, List.length_append, List.length_append]
    omega
  refine ⟨c.moveTo (before.length + u.length), ?_, rfl, h.moveTo rfl⟩
  rw [advance, hpos, h.pos, between_append h.text]

/-- Going back undoes a move. -/
theorem At.back (h : c.At (before ++ u) (line + lineEnds u) rest) :
    (c.back u.length).At before line (u ++ rest) := by
  have hpos : c.pos - u.length = before.length := by
    rw [h.pos, List.length_append, Nat.add_sub_cancel]
  have htext : c.text = before ++ (u ++ rest) := by rw [h.text, List.append_assoc]
  have hbetween : c.between (c.pos - u.length) c.pos = u := by
    rw [hpos, h.pos, List.length_append, between_append htext]
  refine ⟨htext, hpos, ?_⟩
  change c.line - lineEnds (c.between (c.pos - u.length) c.pos) = _
  rw [hbetween, h.line, Int.natCast_add]
  omega

/-- Between the remembered place and what was found is what was skipped. -/
theorem At.takeRemembered (h : c.At (before ++ (u ++ x.text)) line rest)
    (hfound : c.found = some ⟨(before ++ u).length, x⟩) (hmark : c.mark = before.length) :
    c.takeRemembered = (c.remember, u) := by
  have hmax : max (before ++ u).length before.length = before.length + u.length := by
    rw [List.length_append]
    omega
  have htext : c.text = before ++ (u ++ (x.text ++ rest)) := by
    rw [h.text, List.append_assoc, List.append_assoc]
  rw [Cursor.takeRemembered, hfound, hmark]
  simp only [Option.map_some, Option.getD_some]
  rw [hmax, between_append htext]

/-- The cursor is where it may look for the next delimiter, with nothing remembered but its
place. -/
structure Ready (c : Cursor) (before : Text) (line : Nat) (rest : Text) : Prop
    extends At c before line rest where
  mark : c.mark = before.length
  unexhausted : c.exhausted = false

theorem At.ready (h : c.At before line rest) (hc : c.exhausted = false) :
    c.remember.Ready before line rest :=
  ⟨h.remember, h.pos, hc⟩

/-- A delimiter is found, or the end of the text. -/
theorem Ready.find_delimiter (h : c.Ready before line rest) :
    (∃ next found, c.find .delimiter = (next, some found) ∧ found.taken.text = [] ∧
      next.takeRemembered = (next.remember, rest) ∧ next.remember.At (before ++ rest) line [] ∧
      Pattern.delimiter.Free rest []) ∨
    ∃ (u : Text) (d : Delimiter) (behind : Text) (next : Cursor) (found : Found),
      d.First u behind rest ∧ c.find .delimiter = (next, some found) ∧
      found.taken.text = d.chars ∧ next.takeRemembered = (next.remember, u) ∧
      next.remember.Ready (before ++ (u ++ d.chars)) (line + lineEnds d.chars) behind := by
  obtain ⟨⟨k, x⟩, hsearch⟩ := Pattern.exists_search?_delimiter rest
  obtain ⟨u, v, rfl, rfl, htake, hfree⟩ := Pattern.exists_of_search?_eq_some hsearch
  cases hv : Delimiter.take? v with
  | none =>
      have hempty : v = [] ∧ x = ⟨[], []⟩ := by
        rw [Pattern.take?, hv] at htake
        simp only at htake
        split at htake
        · rename_i hnil
          exact ⟨List.isEmpty_iff.1 hnil, (Option.some.inj htake).symm⟩
        · simp at htake
      obtain ⟨rfl, rfl⟩ := hempty
      have hend : c.At before line (u ++ ((⟨[], []⟩ : Taken).text ++ [])) := h.toAt
      obtain ⟨next, hfind, hfound, hmark, hat, -⟩ := hend.find_eq h.unexhausted hsearch
      left
      have htaken := hat.takeRemembered hfound (hmark.trans h.mark)
      rw [List.append_nil] at hat ⊢
      rw [lineEnds_eq_zero (Pattern.isLineBreak_of_free_delimiter hfree)] at hat
      exact ⟨next, _, hfind, rfl, htaken, hat.remember, hfree⟩
  | some found =>
      obtain ⟨d, behind⟩ := found
      obtain rfl : x = ⟨d.chars, []⟩ := by
        rw [Pattern.take?, hv] at htake
        exact (Option.some.inj htake).symm
      obtain rfl := Delimiter.chars_append_of_take? hv
      obtain ⟨next, hfind, hfound, hmark, hat, hnext⟩ :=
        h.toAt.find_eq (x := ⟨d.chars, []⟩) h.unexhausted hsearch
      right
      have hfirst : d.First u behind (u ++ (d.chars ++ behind)) := ⟨rfl, hv, hfree⟩
      have hready := hat.ready (hnext d.chars_ne_nil)
      rw [hfirst.lineEnds_eq] at hready
      exact ⟨u, d, behind, next, _, hfirst, hfind, rfl,
        hat.takeRemembered hfound (hmark.trans h.mark), hready⟩

/-- The rest of a line is always found, and going back over its line end leaves the cursor before
it. -/
theorem At.find_restOfLine (h : c.At before line rest) (hc : c.exhausted = false) :
    ∃ ending next found, c.find .restOfLine = (next, some found) ∧
      found.taken.parts = [(restOfLine rest).1, ending] ∧
      (next.back ending.length).remember.Ready (before ++ (restOfLine rest).1) line
        (restOfLine rest).2 := by
  obtain ⟨ending, behind, hbehind, htake⟩ : ∃ ending behind,
      (restOfLine rest).2 = ending ++ behind ∧ Pattern.restOfLine.take? rest =
        some ⟨(restOfLine rest).1 ++ ending, [(restOfLine rest).1, ending]⟩ := by
    cases htake : LineEnd.take? (restOfLine rest).2 with
    | none => exact ⟨[], _, rfl, by simp only [Pattern.take?, htake, Option.map_none, Option.getD_none]⟩
    | some found =>
        refine ⟨found.1.chars, found.2, LineEnd.chars_append_of_take? htake, ?_⟩
        simp only [Pattern.take?, htake, Option.map_some, Option.getD_some]
  have hsplit : rest = (restOfLine rest).1 ++ (ending ++ behind) := by
    rw [← hbehind]
    exact (List.takeWhile_append_dropWhile ..).symm
  have hbreaks : ∀ x ∈ (restOfLine rest).1, isLineBreak x = false := isLineBreak_of_mem_restOfLine
  have hsearch : Pattern.restOfLine.search? rest =
      some (0, ⟨(restOfLine rest).1 ++ ending, [(restOfLine rest).1, ending]⟩) := by
    cases rest with
    | nil => rw [Pattern.search?, htake]; rfl
    | cons x rest => rw [Pattern.search?, htake]
  generalize (restOfLine rest).1 = comment at *
  rw [hbehind]
  subst hsplit
  rw [← List.append_assoc] at h hsearch
  obtain ⟨next, hfind, -, -, hat, -⟩ :=
    At.find_eq (u := []) (x := ⟨comment ++ ending, [comment, ending]⟩) h hc hsearch
  refine ⟨ending, next, _, hfind, rfl, ?_⟩
  rw [List.nil_append, lineEnds_append_of_all_not _ _ hbreaks, ← List.append_assoc] at hat
  exact hat.back.ready rfl

/-- The opening or the closing of a comment or a line end is found, if there is one left. -/
theorem At.find_comment (h : c.At before line rest) (hc : c.exhausted = false) :
    (c.find .commentDelimiter = (c, none) ∧ Pattern.commentDelimiter.Free rest []) ∨
    ∃ u d behind next found, rest = u ++ (d.chars ++ behind) ∧
      Delimiter.take? (d.chars ++ behind) = some (d, behind) ∧
      (d = .commentOpen ∨ d = .commentClose ∨ ∃ e, d = .lineEnd e) ∧
      Pattern.commentDelimiter.Free u (d.chars ++ behind) ∧
      c.find .commentDelimiter = (next, some found) ∧ found.taken.text = d.chars ∧
      found.start = (before ++ u).length ∧ next.found = some found ∧ next.exhausted = false ∧
      next.At (before ++ (u ++ d.chars)) (line + lineEnds (u ++ d.chars)) behind := by
  cases hsearch : Pattern.commentDelimiter.search? rest with
  | none => exact .inl ⟨h.find_eq_none hc hsearch, Pattern.free_of_search?_eq_none hsearch⟩
  | some found =>
      right
      obtain ⟨k, x⟩ := found
      obtain ⟨u, v, rfl, rfl, htake, hfree⟩ := Pattern.exists_of_search?_eq_some hsearch
      obtain ⟨d, behind, hv, hd, rfl⟩ : ∃ d behind, Delimiter.take? v = some (d, behind) ∧
          (d = .commentOpen ∨ d = .commentClose ∨ ∃ e, d = .lineEnd e) ∧ x = ⟨d.chars, []⟩ := by
        rw [Pattern.take?] at htake
        split at htake
        · rename_i behind hv
          exact ⟨_, behind, hv, .inl rfl, (Option.some.inj htake).symm⟩
        · rename_i behind hv
          exact ⟨_, behind, hv, .inr (.inl rfl), (Option.some.inj htake).symm⟩
        · rename_i e behind hv
          exact ⟨_, behind, hv, .inr (.inr ⟨e, rfl⟩), (Option.some.inj htake).symm⟩
        · simp at htake
      obtain rfl := Delimiter.chars_append_of_take? hv
      obtain ⟨next, hfind, hfound, -, hat, hnext⟩ := At.find_eq (x := ⟨d.chars, []⟩) h hc hsearch
      exact ⟨u, d, behind, next, _, rfl, hv, hd, hfree, hfind, rfl, rfl, hfound,
        hnext d.chars_ne_nil, hat⟩

end Cursor

end SqlTemplate
