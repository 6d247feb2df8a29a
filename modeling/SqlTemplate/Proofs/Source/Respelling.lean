import SqlTemplate.Proofs.Source.Continuing

/-!
# Other spellings of line ends

`LineEnd.respell e t` is the text `t` with every line feed written as the line end `e`. Inside
of comments, literals and samples a line end is a character like any other, whatever its spelling. So
each of these pieces ends in the same place in the text that is respelled, and a text without
carriage returns has as many lines.
-/

namespace SqlTemplate

/-- A text with every line feed written as the line end `e`. -/
def LineEnd.respell (e : LineEnd) (t : Text) : Text :=
  t.flatMap fun c => if c = '\n' then e.chars else [c]

namespace LineEnd

variable {e : LineEnd} {c x q : Char} {t u v rest : Text}

/-- Two texts, both with other line ends. -/
def respellBoth (e : LineEnd) (p : Text × Text) : Text × Text := (e.respell p.1, e.respell p.2)

@[simp] theorem respell_nil (e : LineEnd) : e.respell [] = [] := rfl

@[simp] theorem respell_lineFeed_cons (e : LineEnd) (t : Text) :
    e.respell ('\n' :: t) = e.chars ++ e.respell t := rfl

theorem respell_cons (hc : c ≠ '\n') : e.respell (c :: t) = c :: e.respell t := by
  rw [respell, List.flatMap_cons, if_neg hc]
  rfl

theorem respell_append (e : LineEnd) (t u : Text) :
    e.respell (t ++ u) = e.respell t ++ e.respell u :=
  List.flatMap_append

theorem respell_of_not_mem (h : '\n' ∉ t) : e.respell t = t := by
  induction t with
  | nil => rfl
  | cons c t ih =>
    rw [List.mem_cons, not_or] at h
    rw [respell_cons (Ne.symm h.1), ih h.2]

theorem respell_cons_of_not_isLineBreak (hc : isLineBreak c = false) :
    e.respell (c :: t) = c :: e.respell t :=
  respell_cons (isLineBreak_eq_false_iff.1 hc).2

/-- A text that is respelled begins with a character that breaks no line just where it did so
before. -/
theorem exists_of_respell_eq_cons (hx : isLineBreak x = false) (h : e.respell t = x :: v) :
    ∃ u, t = x :: u ∧ e.respell u = v := by
  cases t with
  | nil => cases h
  | cons c t =>
    by_cases hc : c = '\n'
    · rw [hc, respell_lineFeed_cons] at h
      exact absurd hx (by cases e <;> (obtain ⟨rfl, -⟩ := List.cons.inj h; decide))
    · rw [respell_cons hc] at h
      obtain ⟨rfl, rfl⟩ := List.cons.inj h
      exact ⟨t, rfl, rfl⟩

theorem head?_respell (hx : isLineBreak x = false) :
    (e.respell t).head? = some x ↔ t.head? = some x := by
  constructor
  · intro h
    obtain ⟨v, hv⟩ := List.head?_eq_some_iff.1 h
    obtain ⟨u, rfl, -⟩ := exists_of_respell_eq_cons hx hv
    rfl
  · intro h
    obtain ⟨u, rfl⟩ := List.head?_eq_some_iff.1 h
    rw [respell_cons_of_not_isLineBreak hx]
    rfl

/-- No line feed is left where line feeds are written as carriage returns. -/
theorem head?_respell_cr (t : Text) : (cr.respell t).head? ≠ some '\n' := by
  cases t with
  | nil => simp
  | cons c t =>
    by_cases hc : c = '\n'
    · rw [hc]
      simp [chars]
    · rw [respell_cons hc]
      simpa using hc

theorem sealed_respell (e : LineEnd) (t : Text) : e = .cr → (e.respell t).head? ≠ some '\n' := by
  rintro rfl
  exact head?_respell_cr t

/-- A text has as many lines however its line ends are spelled. -/
theorem lineEnds_respell (h : '\r' ∉ t) : lineEnds (e.respell t) = lineEnds t := by
  induction t with
  | nil => rfl
  | cons c t ih =>
    rw [List.mem_cons, not_or] at h
    by_cases hc : c = '\n'
    · rw [hc, respell_lineFeed_cons, lineEnds_chars_append e _ (sealed_respell e t), ih h.2]
      rfl
    · have hbreak := isLineBreak_eq_false_iff.2 ⟨Ne.symm h.1, hc⟩
      rw [respell_cons hc, lineEnds_cons_of_not_isLineBreak _ hbreak,
        lineEnds_cons_of_not_isLineBreak _ hbreak, ih h.2]

theorem isBlankText_respell (e : LineEnd) (t : Text) :
    isBlankText (e.respell t) = isBlankText t := by
  have hchars : isBlankText e.chars = true := by cases e <;> decide
  have hlineFeed : isBlank '\n' = true := by decide
  induction t with
  | nil => rfl
  | cons c t ih =>
    by_cases hc : c = '\n'
    · rw [hc, respell_lineFeed_cons, isBlankText, List.all_append, ← isBlankText, ← isBlankText,
        hchars, ih, isBlankText_cons, hlineFeed]
    · rw [respell_cons hc, isBlankText_cons, isBlankText_cons, ih]

/-! ### Reading the pieces of a text -/

/-- Text in front of what was found, respelled with it. -/
theorem map_append_respellBoth (e : LineEnd) (u : Text) (found : Option (Text × Text)) :
    (found.map e.respellBoth).map (fun (b, r) => (e.respell u ++ b, r)) =
      (found.map fun (b, r) => (u ++ b, r)).map e.respellBoth := by
  cases found with
  | none => rfl
  | some p => simp [respellBoth, respell_append]

/-- A character is written as itself or as characters that break lines. -/
theorem respell_singleton_cases (e : LineEnd) (c : Char) :
    (isLineBreak c = true ∧ ∀ x ∈ e.respell [c], isLineBreak x = true) ∨
      isLineBreak c = false ∧ e.respell [c] = [c] := by
  cases hc : isLineBreak c with
  | false => exact .inr ⟨rfl, respell_cons_of_not_isLineBreak hc⟩
  | true =>
    refine .inl ⟨rfl, ?_⟩
    by_cases hlineFeed : c = '\n'
    · rw [hlineFeed, respell_lineFeed_cons, respell_nil, List.append_nil]
      exact Comment.isLineBreak_of_mem_chars
    · rw [respell_cons hlineFeed]
      exact List.forall_mem_singleton.2 hc

theorem ne_of_mem_respell_singleton (hq : isLineBreak q = false) (hc : c ≠ q) :
    ∀ x ∈ e.respell [c], x ≠ q := by
  rcases respell_singleton_cases e c with ⟨-, hbreaks⟩ | ⟨-, hsame⟩
  · rintro x hx rfl
    rw [hbreaks x hx] at hq
    cases hq
  · rw [hsame]
    exact List.forall_mem_singleton.2 hc

theorem respell_singleton_append (e : LineEnd) (c : Char) (t : Text) :
    e.respell (c :: t) = e.respell [c] ++ e.respell t :=
  respell_append e [c] t

theorem exists_respell_cons_eq (hc : isLineBreak c = true) (e : LineEnd) (t : Text) :
    ∃ x v, isLineBreak x = true ∧ e.respell (c :: t) = x :: v := by
  have hne : e.respell [c] ≠ [] := by
    by_cases hlineFeed : c = '\n'
    · rw [hlineFeed]
      cases e <;> simp [chars]
    · rw [respell_cons hlineFeed]
      exact List.cons_ne_nil _ _
  rcases respell_singleton_cases e c with ⟨-, hbreaks⟩ | ⟨hfalse, -⟩
  · obtain ⟨x, v, hv⟩ := List.exists_cons_of_ne_nil hne
    rw [respell_singleton_append, hv]
    exact ⟨x, _, hbreaks x (hv ▸ List.mem_cons_self), rfl⟩
  · rw [hc] at hfalse
    cases hfalse

theorem closing?_append_of_forall_ne (hu : ∀ x ∈ u, x ≠ q) (t : Text) :
    Quoted.closing? q (u ++ t) = (Quoted.closing? q t).map fun (b, r) => (u ++ b, r) := by
  induction u with
  | nil => exact Option.map_id'.symm
  | cons c u ih =>
    obtain ⟨hc, hu⟩ := List.forall_mem_cons.1 hu
    have hcons : Quoted.closing? q (c :: (u ++ t)) =
        (Quoted.closing? q (u ++ t)).map fun (b, r) => (c :: b, r) := by
      cases u ++ t with
      | nil => simp [Quoted.closing?, hc]
      | cons d v => simp [Quoted.closing?, hc]
    rw [List.cons_append, hcons, ih hu, Option.map_map]
    rfl

/-- A quote that no other quote follows closes a literal. -/
theorem closing?_quote_cons (h : t.head? ≠ some q) :
    Quoted.closing? q (q :: t) = some ([q], t) := by
  cases t with
  | nil => simp [Quoted.closing?]
  | cons d t =>
    have hd : d ≠ q := by simpa using h
    simp [Quoted.closing?, hd]

theorem closing?_respell (e : LineEnd) (hq : isLineBreak q = false) (t : Text) :
    Quoted.closing? q (e.respell t) = (Quoted.closing? q t).map e.respellBoth := by
  have hskip : ∀ c t, c ≠ q →
      Quoted.closing? q (e.respell t) = (Quoted.closing? q t).map e.respellBoth →
      Quoted.closing? q (e.respell (c :: t)) =
        ((Quoted.closing? q t).map fun (b, r) => (c :: b, r)).map e.respellBoth := by
    intro c t hc ih
    rw [respell_singleton_append,
      closing?_append_of_forall_ne (ne_of_mem_respell_singleton hq hc), ih]
    exact map_append_respellBoth e [c] _
  have hquote : ∀ t, e.respell (q :: t) = q :: e.respell t :=
    fun t => respell_cons_of_not_isLineBreak hq
  fun_induction Quoted.closing? q t with
  | case1 => rfl
  | case2 =>
    rw [hquote, respell_nil, closing?_quote_cons (by simp)]
    simp [respellBoth, hquote]
  | case3 c hc => exact hskip c [] hc rfl
  | case4 t b r hb ih =>
    rw [hb] at ih
    simp [hquote, Quoted.closing?, ih, respellBoth]
  | case5 t hb ih =>
    rw [hb] at ih
    simp [hquote, Quoted.closing?, ih, respellBoth]
  | case6 d t hd =>
    have hhead : (e.respell (d :: t)).head? ≠ some q := by
      rw [Ne, head?_respell hq]
      simpa using hd
    rw [hquote, closing?_quote_cons hhead]
    simp [respellBoth, hquote]
  | case7 c d t hc ih => exact hskip c (d :: t) hc ih

theorem ofChar?_of_isLineBreak (h : isLineBreak c = true) : Quote.ofChar? c = none := by
  rcases isLineBreak_eq_true_iff.1 h with rfl | rfl
  · rfl
  · rfl

theorem quotedTake?_respell (e : LineEnd) (t : Text) :
    Quoted.take? (e.respell t) = (Quoted.take? t).map e.respellBoth := by
  cases t with
  | nil => rfl
  | cons c t =>
    cases hc : isLineBreak c with
    | true =>
      obtain ⟨x, v, hx, hv⟩ := exists_respell_cons_eq hc e t
      rw [hv]
      simp only [Quoted.take?, ofChar?_of_isLineBreak hc, ofChar?_of_isLineBreak hx]
      rfl
    | false =>
      rw [respell_cons_of_not_isLineBreak hc]
      simp only [Quoted.take?]
      cases hq : Quote.ofChar? c with
      | none => rfl
      | some q =>
        have hpiece : e.respell [c] = [c] := respell_cons_of_not_isLineBreak hc
        have hmap := map_append_respellBoth e [c] (Quoted.closing? q.char t)
        rw [hpiece] at hmap
        simp only [closing?_respell e q.isLineBreak_char]
        exact hmap

theorem isOther_respell (h : Comment.IsOther (c :: t)) :
    Comment.IsOther (c :: e.respell t) := by
  constructor
  · intro v heq
    obtain ⟨rfl, hv⟩ := List.cons.inj heq
    obtain ⟨u, rfl, -⟩ := exists_of_respell_eq_cons (by decide) hv
    exact h.1 u rfl
  · intro v heq
    obtain ⟨rfl, hv⟩ := List.cons.inj heq
    obtain ⟨u, rfl, -⟩ := exists_of_respell_eq_cons (by decide) hv
    exact h.2 u rfl

theorem close?_respell (e : LineEnd) (depth : Nat) (t : Text) :
    Comment.close? depth (e.respell t) = (Comment.close? depth t).map e.respellBoth := by
  fun_induction Comment.close? depth t with
  | case1 depth => rfl
  | case2 t => rfl
  | case3 depth t ih =>
    have hclosing : e.respell ('*' :: '/' :: t) = '*' :: '/' :: e.respell t := rfl
    rw [hclosing, Comment.close?, ih]
    exact map_append_respellBoth e ['*', '/'] _
  | case4 depth t ih =>
    have hopening : e.respell ('/' :: '*' :: t) = '/' :: '*' :: e.respell t := rfl
    rw [hopening, Comment.close?, ih]
    exact map_append_respellBoth e ['/', '*'] _
  | case5 depth c t hclose hclosing hopening ih =>
    have hother := Comment.isOther_of_forall hclose hclosing hopening
    have hpiece : Comment.close? depth (e.respell [c] ++ e.respell t) =
        (Comment.close? depth (e.respell t)).map fun (b, r) => (e.respell [c] ++ b, r) := by
      rcases respell_singleton_cases e c with ⟨-, hbreaks⟩ | ⟨-, hsame⟩
      · exact Comment.close?_append_of_isLineBreak hbreaks
      · rw [hsame]
        exact Comment.close?_cons (isOther_respell hother)
    rw [respell_singleton_append, hpiece, ih]
    exact map_append_respellBoth e [c] _

theorem restOfLine_respell (e : LineEnd) (t : Text) :
    restOfLine (e.respell t) = ((restOfLine t).1, e.respell (restOfLine t).2) := by
  have hbody : ∀ c ∈ (restOfLine t).1, isLineBreak c = false := isLineBreak_of_mem_restOfLine
  have hsplit : t = (restOfLine t).1 ++ (restOfLine t).2 := List.takeWhile_append_dropWhile.symm
  have hsame : e.respell (restOfLine t).1 = (restOfLine t).1 :=
    respell_of_not_mem fun hmem => absurd (hbody _ hmem) (by decide)
  have hrest : ∀ x ∈ (e.respell (restOfLine t).2).head?, isLineBreak x = true := by
    cases hr : (restOfLine t).2 with
    | nil => simp
    | cons c r =>
      have hhead := List.head?_dropWhile_not (fun c => !isLineBreak c) t
      have hc : isLineBreak c = true := by
        rw [show t.dropWhile (fun c => !isLineBreak c) = c :: r from hr] at hhead
        simpa using hhead
      obtain ⟨x, v, hx, hv⟩ := exists_respell_cons_eq hc e r
      rw [hv]
      simpa using hx
  conv_lhs => rw [hsplit, respell_append, hsame]
  exact restOfLine_append hbody hrest

/-! ### Samples -/

/-- The characters that matter where a sample in parentheses is read: the quote of the literal that is
open, or else quotes and parentheses. -/
def watched : Option Char → Text
  | some q => [q]
  | none => ['\'', '"', '(', ')']

theorem balanced?_append_of_not_mem {depth : Int} {quote : Option Char}
    (hu : ∀ x ∈ u, x ∉ watched quote) (t : Text) :
    Sample.balanced? depth quote (u ++ t) =
      (Sample.balanced? depth quote t).map fun (b, r) => (u ++ b, r) := by
  induction u with
  | nil => exact Option.map_id'.symm
  | cons c u ih =>
    obtain ⟨hc, hu⟩ := List.forall_mem_cons.1 hu
    have hcons : Sample.balanced? depth quote (c :: (u ++ t)) =
        (Sample.balanced? depth quote (u ++ t)).map fun (b, r) => (c :: b, r) := by
      rw [Sample.balanced?.eq_def]
      cases quote with
      | some q => simp only [if_neg (mt List.mem_singleton.2 hc)]
      | none =>
        simp only [watched, List.mem_cons, List.not_mem_nil, or_false, not_or] at hc
        simp only [hc, or_self, if_false]
    rw [List.cons_append, hcons, ih hu, Option.map_map]
    rfl

theorem balanced?_quote_cons (depth : Int) (h : t.head? ≠ some q) :
    Sample.balanced? depth (some q) (q :: t) =
      (Sample.balanced? depth none t).map fun (b, r) => (q :: b, r) := by
  cases t with
  | nil => simp [Sample.balanced?]
  | cons d t =>
    have hd : d ≠ q := by simpa using h
    rw [Sample.balanced?]
    simp only [if_true, if_neg hd]

/-- A character behind which reading goes on in another way, whatever follows. -/
theorem balanced?_respell_cons {depth depth' : Int} {quote quote' : Option Char}
    (hc : isLineBreak c = false)
    (hturn : ∀ w, Sample.balanced? depth quote (c :: w) =
      (Sample.balanced? depth' quote' w).map fun (b, r) => (c :: b, r))
    (ht : Sample.balanced? depth' quote' (e.respell t) =
      (Sample.balanced? depth' quote' t).map e.respellBoth) :
    Sample.balanced? depth quote (e.respell (c :: t)) =
      ((Sample.balanced? depth' quote' t).map fun (b, r) => (c :: b, r)).map e.respellBoth := by
  have hmap := map_append_respellBoth e [c] (Sample.balanced? depth' quote' t)
  rw [respell_cons_of_not_isLineBreak hc] at hmap ⊢
  rw [hturn, ht]
  exact hmap

/-- A character that does not matter is passed over, and so is what it is written as. -/
theorem balanced?_respell_cons_of_not_mem {depth : Int} {quote : Option Char}
    (hquote : ∀ q ∈ quote, isLineBreak q = false) (hc : c ∉ watched quote)
    (ht : Sample.balanced? depth quote (e.respell t) =
      (Sample.balanced? depth quote t).map e.respellBoth) :
    Sample.balanced? depth quote (e.respell (c :: t)) =
      ((Sample.balanced? depth quote t).map fun (b, r) => (c :: b, r)).map e.respellBoth := by
  have hbreak : ∀ x ∈ watched quote, isLineBreak x = false := by
    intro x hx
    cases quote with
    | some q => exact List.mem_singleton.1 hx ▸ hquote q rfl
    | none =>
      revert x
      simp [watched, isLineBreak]
  have hpiece : ∀ x ∈ e.respell [c], x ∉ watched quote := fun x hx hmem =>
    ne_of_mem_respell_singleton (hbreak x hmem) (fun heq => hc (by rwa [heq])) x hx rfl
  rw [respell_singleton_append, balanced?_append_of_not_mem hpiece, ht]
  exact map_append_respellBoth e [c] _

theorem balanced?_respell (e : LineEnd) {depth : Int} {quote : Option Char}
    (hquote : ∀ q ∈ quote, isLineBreak q = false) (t : Text) :
    Sample.balanced? depth quote (e.respell t) =
      (Sample.balanced? depth quote t).map e.respellBoth := by
  have hnone : ∀ q ∈ (none : Option Char), isLineBreak q = false := by simp
  fun_induction Sample.balanced? depth quote t with
  | case1 => rfl
  | case2 depth q t ih =>
    have hq := hquote q rfl
    have hmap := map_append_respellBoth e [q, q] (Sample.balanced? depth (some q) t)
    rw [respell_cons_of_not_isLineBreak hq, respell_cons_of_not_isLineBreak hq] at hmap ⊢
    rw [Sample.balanced?]
    simp only [if_true, ih hquote]
    exact hmap
  | case3 depth q d t hd ih =>
    have hq := hquote q rfl
    have hhead : (e.respell (d :: t)).head? ≠ some q := by
      rw [Ne, head?_respell hq]
      simpa using hd
    have hmap := map_append_respellBoth e [q] (Sample.balanced? depth none (d :: t))
    rw [respell_cons_of_not_isLineBreak hq] at hmap ⊢
    rw [balanced?_quote_cons depth hhead, ih hnone]
    exact hmap
  | case4 depth q =>
    rw [respell_cons_of_not_isLineBreak (hquote q rfl)]
    simp [Sample.balanced?]
  | case5 depth c t q hc ih =>
    exact balanced?_respell_cons_of_not_mem hquote (mt List.mem_singleton.1 hc) (ih hquote)
  | case6 depth c t hc ih =>
    have hbreak : isLineBreak c = false := by rcases hc with rfl | rfl <;> decide
    refine balanced?_respell_cons hbreak (fun w => ?_) (ih (by simpa using hbreak))
    rw [Sample.balanced?.eq_def]
    simp only [if_pos hc]
  | case7 depth t hquotes ih =>
    refine balanced?_respell_cons (by decide) (fun w => ?_) (ih hnone)
    rw [Sample.balanced?.eq_def]
    simp only [if_neg hquotes, if_true]
  | case8 t hquotes hopening =>
    rw [respell_cons_of_not_isLineBreak (by decide), Sample.balanced?.eq_def]
    simp only [if_neg hquotes, if_neg hopening, if_true]
    rfl
  | case9 depth t hdepth hquotes hopening ih =>
    refine balanced?_respell_cons (by decide) (fun w => ?_) (ih hnone)
    rw [Sample.balanced?.eq_def]
    simp only [if_neg hquotes, if_neg hopening, if_neg hdepth, if_true]
  | case10 depth c t hquotes hopening hclosing ih =>
    refine balanced?_respell_cons_of_not_mem hnone ?_ (ih hnone)
    rw [not_or] at hquotes
    simp [watched, hquotes, hopening, hclosing]

theorem bare_respell (e : LineEnd) (t : Text) :
    Sample.bare (e.respell t) = e.respellBoth (Sample.bare t) := by
  have hdash : isLineBreak '-' = false := by decide
  have hstar : isLineBreak '*' = false := by decide
  have hslash : isLineBreak '/' = false := by decide
  have hhead {x : Char} (hx : isLineBreak x = false) (t : Text) :
      ((e.respell t).head? != some x) = (t.head? != some x) := by
    rw [Bool.eq_iff_iff, bne_iff_ne, bne_iff_ne, Ne, Ne, head?_respell hx]
  have hstop {c : Char} (hc : isLineBreak c = true) (t : Text) :
      Sample.bare (c :: t) = ([], c :: t) := by
    rcases isLineBreak_eq_true_iff.1 hc with rfl | rfl
    · rfl
    · rfl
  induction t with
  | nil => rfl
  | cons c t ih =>
    cases hc : isLineBreak c with
    | true =>
      obtain ⟨x, v, hx, hv⟩ := exists_respell_cons_eq hc e t
      rw [hstop hc, hv, hstop hx, respellBoth, hv]
      rfl
    | false =>
      rw [respell_cons_of_not_isLineBreak hc, Sample.bare, Sample.bare, hhead hdash, hhead hstar,
        hhead hslash, ih]
      split
      · simp only [respellBoth, respell_cons_of_not_isLineBreak hc]
      · simp only [respellBoth, respell_cons_of_not_isLineBreak hc, respell_nil]

theorem simple?_respell (e : LineEnd) (t : Text) :
    Sample.simple? (e.respell t) = (Sample.simple? t).map e.respellBoth := by
  unfold Sample.simple?
  rw [quotedTake?_respell, bare_respell]
  cases Quoted.take? t with
  | some found => rfl
  | none =>
    rcases hbare : Sample.bare t with ⟨_ | ⟨c, s⟩, r⟩
    · rfl
    · have hc := isLineBreak_eq_false_of_isBlank (Sample.isBlank_of_mem_bare c (by rw [hbare]; simp))
      simp only [Option.map_none, respellBoth, respell_cons_of_not_isLineBreak hc, Option.map_some]

/-- What a sample is, respelled. -/
def respellReading (e : LineEnd) : Sample.Reading → Sample.Reading
  | .taken s r => .taken (e.respell s) (e.respell r)
  | r => r

theorem read_respell (e : LineEnd) (t : Text) :
    Sample.read (e.respell t) = e.respellReading (Sample.read t) := by
  have hhead : (e.respell t).head? = some '(' ↔ t.head? = some '(' := head?_respell (by decide)
  unfold Sample.read
  rw [balanced?_respell e (by simp), simple?_respell]
  simp only [hhead]
  split
  · cases Sample.balanced? 0 none t <;> rfl
  · cases Sample.simple? t <;> rfl

end LineEnd

end SqlTemplate
