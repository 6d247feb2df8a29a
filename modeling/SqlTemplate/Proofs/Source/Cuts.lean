import SqlTemplate.Proofs.Source.Respelling

/-!
# Cuts and line ends

A text without carriage returns is cut into lexemes in the same places however its line ends are
spelled (`LineEnd.lexemes_respell`): the pieces of the respelled text are the pieces of the text, each
of them respelled.
-/

namespace SqlTemplate

/-- The lexeme of a text whose line feeds are written as the line end `e`. -/
def Lexeme.respell (e : LineEnd) : Lexeme → Lexeme
  | lineEnd _ => lineEnd e
  | quoted q body => quoted q (e.respell body)
  | comment body => comment (e.respell body)
  | hint body => hint (e.respell body)
  | blockDirective body sample => blockDirective (e.respell body) (sample.map e.respell)
  | openQuote q rest => openQuote q (e.respell rest)
  | openComment rest => openComment (e.respell rest)
  | openSample body rest => openSample (e.respell body) (e.respell rest)
  | l => l

namespace LineEnd

variable {e : LineEnd} {c : Char} {t rest : Text}

/-- A comment that begins with a line break and is not blank is a directive. -/
theorem useOf_cons_of_isLineBreak (hc : isLineBreak c = true) (t : Text) :
    Lexeme.useOf (c :: t) = if isBlankText (c :: t) then .nothing else .directive := by
  rcases isLineBreak_eq_true_iff.1 hc with rfl | rfl
  · rfl
  · rfl

theorem useOf_respell (e : LineEnd) (t : Text) : Lexeme.useOf (e.respell t) = Lexeme.useOf t := by
  have hblank := isBlankText_respell e t
  cases t with
  | nil => rfl
  | cons c t =>
    cases hc : isLineBreak c with
    | false =>
      rw [respell_cons_of_not_isLineBreak hc] at hblank ⊢
      unfold Lexeme.useOf
      rw [hblank]
      split
      · rfl
      · split <;> simp_all
    | true =>
      obtain ⟨x, v, hx, hv⟩ := exists_respell_cons_eq hc e t
      rw [hv] at hblank ⊢
      rw [useOf_cons_of_isLineBreak hx, useOf_cons_of_isLineBreak hc, hblank]

/-- A lexeme and what is left behind it, respelled. -/
def respellLexeme (e : LineEnd) (p : Lexeme × Text) : Lexeme × Text :=
  (p.1.respell e, e.respell p.2)

theorem ofBlock_respell (e : LineEnd) (body rest : Text) :
    Lexeme.ofBlock (e.respell body) (e.respell rest) =
      e.respellLexeme (Lexeme.ofBlock body rest) := by
  unfold Lexeme.ofBlock
  rw [useOf_respell, read_respell]
  cases Lexeme.useOf body with
  | nothing => rfl
  | hint => rfl
  | directive => cases Sample.read rest <;> rfl

theorem ofDelimiter_respell (e : LineEnd) {d : Delimiter} (hd : ∀ f, d ≠ .lineEnd f) (t : Text) :
    Lexeme.ofDelimiter d (e.respell t) = e.respellLexeme (Lexeme.ofDelimiter d t) := by
  cases d with
  | lineEnd f => exact absurd rfl (hd f)
  | opening => rfl
  | closing => rfl
  | commentClose => rfl
  | quote q =>
    simp only [Lexeme.ofDelimiter, closing?_respell e q.isLineBreak_char]
    cases Quoted.closing? q.char t <;> rfl
  | dashes =>
    have hline : ∀ body, (Lexeme.ofLine body).respell e = Lexeme.ofLine body := by
      intro body
      unfold Lexeme.ofLine
      split <;> rfl
    simp only [Lexeme.ofDelimiter, restOfLine_respell, respellLexeme, hline]
  | commentOpen =>
    simp only [Lexeme.ofDelimiter, close?_respell]
    cases Comment.close? 0 t with
    | none => rfl
    | some found => exact ofBlock_respell e found.1 found.2

theorem take?_append_of_ne_lineEnd {d : Delimiter} (hd : ∀ f, d ≠ .lineEnd f) (rest : Text) :
    Delimiter.take? (d.chars ++ rest) = some (d, rest) := by
  cases d with
  | lineEnd f => exact absurd rfl (hd f)
  | quote q => cases q <;> rfl
  | _ => rfl

theorem respell_chars (e : LineEnd) {d : Delimiter} (hd : ∀ f, d ≠ .lineEnd f) (t : Text) :
    e.respell (d.chars ++ t) = d.chars ++ e.respell t := by
  cases d with
  | lineEnd f => exact absurd rfl (hd f)
  | quote q => cases q <;> rfl
  | _ => rfl

/-- What begins with a character that breaks no line is no line end. -/
theorem ne_lineEnd_of_chars_eq {d : Delimiter} (hc : isLineBreak c = false)
    (hchars : c :: t = d.chars ++ rest) (f : LineEnd) : d ≠ .lineEnd f := by
  rintro rfl
  obtain ⟨x, v, hx⟩ := List.exists_cons_of_ne_nil (Delimiter.chars_ne_nil (.lineEnd f))
  have hbreak := Comment.isLineBreak_of_mem_chars (e := f) x (by
    rw [show f.chars = x :: v from hx]
    exact List.mem_cons_self)
  rw [hx] at hchars
  rw [(List.cons.inj hchars).1, hbreak] at hc
  cases hc

/-- Where no delimiter begins, none begins in the other spelling. -/
theorem take?_respell_of_none (h : Delimiter.take? (c :: t) = none) :
    Delimiter.take? (c :: e.respell t) = none := by
  have hc : isLineBreak c = false := by
    by_contra hbreak
    obtain ⟨f, rest, htake⟩ := Pattern.exists_lineEnd_of_isLineBreak t (by simpa using hbreak)
    rw [h] at htake
    cases htake
  by_contra hsome
  obtain ⟨⟨d, rest⟩, htake⟩ := Option.ne_none_iff_exists'.1 hsome
  have hchars := Delimiter.chars_append_of_take? htake
  have hd := ne_lineEnd_of_chars_eq hc hchars
  have hback : ∃ u, c :: t = d.chars ++ u := by
    cases d with
    | lineEnd f => exact absurd rfl (hd f)
    | quote q => exact ⟨t, congrArg (· :: t) (List.cons.inj hchars).1⟩
    | opening => exact ⟨t, congrArg (· :: t) (List.cons.inj hchars).1⟩
    | closing => exact ⟨t, congrArg (· :: t) (List.cons.inj hchars).1⟩
    | commentOpen =>
      obtain ⟨rfl, hrest⟩ := List.cons.inj hchars
      obtain ⟨u, rfl, -⟩ := exists_of_respell_eq_cons (by decide) hrest
      exact ⟨u, rfl⟩
    | commentClose =>
      obtain ⟨rfl, hrest⟩ := List.cons.inj hchars
      obtain ⟨u, rfl, -⟩ := exists_of_respell_eq_cons (by decide) hrest
      exact ⟨u, rfl⟩
    | dashes =>
      obtain ⟨rfl, hrest⟩ := List.cons.inj hchars
      obtain ⟨u, rfl, -⟩ := exists_of_respell_eq_cons (by decide) hrest
      exact ⟨u, rfl⟩
  obtain ⟨u, hu⟩ := hback
  rw [hu, take?_append_of_ne_lineEnd hd] at h
  cases h

/-- The first lexeme of a text that does not begin with a line break. -/
theorem first_respell (e : LineEnd) (hc : isLineBreak c = false) (t : Text) :
    Lexeme.first c (e.respell t) = e.respellLexeme (Lexeme.first c t) := by
  unfold Lexeme.first
  cases htake : Delimiter.take? (c :: t) with
  | none =>
    rw [take?_respell_of_none htake]
    rfl
  | some found =>
    obtain ⟨d, rest⟩ := found
    have hchars := Delimiter.chars_append_of_take? htake
    have hd := ne_lineEnd_of_chars_eq hc hchars
    have hother : Delimiter.take? (c :: e.respell t) = some (d, e.respell rest) := by
      rw [← respell_cons_of_not_isLineBreak hc, hchars, respell_chars e hd,
        take?_append_of_ne_lineEnd hd]
    rw [hother]
    exact ofDelimiter_respell e hd rest

/-- A text without carriage returns is cut in the same places however its line ends are spelled. -/
theorem lexemes_respell (e : LineEnd) (h : '\r' ∉ t) :
    lexemes (e.respell t) = (lexemes t).map (Lexeme.respell e) := by
  fun_induction lexemes t with
  | case1 => rw [respell_nil, lexemes_nil, List.map_nil]
  | case2 c t ih =>
    have hrest : '\r' ∉ (Lexeme.first c t).2 := by
      intro hmem
      rw [← Lexeme.source_first c t] at h
      exact h (List.mem_append_right _ hmem)
    cases hc : isLineBreak c with
    | false =>
      rw [respell_cons_of_not_isLineBreak hc, lexemes_cons, first_respell e hc, respellLexeme,
        ih hrest, List.map_cons]
    | true =>
      have hlineFeed : c = '\n' := by
        refine (isLineBreak_eq_true_iff.1 hc).resolve_left ?_
        rintro rfl
        exact h List.mem_cons_self
      rw [hlineFeed] at ih hrest ⊢
      rw [respell_lineFeed_cons, lexemes_lineEnd e (sealed_respell e t)]
      have hfirst : Lexeme.first '\n' t = (.lineEnd .lf, t) := rfl
      rw [hfirst] at ih hrest ⊢
      rw [ih hrest]
      rfl

end LineEnd

end SqlTemplate
