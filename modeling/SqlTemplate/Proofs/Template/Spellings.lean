import SqlTemplate.Proofs.Source.Continuing
import SqlTemplate.Proofs.Text.Trimming

/-!
# The two spellings of a directive

A directive is written in a line comment behind the mark that it replaces, or in a block comment in
front of its sample value. Read from a line comment, it takes the mark back from the end of the text
that was written so far; read from a block comment, it takes the sample value along. On a line of its
own both lead to the same line, and so to the same template
(`Template.parse_line_eq_parse_block`).
-/

namespace SqlTemplate

/-- The source of a directive that may stand in a line comment and in a block comment. -/
structure IsDirectiveSource (s : Text) : Prop where
  unbroken : ∀ c ∈ s, isLineBreak c = false
  not_opening : ¬ ['/', '*'] <:+: s
  not_closing : ¬ ['*', '/'] <:+: s
  stripped : strip s = s
  introduced : ∃ c u, s = c :: u ∧ Lexeme.isIntroducer c = true

/-- A text in which no comment opens or closes is the body of a block comment. -/
theorem Comment.close?_append_closing {body : Text} (hopening : ¬ ['/', '*'] <:+: body)
    (hclosing : ¬ ['*', '/'] <:+: body) (hlast : body.getLast? ≠ some '/') (rest : Text) :
    close? 0 (body ++ '*' :: '/' :: rest) = some (body, rest) := by
  induction body with
  | nil => rfl
  | cons c body ih =>
    have htail {p : Text} (h : ¬ p <:+: c :: body) : ¬ p <:+: body :=
      fun hp => h (hp.trans (List.suffix_cons c body).isInfix)
    have hother : IsOther (c :: (body ++ '*' :: '/' :: rest)) := by
      refine ⟨fun v heq => ?_, fun v heq => ?_⟩
      · cases body with
        | nil => exact hlast (congrArg some (List.cons.inj heq).1)
        | cons x body =>
          obtain ⟨rfl, hx⟩ := List.cons.inj heq
          obtain ⟨rfl, -⟩ := List.cons.inj hx
          exact hopening ⟨[], body, rfl⟩
      · cases body with
        | nil => exact absurd (List.cons.inj (List.cons.inj heq).2).1 (by decide)
        | cons x body =>
          obtain ⟨rfl, hx⟩ := List.cons.inj heq
          obtain ⟨rfl, -⟩ := List.cons.inj hx
          exact hclosing ⟨[], body, rfl⟩
    have hlast' : body.getLast? ≠ some '/' := by
      cases body with
      | nil => simp
      | cons x body => rwa [List.getLast?_cons_cons] at hlast
    rw [List.cons_append, close?_cons hother, ih (htail hopening) (htail hclosing) hlast']
    rfl

/-- A piece without blanks does not come into being where blanks are put around a text. -/
theorem not_isInfix_space {p s : Text} (hne : p ≠ []) (hspace : ' ' ∉ p) (h : ¬ p <:+: s) :
    ¬ p <:+: ' ' :: s := by
  rw [List.infix_cons_iff]
  rintro (hstart | hinfix)
  · obtain ⟨c, p, rfl⟩ := List.exists_cons_of_ne_nil hne
    obtain ⟨rfl, -⟩ := List.cons_prefix_cons.1 hstart
    exact hspace List.mem_cons_self
  · exact h hinfix

theorem not_isInfix_space_space {p s : Text} (hne : p ≠ []) (hspace : ' ' ∉ p) (h : ¬ p <:+: s) :
    ¬ p <:+: ' ' :: (s ++ [' ']) := by
  refine not_isInfix_space hne hspace fun hp => ?_
  have hreverse : ¬ p.reverse <:+: ' ' :: s.reverse :=
    not_isInfix_space (by simpa using hne) (by simpa using hspace) (by rwa [List.reverse_infix])
  rw [← List.reverse_infix, List.reverse_append] at hp
  exact hreverse hp

/-- A mark in front of a line end is a sample value. -/
theorem Sample.read_mark {after : Text} (hafter : ∀ c ∈ after.head?, isLineBreak c = true) :
    read ('?' :: after) = .taken ['?'] after := by
  have hnone : bare after = ([], after) := by
    cases after with
    | nil => rfl
    | cons x after =>
      have hx : x = '\r' ∨ x = '\n' := by simpa [isLineBreak] using hafter x rfl
      rcases hx with rfl | rfl <;> rfl
  have hbare : bare ('?' :: after) = (['?'], after) := by
    rw [bare, if_pos (by rfl), hnone]
  have hsimple := simple?_of_ofChar?_eq_none (c := '?') rfl after
  rw [hbare, if_neg (List.cons_ne_nil _ _)] at hsimple
  rw [read, List.head?_cons, if_neg (by decide), hsimple]

namespace IsDirectiveSource

variable {s after : Text}

theorem strip_cons (h : IsDirectiveSource s) : strip (' ' :: s) = s := by
  have hstrip := strip_append_append (u := [' ']) (v := []) (by decide) (by decide) h.stripped
  rwa [List.append_nil] at hstrip

theorem strip_cons_append (h : IsDirectiveSource s) : strip (' ' :: (s ++ [' '])) = s :=
  strip_append_append (u := [' ']) (v := [' ']) (by decide) (by decide) h.stripped

theorem isLineDirective_cons (h : IsDirectiveSource s) :
    Lexeme.isLineDirective (' ' :: s) = true := by
  obtain ⟨c, u, rfl, hc⟩ := h.introduced
  exact hc

theorem useOf_cons_append (h : IsDirectiveSource s) :
    Lexeme.useOf (' ' :: (s ++ [' '])) = .directive := by
  obtain ⟨c, u, rfl, -⟩ := h.introduced
  have hc : isBlank c = false := (strip_eq_self_iff.1 h.stripped).1 c rfl
  have hblank : isBlankText (' ' :: (c :: u ++ [' '])) = false := by
    simp [isBlankText, hc]
  simp only [Lexeme.useOf, hblank]
  rfl

theorem closing (h : IsDirectiveSource s) (rest : Text) :
    Comment.close? 0 (' ' :: (s ++ ' ' :: '*' :: '/' :: rest)) =
      some (' ' :: (s ++ [' ']), rest) := by
  have hclose := Comment.close?_append_closing
    (not_isInfix_space_space (by decide) (by decide) h.not_opening)
    (not_isInfix_space_space (by decide) (by decide) h.not_closing)
    (by rw [← List.cons_append, List.getLast?_concat]; decide) rest
  rwa [List.cons_append, List.append_assoc] at hclose

/-- The lexemes of a mark and of a directive in a line comment behind it. -/
theorem lexemes_lineComment (h : IsDirectiveSource s)
    (hafter : ∀ c ∈ after.head?, isLineBreak c = true) :
    lexemes ('?' :: ' ' :: '-' :: '-' :: ' ' :: (s ++ after)) =
      .plain '?' :: .plain ' ' :: .lineDirective (' ' :: s) :: lexemes after := by
  have hbody : restOfLine (' ' :: (s ++ after)) = (' ' :: s, after) :=
    restOfLine_append (u := ' ' :: s) (List.forall_mem_cons.2 ⟨rfl, h.unbroken⟩) hafter
  have hfirst : Lexeme.first '-' ('-' :: ' ' :: (s ++ after)) =
      (.lineDirective (' ' :: s), after) := by
    have htake : Delimiter.take? ('-' :: '-' :: ' ' :: (s ++ after)) =
        some (.dashes, ' ' :: (s ++ after)) := rfl
    simp only [Lexeme.first, htake, Lexeme.ofDelimiter, hbody, Lexeme.ofLine,
      h.isLineDirective_cons, if_true]
  have hplain : ∀ c ∈ ['?', ' '], ∀ u, Delimiter.take? (c :: u) = none := by
    simp [Delimiter.take?]
  have hmark := lexemes_append_of_forall ('-' :: '-' :: ' ' :: (s ++ after)) hplain
  rw [lexemes_cons '-', hfirst] at hmark
  exact hmark

/-- The lexemes of a directive in a block comment and of a mark behind it. -/
theorem lexemes_blockComment (h : IsDirectiveSource s)
    (hafter : ∀ c ∈ after.head?, isLineBreak c = true) :
    lexemes ('/' :: '*' :: ' ' :: (s ++ ' ' :: '*' :: '/' :: '?' :: after)) =
      .blockDirective (' ' :: (s ++ [' '])) (some ['?']) :: lexemes after := by
  have hfirst : Lexeme.first '/' ('*' :: ' ' :: (s ++ ' ' :: '*' :: '/' :: '?' :: after)) =
      (.blockDirective (' ' :: (s ++ [' '])) (some ['?']), after) := by
    have htake : Delimiter.take? ('/' :: '*' :: ' ' :: (s ++ ' ' :: '*' :: '/' :: '?' :: after)) =
        some (.commentOpen, ' ' :: (s ++ ' ' :: '*' :: '/' :: '?' :: after)) := rfl
    simp only [Lexeme.first, htake, Lexeme.ofDelimiter, h.closing, Lexeme.ofBlock,
      h.useOf_cons_append, Sample.read_mark hafter]
  rw [lexemes_cons, hfirst]

end IsDirectiveSource

/-! ### Reading the two spellings -/

/-- A directive in a line comment takes the mark that was written last. -/
theorem Draft.takeMark_write_mark (line : Nat) (t : Text) :
    ((Draft.start line).write (t ++ ['?', ' '])).takeMark =
      (some ['?'], (Draft.start line).write t) := by
  have hreversed : ((Draft.start line).write (t ++ ['?', ' '])).reversed =
      ' ' :: '?' :: t.reverse := by simp [start]
  have hmark : Ending.mark? (' ' :: '?' :: t.reverse) = some ⟨t.reverse, ['?']⟩ := rfl
  unfold takeMark take?
  rw [hreversed, hmark]
  simp [settled, start, write]

theorem Draft.addLine_write_mark (registry : Registry) (first line : Nat) (t s : Text) :
    ((Draft.start first).write (t ++ ['?', ' '])).addLine registry line s =
      ((Draft.start first).write t).addBlock registry line s (some ['?']) := by
  unfold addLine addBlock
  rw [takeMark_write_mark]

namespace Reader

variable {registry : Registry} {r : Reader} {t s : Text}

@[simp] theorem draft_write : (r.write t).inner.draft = r.inner.draft.write t := rfl

@[simp] theorem line_write : (r.write t).line = r.line := rfl

/-- Behind a line end a new line is read. -/
theorem draft_of_readAll_concat {ls : List Lexeme} {e : LineEnd} {r' : Reader}
    (h : r.readAll registry (ls ++ [.lineEnd e]) = .ok r') :
    ∃ line, r'.inner.draft = Draft.start line := by
  rw [readAll_append] at h
  cases hr : r.readAll registry ls with
  | error m =>
    rw [hr] at h
    cases h
  | ok s =>
    rw [hr] at h
    cases h
    exact ⟨s.line + 1, rfl⟩

/-- A directive that is read from a line comment and one that is read from a block comment. -/
theorem read_lineDirective (hr : ∃ line, r.inner.draft = Draft.start line)
    (hs : IsDirectiveSource s) :
    (r.write (t ++ ['?', ' '])).read registry (.lineDirective (' ' :: s)) =
      (r.write t).read registry (.blockDirective (' ' :: (s ++ [' '])) (some ['?'])) := by
  obtain ⟨line, hdraft⟩ := hr
  have hline : lineEnds (Lexeme.lineDirective (' ' :: s)).source = 0 := by
    refine lineEnds_eq_zero fun c hc => ?_
    have hmem : c = '-' ∨ c = ' ' ∨ c ∈ s := by simpa [Lexeme.source] using hc
    rcases hmem with rfl | rfl | hmem
    · rfl
    · rfl
    · exact hs.unbroken c hmem
  have hblock :
      lineEnds (Lexeme.blockDirective (' ' :: (s ++ [' '])) (some ['?'])).source = 0 := by
    refine lineEnds_eq_zero fun c hc => ?_
    have hmem : c ∈ s ∨ c ∈ ['/', '*', ' ', '?'] := by
      simp only [Lexeme.source, Option.getD_some, List.mem_cons, List.mem_append] at hc ⊢
      tauto
    rcases hmem with hmem | hmem
    · exact hs.unbroken c hmem
    · have hmark : ∀ c ∈ ['/', '*', ' ', '?'], isLineBreak c = false := by simp [isLineBreak]
      exact hmark c hmem
  have hadd := Draft.addLine_write_mark registry line r.line t s
  rw [← hdraft] at hadd
  simp only [read, readContent, addDirective, hs.strip_cons, hs.strip_cons_append, draft_write,
    line_write, hadd, hline, hblock]
  rfl

/-- Both spellings of a directive lead from a new line to the same state. -/
theorem readAll_lineDirective (hr : ∃ line, r.inner.draft = Draft.start line) (ht : IsPlain t)
    (hs : IsDirectiveSource s) (ls : List Lexeme) :
    r.readAll registry ((t ++ ['?', ' ']).map .plain ++ .lineDirective (' ' :: s) :: ls) =
      r.readAll registry
        (t.map .plain ++ .blockDirective (' ' :: (s ++ [' '])) (some ['?']) :: ls) := by
  have hunbroken : ∀ c ∈ t ++ ['?', ' '], isLineBreak c = false := by
    intro c hc
    rcases List.mem_append.1 hc with hc | hc
    · exact ht.isLineBreak_eq_false c hc
    · have hmark : ∀ c ∈ ['?', ' '], isLineBreak c = false := by simp [isLineBreak]
      exact hmark c hc
  rw [readAll_map_plain _ _ _ _ hunbroken, readAll_map_plain _ _ _ _ ht.isLineBreak_eq_false,
    readAll, readAll, read_lineDirective hr hs]

end Reader

/-- The lexemes of a line with a directive in a line comment. -/
theorem IsDirectiveSource.lexemes_line {t s after : Text} (hs : IsDirectiveSource s)
    (ht : IsPlain t) (hafter : ∀ c ∈ after.head?, isLineBreak c = true) :
    lexemes (t ++ '?' :: ' ' :: '-' :: '-' :: ' ' :: (s ++ after)) =
      (t ++ ['?', ' ']).map .plain ++ .lineDirective (' ' :: s) :: lexemes after := by
  rw [ht.lexemes_append (by simp), hs.lexemes_lineComment hafter, List.map_append,
    List.append_assoc]
  rfl

/-- The lexemes of a line with a directive in a block comment. A star in front of the comment would
make another delimiter of its start. -/
theorem IsDirectiveSource.lexemes_block {t s after : Text} (hs : IsDirectiveSource s)
    (ht : IsPlain t) (hstar : t.getLast? ≠ some '*')
    (hafter : ∀ c ∈ after.head?, isLineBreak c = true) :
    lexemes (t ++ '/' :: '*' :: ' ' :: (s ++ ' ' :: '*' :: '/' :: '?' :: after)) =
      t.map .plain ++ .blockDirective (' ' :: (s ++ [' '])) (some ['?']) :: lexemes after := by
  have hseam : ∀ y ∈ t.getLast?, ∀ x ∈ ('/' :: '*' :: ' ' ::
      (s ++ ' ' :: '*' :: '/' :: '?' :: after)).head?, ∀ d : Delimiter, d.chars ≠ [y, x] := by
    intro y hy x hx d hd
    obtain rfl : '/' = x := Option.some.inj hx
    cases d with
    | commentClose => exact hstar (by rw [hy, ← (List.cons.inj hd).1])
    | lineEnd e => cases e <;> cases hd
    | _ => cases hd
  rw [ht.lexemes_append_of_seam hseam, hs.lexemes_blockComment hafter]

/-- Texts that lead from every new line to the same state do so behind other lines. -/
theorem Reader.readAll_lexemes_append {registry : Registry} {before u v : Text}
    (hbefore : before = [] ∨ ∃ e, (lexemes before).getLast? = some (.lineEnd e))
    (hu : u.head? ≠ some '\n') (hv : v.head? ≠ some '\n')
    (h : ∀ r : Reader, (∃ line, r.inner.draft = Draft.start line) →
      r.readAll registry (lexemes u) = r.readAll registry (lexemes v)) :
    start.readAll registry (lexemes (before ++ u)) =
      start.readAll registry (lexemes (before ++ v)) := by
  rcases hbefore with rfl | ⟨e, hlast⟩
  · exact h start ⟨1, rfl⟩
  · rw [lexemes_append_of_lineEnd hlast hu, lexemes_append_of_lineEnd hlast hv, readAll_append,
      readAll_append]
    cases hr : start.readAll registry (lexemes before) with
    | error m => rfl
    | ok r =>
      obtain ⟨ls, hls⟩ : ∃ ls, lexemes before = ls ++ [.lineEnd e] :=
        List.getLast?_eq_some_iff.1 hlast
      rw [hls] at hr
      exact h r (draft_of_readAll_concat hr)

/-- A directive on its line may be written in a line comment behind its mark or in a block comment
in front of it: the template is the same, and so is the error of a text that is no template. What
stands on the lines around it is left open, except that the line does not begin inside of a comment,
a quoted literal or a sample value. -/
theorem Template.parse_line_eq_parse_block (registry : Registry) (resource : Option Text)
    {before t s after : Text}
    (hbefore : before = [] ∨ ∃ e, (lexemes before).getLast? = some (.lineEnd e))
    (ht : IsPlain t) (hstar : t.getLast? ≠ some '*') (hs : IsDirectiveSource s)
    (hafter : ∀ c ∈ after.head?, isLineBreak c = true) :
    parse registry resource (before ++ (t ++ "? -- ".toList ++ s) ++ after) =
      parse registry resource (before ++ (t ++ "/* ".toList ++ s ++ " */?".toList) ++ after) := by
  have hhead {x : Char} {u : Text} (hx : x ≠ '\n') : (t ++ x :: u).head? ≠ some '\n' := by
    cases t with
    | nil => simpa using hx
    | cons y t =>
      have hy : y ≠ '\n' := ht.cons_ne (d := .lineEnd .lf) rfl
      simpa using hy
  have hflat : Reader.start.readAll registry
        (lexemes (before ++ (t ++ '?' :: ' ' :: '-' :: '-' :: ' ' :: (s ++ after)))) =
      Reader.start.readAll registry
        (lexemes (before ++
          (t ++ '/' :: '*' :: ' ' :: (s ++ ' ' :: '*' :: '/' :: '?' :: after)))) := by
    refine Reader.readAll_lexemes_append hbefore (hhead (by decide)) (hhead (by decide)) ?_
    intro r hr
    rw [hs.lexemes_line ht hafter, hs.lexemes_block ht hstar hafter,
      Reader.readAll_lineDirective hr ht hs]
  have hleft : before ++ (t ++ "? -- ".toList ++ s) ++ after =
      before ++ (t ++ '?' :: ' ' :: '-' :: '-' :: ' ' :: (s ++ after)) := by simp
  have hright : before ++ (t ++ "/* ".toList ++ s ++ " */?".toList) ++ after =
      before ++ (t ++ '/' :: '*' :: ' ' :: (s ++ ' ' :: '*' :: '/' :: '?' :: after)) := by simp
  unfold parse flatLines
  rw [hleft, hright, hflat]

/-- A condition on the second line of a span, and the line around it. -/
theorem Template.parse_line_eq_parse_block_inSpan :
    parse .standard none
        ("WHERE (\n".toList ++ ("  a = ".toList ++ "? -- ".toList ++ "?a".toList) ++ "\n)".toList) =
      parse .standard none
        ("WHERE (\n".toList ++ ("  a = ".toList ++ "/* ".toList ++ "?a".toList ++ " */?".toList) ++
          "\n)".toList) := by
  have hsource : IsDirectiveSource "?a".toList :=
    ⟨by simp [isLineBreak], by decide, by decide, by decide, '?', ['a'], rfl, by decide⟩
  have hbefore : (lexemes "WHERE (\n".toList).getLast? = some (.lineEnd .lf) := by
    with_unfolding_all rfl
  exact parse_line_eq_parse_block .standard none (.inr ⟨.lf, hbefore⟩) (by decide) (by decide)
    hsource (by simp [isLineBreak])

end SqlTemplate
