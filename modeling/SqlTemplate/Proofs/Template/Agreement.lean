import SqlTemplate.Proofs.Template.Descent
import SqlTemplate.Proofs.Template.Located

/-!
# What is parsed by descent

Parsing by descent ends with every text, and what it comes to is what the reader of lexemes comes
to: the functions that read a single lexeme leave the cursor behind it (`Descent.Follows`), and the
one that reads lines leaves it behind the parenthesis that closes the span (`Descent.Encloses`).
`Descent.ends_template` says that there is no other outcome than a template or a flaw on a line of
the text.
-/

namespace SqlTemplate

/-- The lexemes of a text from a delimiter on that stands before it. -/
def lexemesFrom (d : Delimiter) (t : Text) : List Lexeme :=
  (Lexeme.ofDelimiter d t).1 :: lexemes (Lexeme.ofDelimiter d t).2

theorem lexemes_of_take? {d : Delimiter} {t rest : Text} (h : Delimiter.take? t = some (d, rest)) :
    lexemes t = lexemesFrom d rest := by
  cases t with
  | nil => simp at h
  | cons c t => rw [lexemes_cons, Lexeme.first, h, lexemesFrom]

namespace Span

theorem lines_eq (last : Nat) (s : Span) :
    s.lines last = s.finished.reverse ++ [s.draft.finish last] := List.reverse_cons

/-- Finished lines are flat. -/
theorem block?_of_mem_nextLine {s : Span} (h : ∀ l ∈ s.finished, l.block? = none)
    (last next : Nat) : ∀ l ∈ (s.nextLine last next).finished, l.block? = none :=
  List.forall_mem_cons.2 ⟨rfl, h⟩

theorem block?_of_mem_lines {s : Span} (h : ∀ l ∈ s.finished, l.block? = none) (last : Nat) :
    ∀ l ∈ s.lines last, l.block? = none :=
  fun l hl => block?_of_mem_nextLine h last last l (List.mem_reverse.1 hl)

theorem enclose_eq (lines : List Line) (s : Span) :
    s.enclose lines = { s with draft := (s.enclose lines).draft } := by
  unfold enclose
  split <;> rfl

end Span

namespace Reader

variable {registry : Registry} {r : Reader} {line : Nat} {d : Draft} {u v t source : Text}
  {add : Draft → Except Problem Draft}

/-- The reader that goes on on a line with a draft. -/
def goOn (line : Nat) (d : Draft) (r : Reader) : Reader :=
  { r with line := line, inner := { r.inner with draft := d } }

/-- The line that the span was opened on, if it is not the whole template. -/
def opened? (r : Reader) : Option Nat := if r.outer.isEmpty then none else some r.inner.openedAt

/-- Text where no delimiter begins is written. -/
theorem linesAfter_append_of_free (h : Pattern.delimiter.Free u v) :
    r.linesAfter registry (lexemes (u ++ v)) = (r.write u).linesAfter registry (lexemes v) := by
  rw [lexemes_append h.take?_eq_none, linesAfter,
    readAll_map_plain registry r u _ (Pattern.isLineBreak_of_free_delimiter h)]
  rfl

theorem linesAfter_of_first {d : Delimiter} (h : d.First u v t) :
    r.linesAfter registry (lexemes t) = (r.write u).linesAfter registry (lexemesFrom d v) := by
  rw [h.text, linesAfter_append_of_free h.free, lexemes_of_take? h.take]

theorem linesAfter_of_addDirective {l : Lexeme} {ls : List Lexeme}
    (h : r.readContent registry l = r.addDirective source add) (hadd : add r.inner.draft = .ok d) :
    r.linesAfter registry (l :: ls) =
      (r.goOn (r.line + lineEnds l.source) d).linesAfter registry ls := by
  rw [linesAfter_cons, h, addDirective, hadd]
  rfl

theorem linesAfter_of_addDirective_eq_error {l : Lexeme} {ls : List Lexeme} {problem : Problem}
    (h : r.readContent registry l = r.addDirective source add)
    (hadd : add r.inner.draft = .error problem) :
    r.linesAfter registry (l :: ls) = .error ⟨.directive problem source, r.line, none⟩ := by
  rw [linesAfter_cons, h, addDirective, hadd]

end Reader

namespace Descent

variable {registry : Registry} {resource : Option Text} {r : Reader} {c : Cursor}
  {before t front : Text} {line : Nat}

/-- The error that a flaw of a text is reported as. -/
def reported (resource : Option Text) (m : Misfit) : FormatError :=
  ⟨m.flaw, resource, some m.first, m.last⟩

theorem ends_expression (line : Nat) (source : Text) :
    (expression registry resource line source).Ends
      (fun e => Expression.compile registry source = .ok e)
      (fun e => ∃ problem, Expression.compile registry source = .error problem ∧
        e = reported resource ⟨.directive problem source, line, none⟩) := by
  refine Attempt.Ends.mapFlaw ?_
  refine (ends_compile registry source).mono (fun _ hx => hx) fun problem hproblem => ?_
  exact ⟨problem, hproblem, rfl⟩

/-- What is known of reading the first one of some lexemes, with the text `t` behind the delimiter
that it begins with: reading goes on with the lexemes behind it, or it is the lexeme that has the
flaw. -/
def Follows (registry : Registry) (resource : Option Text) (r : Reader) (t : Text)
    (ls : List Lexeme) (a : Attempt FormatError (Draft × Cursor)) : Prop :=
  a.Ends
    (fun p => ∃ before line rest, p.2.Ready before line rest ∧ rest.length ≤ t.length ∧
      r.linesAfter registry ls = (r.goOn line p.1).linesAfter registry (lexemes rest))
    (fun e => ∃ m, e = reported resource m ∧ r.linesAfter registry ls = .error m)

theorem follows_lineComment (h : c.Ready before r.line t) :
    Follows registry resource r t (lexemesFrom .dashes t)
      (lineComment registry resource r.inner.draft c) := by
  obtain ⟨ending, next, found, hfind, hparts, hready⟩ := h.toAt.find_restOfLine h.unexhausted
  have hcomment : found.taken.parts.getD 0 [] = (restOfLine t).1 := by rw [hparts]; rfl
  have hending : found.taken.parts.getD 1 [] = ending := by rw [hparts]; rfl
  have hlength : (restOfLine t).2.length ≤ t.length := List.length_dropWhile_le ..
  have hends : lineEnds (Lexeme.ofLine (restOfLine t).1).source = 0 :=
    lineEnds_eq_zero (Lexeme.isLineBreak_of_mem_ofLine t)
  rw [lineComment, lexemesFrom, Lexeme.ofDelimiter, hfind]
  simp only [hcomment, hending]
  rw [Lexeme.ofLine] at hends ⊢
  split
  · rename_i hdirective
    rw [if_pos hdirective] at hends
    rw [hready.toNat_line]
    refine ((ends_expression r.line (strip (restOfLine t).1)).mono (fun _ hx => hx) ?_).bind ?_
    · rintro _ ⟨problem, hproblem, rfl⟩
      have hadd : Draft.addLine registry r.line (strip (restOfLine t).1) r.inner.draft =
          .error problem := by rw [Draft.addLine, hproblem]
      exact ⟨_, rfl, Reader.linesAfter_of_addDirective_eq_error rfl hadd⟩
    · intro e he
      have hadd : Draft.addLine registry r.line (strip (restOfLine t).1) r.inner.draft =
          .ok (r.inner.draft.takeMark.2.addCompiled r.line (strip (restOfLine t).1) e
            r.inner.draft.takeMark.1) := by rw [Draft.addLine, he]
      refine ⟨_, _, _, hready, hlength, ?_⟩
      rw [Reader.linesAfter_of_addDirective rfl hadd, hends]
      rfl
  · rename_i hdirective
    rw [if_neg hdirective] at hends
    refine ⟨_, _, _, hready, hlength, ?_⟩
    rw [Reader.linesAfter_cons, hends]
    rfl

theorem follows_quoted (q : Quote) (h : c.Ready before r.line t) :
    Follows registry resource r t (lexemesFrom (.quote q) t) (quoted resource q r.inner.draft c) := by
  rw [quoted, lexemesFrom, Lexeme.ofDelimiter]
  cases hclosing : Quoted.closing? q.char t with
  | none =>
      have htake : (Pattern.literal q).take? t = none := by
        rw [Pattern.take?, hclosing]
        rfl
      rw [h.toAt.consume_eq_none htake]
      refine ⟨⟨.openQuote q, r.line, none⟩, ?_, ?_⟩
      · rw [reported, h.toNat_line]
      · rw [Reader.linesAfter_cons]
        rfl
  | some found =>
      obtain ⟨body, rest⟩ := found
      obtain rfl := Quoted.append_of_closing? hclosing
      have htake : (Pattern.literal q).take? (body ++ rest) = some ⟨body, []⟩ := by
        rw [Pattern.take?, hclosing]
        rfl
      obtain ⟨next, hconsume, hnext, hat⟩ := h.toAt.consume_eq (x := ⟨body, []⟩) htake
      rw [hconsume]
      have hready := hat.ready (hnext.trans h.unexhausted)
      refine ⟨_, _, rest, hready, by simp, ?_⟩
      have hends : lineEnds (Lexeme.quoted q body).source = lineEnds body :=
        lineEnds_cons_of_not_isLineBreak body q.isLineBreak_char
      rw [Reader.linesAfter_cons, hends]
      rfl

theorem ends_sampleBehind (h : c.At before line t) (hc : c.exhausted = false) :
    (sampleBehind resource c).Ends
      (fun p => p.2.exhausted = false ∧
        ((p.1 = none ∧ Sample.read t = .absent ∧ p.2.At before line t) ∨
          ∃ sample rest, p.1 = some sample ∧ Sample.read t = .taken sample rest ∧
            p.2.At (before ++ sample) (line + lineEnds sample) rest))
      (fun e => Sample.read t = .unclosed ∧
        e = reported resource ⟨.openParenthesis, line, none⟩) := by
  have hpeek : c.peek 1 = Delimiter.opening.chars ↔ t.head? = some '(' := by
    rw [Cursor.peek, h.rest_eq]
    cases t with
    | nil => simp [Delimiter.chars]
    | cons x t => simp [Delimiter.chars]
  rw [sampleBehind, Sample.read]
  by_cases hopening : t.head? = some '('
  · rw [if_pos (hpeek.2 hopening), if_pos hopening, h.rest_eq]
    cases hbalanced : Sample.balanced? 0 none t with
    | none => exact ⟨rfl, by rw [reported, h.toNat_line]⟩
    | some found =>
        obtain ⟨sample, rest⟩ := found
        obtain rfl := Sample.append_of_balanced? hbalanced
        obtain ⟨next, hadvance, hnext, hat⟩ := h.advance_eq
        simp only [hadvance]
        exact ⟨hnext.trans hc, .inr ⟨sample, rest, rfl, rfl, hat⟩⟩
  · rw [if_neg (fun hp => hopening (hpeek.1 hp)), if_neg hopening]
    cases hsimple : Sample.simple? t with
    | none =>
        have htake : Pattern.sample.take? t = none := by
          rw [Pattern.take?, hsimple]
          rfl
        rw [h.consume_eq_none htake]
        exact ⟨hc, .inl ⟨rfl, rfl, h⟩⟩
    | some found =>
        obtain ⟨sample, rest⟩ := found
        obtain rfl := Sample.append_of_simple? hsimple
        have htake : Pattern.sample.take? (sample ++ rest) = some ⟨sample, []⟩ := by
          rw [Pattern.take?, hsimple]
          rfl
        obtain ⟨next, hconsume, hnext, hat⟩ := h.consume_eq (x := ⟨sample, []⟩) htake
        rw [hconsume]
        exact ⟨hnext.trans hc, .inr ⟨sample, rest, rfl, rfl, hat⟩⟩

/-- The line ends of a block comment are those of its body. -/
theorem lineEnds_block (body : Text) (t : Text) :
    lineEnds ('/' :: '*' :: (body ++ '*' :: '/' :: t)) = lineEnds body + lineEnds t :=
  lineEnds_append (sealed_of_head? rfl (by decide : isLineBreak '*' = false) body)

/-- The source of a directive is compiled behind its sample. -/
theorem follows_blockDirective {sample : Option Text} {body rest : Text} {next : Cursor}
    {before : Text} (h : next.Ready before (r.line + (lineEnds body + lineEnds (sample.getD []))) rest)
    (hrest : rest.length ≤ t.length) :
    Follows registry resource r t (.blockDirective body sample :: lexemes rest) (do
      let e ← expression registry resource r.line (strip body)
      return (r.inner.draft.addCompiled r.line (strip body) e sample, next)) := by
  refine ((ends_expression r.line (strip body)).mono (fun _ hx => hx) ?_).bind ?_
  · rintro _ ⟨problem, hproblem, rfl⟩
    have hadd : Draft.addBlock registry r.line (strip body) sample r.inner.draft =
        .error problem := by rw [Draft.addBlock, hproblem]
    exact ⟨_, rfl, Reader.linesAfter_of_addDirective_eq_error rfl hadd⟩
  · intro e he
    have hadd : Draft.addBlock registry r.line (strip body) sample r.inner.draft =
        .ok (r.inner.draft.addCompiled r.line (strip body) e sample) := by rw [Draft.addBlock, he]
    refine ⟨_, _, rest, h, hrest, ?_⟩
    rw [Reader.linesAfter_of_addDirective rfl hadd, Lexeme.source, lineEnds_block]

/-- The body of a block comment, and the comment with its delimiters, stand before its end. -/
theorem between_block {next : Cursor} {body rest : Text}
    (h : next.At (front ++ ['/', '*'] ++ (body ++ ['*', '/'])) line rest) :
    next.between (front ++ ['/', '*']).length (front ++ ['/', '*'] ++ body).length = body ∧
      next.between front.length next.pos = (Lexeme.hint body).source := by
  have hinner : next.text = front ++ ['/', '*'] ++ (body ++ (['*', '/'] ++ rest)) := by
    rw [h.text, List.append_assoc (front ++ ['/', '*']), List.append_assoc body]
  have houter : next.text = front ++ ((Lexeme.hint body).source ++ rest) := by
    rw [hinner]
    simp [Lexeme.source]
  have hstop : next.pos = front.length + (Lexeme.hint body).source.length := by
    rw [h.pos]
    simp [Lexeme.source]
  have hlength : (front ++ ['/', '*'] ++ body).length =
      (front ++ ['/', '*']).length + body.length := List.length_append
  exact ⟨by rw [hlength, Cursor.between_append hinner],
    by rw [hstop, Cursor.between_append houter]⟩

theorem follows_blockComment (h : c.Ready (front ++ ['/', '*']) r.line t) :
    Follows registry resource r t (lexemesFrom .commentOpen t)
      (blockComment registry resource r.inner.draft c) := by
  rw [blockComment, lexemesFrom, Lexeme.ofDelimiter, h.toNat_line]
  refine ((ends_commentEnd resource r.line h.toAt h.unexhausted).mono (fun _ hx => hx) ?_).bind ?_
  · rintro _ ⟨hnone, rfl⟩
    refine ⟨⟨.openComment, (Comment.openLines [r.line] r.line t).headD r.line,
      some (r.line + lineEnds t)⟩, rfl, ?_⟩
    rw [hnone, Reader.linesAfter_cons]
    rfl
  · rintro next ⟨body, rest, hclose, hnext, hfound, hat⟩
    have hrest : rest.length ≤ t.length := by
      rw [Comment.append_of_close? hclose, List.length_append, List.length_cons, List.length_cons]
      omega
    obtain ⟨found, hmet, hstart⟩ := Option.map_eq_some_iff.1 hfound
    obtain ⟨hinner, houter⟩ := between_block hat
    have hbody : next.between c.pos found.start = body := by rw [h.pos, hstart, hinner]
    rw [hmet, hclose]
    simp only [hbody]
    rw [Lexeme.ofBlock]
    cases Lexeme.useOf body with
    | nothing =>
        refine ⟨_, _, rest, hat.ready hnext, hrest, ?_⟩
        have hends : lineEnds (Lexeme.comment body).source = lineEnds body := lineEnds_block body []
        rw [Reader.linesAfter_cons, hends]
        rfl
    | hint =>
        have hopening : c.pos - 2 = front.length := by
          rw [h.pos, List.length_append]
          rfl
        refine ⟨_, _, rest, hat.ready hnext, hrest, ?_⟩
        have hends : lineEnds (Lexeme.hint body).source = lineEnds body := lineEnds_block body []
        rw [Reader.linesAfter_cons, hends, hopening, houter]
        rfl
    | directive =>
        refine ((ends_sampleBehind hat hnext).mono (fun _ hx => hx) ?_).bind ?_
        · rintro _ ⟨hread, rfl⟩
          refine ⟨⟨.openParenthesis, r.line + lineEnds body, none⟩, rfl, ?_⟩
          rw [hread, Reader.linesAfter_cons]
          rfl
        · rintro ⟨found, last⟩ ⟨hlast, ⟨rfl, hread, hat'⟩ | ⟨sample, rest', rfl, hread, hat'⟩⟩
          · rw [hread]
            exact follows_blockDirective (hat'.ready hlast) hrest
          · rw [hread]
            rw [Nat.add_assoc] at hat'
            have hrest' : rest'.length ≤ rest.length := by
              rw [Sample.append_of_read hread, List.length_append]
              omega
            exact follows_blockDirective (hat'.ready hlast) (hrest'.trans hrest)

/-- What is known of reading the lines of the span that the reader is in, with the text `t` behind the
cursor: the whole text is read, or reading goes on behind the parenthesis that closes the span, or
the text has a flaw. -/
def Encloses (registry : Registry) (resource : Option Text) (r : Reader) (t : Text)
    (a : Attempt FormatError (List Line × Cursor)) : Prop :=
  a.Ends
    (fun p => (∀ l ∈ p.1, l.block? = none) ∧
      ((r.outer = [] ∧ r.linesAfter registry (lexemes t) = .ok p.1) ∨
        ∃ s outer before line rest, r.outer = s :: outer ∧ p.2.Ready before line rest ∧
          rest.length < t.length ∧ r.linesAfter registry (lexemes t) =
            Reader.linesAfter registry ⟨line, s.enclose p.1, outer⟩ (lexemes rest)))
    (fun e => ∃ m, e = reported resource m ∧ r.linesAfter registry (lexemes t) = .error m)

/-- The lines of a span are those that are left when the reader has gone on. -/
theorem Encloses.of_linesAfter_eq {r' : Reader} {t' : Text}
    {a : Attempt FormatError (List Line × Cursor)} (h : Encloses registry resource r' t' a)
    (houter : r'.outer = r.outer) (ht : t'.length ≤ t.length)
    (hlines : r.linesAfter registry (lexemes t) = r'.linesAfter registry (lexemes t')) :
    Encloses registry resource r t a := by
  refine h.mono ?_ ?_
  · rintro p ⟨hflat, ⟨hr, hall⟩ | ⟨s, outer, before, line, rest, hr, hready, hrest, hall⟩⟩
    · exact ⟨hflat, .inl ⟨houter.symm.trans hr, hlines.trans hall⟩⟩
    · exact ⟨hflat, .inr ⟨s, outer, before, line, rest, houter.symm.trans hr, hready,
        Nat.lt_of_lt_of_le hrest ht, hlines.trans hall⟩⟩
  · rintro e ⟨m, rfl, hall⟩
    exact ⟨m, rfl, hlines.trans hall⟩

theorem enclosed_eq {lines : List Line} (h : ∀ l ∈ lines, l.block? = none) (s : Span) :
    enclosed lines s.draft = pure (s.enclose lines).draft := by
  have hgroup : ((do
      let tree ← Line.build lines
      return s.draft.addGroup tree) : Attempt FormatError Draft) =
        pure (s.draft.addGroup (Line.nest lines)) := by
    rw [Line.build_eq_nest h, pure_bind]
  rcases lines with _ | ⟨l, _ | ⟨k, ls⟩⟩
  · exact hgroup
  · rfl
  · exact hgroup

/-- The text is over, and the line that is read is the last one. -/
theorem encloses_end (hfree : Pattern.delimiter.Free t [])
    (hflat : ∀ l ∈ r.inner.finished, l.block? = none) (c : Cursor) :
    Encloses registry resource r t (match r.opened? with
      | none => pure (r.inner.finished.reverse ++ [(r.inner.draft.write t).finish r.line], c)
      | some first => fail resource .openParenthesis first (some r.line)) := by
  have hlines : r.linesAfter registry (lexemes t) = (r.write t).finish := by
    rw [← List.append_nil t, Reader.linesAfter_append_of_free hfree, List.append_nil, lexemes_nil,
      Reader.linesAfter_nil]
  cases houter : r.outer with
  | nil =>
      have houter' : (r.write t).outer = [] := houter
      have hopened : r.opened? = none := by rw [Reader.opened?, houter]; rfl
      have hall := Span.lines_eq r.line (r.write t).inner
      rw [hopened]
      refine ⟨?_, .inl ⟨houter, ?_⟩⟩
      · intro l hl
        exact Span.block?_of_mem_lines (s := (r.write t).inner) hflat r.line l (hall ▸ hl)
      · rw [hlines, Reader.finish, houter']
        exact congrArg Except.ok hall
  | cons s outer =>
      have houter' : (r.write t).outer = s :: outer := houter
      have hopened : r.opened? = some r.inner.openedAt := by rw [Reader.opened?, houter]; rfl
      rw [hopened]
      refine ⟨⟨.openParenthesis, r.inner.openedAt, some r.line⟩, rfl, ?_⟩
      rw [hlines, Reader.finish, houter']
      rfl

/-- The lines of every span are read where less than `n` characters are left. -/
def EndsBelow (registry : Registry) (resource : Option Text) (n : Nat) : Prop :=
  ∀ (r : Reader) (c : Cursor) (before t : Text), t.length < n → c.Ready before r.line t →
    (∀ l ∈ r.inner.finished, l.block? = none) →
      Encloses registry resource r t
        (lines registry resource r.opened? r.inner.finished.reverse r.inner.draft c)

section Steps

variable {u rest : Text} {d : Delimiter}

theorem encloses_follows (ih : EndsBelow registry resource t.length) (hd : d.First u rest t)
    (hflat : ∀ l ∈ r.inner.finished, l.block? = none) {a : Attempt FormatError (Draft × Cursor)}
    (ha : Follows registry resource (r.write u) rest (lexemesFrom d rest) a) :
    Encloses registry resource r t (a >>= fun p =>
      lines registry resource r.opened? r.inner.finished.reverse p.1 p.2) := by
  have hlines : r.linesAfter registry (lexemes t) =
      (r.write u).linesAfter registry (lexemesFrom d rest) := Reader.linesAfter_of_first hd
  refine (ha.mono (fun _ hx => hx) ?_).bind ?_
  · rintro _ ⟨m, rfl, hm⟩
    exact ⟨m, rfl, hlines.trans hm⟩
  · rintro p ⟨before, line, rest', hready, hrest, hall⟩
    have hlt := Nat.lt_of_le_of_lt hrest hd.length_lt
    have hih := ih ((r.write u).goOn line p.1) p.2 before rest' hlt hready hflat
    exact hih.of_linesAfter_eq rfl (Nat.le_of_lt hlt) (hlines.trans hall)

theorem encloses_strayClose (hd : Delimiter.commentClose.First u rest t) :
    Encloses registry resource r t (fail resource .strayComment r.line none) := by
  refine ⟨⟨.strayComment, r.line, none⟩, rfl, ?_⟩
  rw [Reader.linesAfter_of_first hd, lexemesFrom, Reader.linesAfter_cons]
  rfl

/-- A span is read to its end before the line around it goes on. -/
theorem encloses_opening (ih : EndsBelow registry resource t.length)
    (hd : Delimiter.opening.First u rest t) (h : c.Ready before r.line rest)
    (hflat : ∀ l ∈ r.inner.finished, l.block? = none) :
    Encloses registry resource r t (do
      let (inner, c) ← lines registry resource (some r.line) [] (Draft.start r.line) c
      let d ← enclosed inner (r.inner.draft.write u)
      lines registry resource r.opened? r.inner.finished.reverse d c) := by
  have hlines : r.linesAfter registry (lexemes t) = Reader.linesAfter registry
      ⟨r.line, Span.start r.line, (r.write u).inner :: r.outer⟩ (lexemes rest) := by
    rw [Reader.linesAfter_of_first hd, lexemesFrom, Reader.linesAfter_cons]
    rfl
  have hspan := ih ⟨r.line, Span.start r.line, (r.write u).inner :: r.outer⟩ c before rest
    hd.length_lt h (fun l hl => absurd hl List.not_mem_nil)
  refine (hspan.mono (fun _ hx => hx) ?_).bind ?_
  · rintro _ ⟨m, rfl, hm⟩
    exact ⟨m, rfl, hlines.trans hm⟩
  · rintro ⟨inner, last⟩ ⟨hinner, ⟨houter, -⟩ | ⟨s, outer, before', line, rest', houter, hlast, hrest,
      hall⟩⟩
    · exact absurd houter (List.cons_ne_nil _ _)
    · obtain ⟨rfl, rfl⟩ := List.cons.inj houter
      have hlt := hrest.trans hd.length_lt
      have hgoOn : Reader.mk line ((r.write u).inner.enclose inner) r.outer =
          (r.write u).goOn line ((r.write u).inner.enclose inner).draft := by
        rw [Reader.goOn, ← Span.enclose_eq]
        rfl
      have henclosed : enclosed inner (r.inner.draft.write u) =
          pure ((r.write u).inner.enclose inner).draft := enclosed_eq hinner (r.write u).inner
      have hih := ih ((r.write u).goOn line ((r.write u).inner.enclose inner).draft) last before'
        rest' hlt hlast hflat
      rw [hgoOn] at hall
      simp only [henclosed, pure_bind]
      exact hih.of_linesAfter_eq rfl (Nat.le_of_lt hlt) (hlines.trans hall)

theorem encloses_closing (hd : Delimiter.closing.First u rest t) (h : c.Ready before r.line rest)
    (hflat : ∀ l ∈ r.inner.finished, l.block? = none) :
    Encloses registry resource r t (if r.opened?.isNone then
      fail resource .strayParenthesis r.line none
      else pure (r.inner.finished.reverse ++ [(r.inner.draft.write u).finish r.line], c)) := by
  have hspan := Span.lines_eq r.line (r.write u).inner
  cases houter : r.outer with
  | nil =>
      have houter' : (r.write u).outer = [] := houter
      rw [Reader.opened?, houter]
      refine ⟨⟨.strayParenthesis, r.line, none⟩, rfl, ?_⟩
      rw [Reader.linesAfter_of_first hd, lexemesFrom, Reader.linesAfter_cons]
      simp only [Lexeme.ofDelimiter, Reader.readContent, houter']
      rfl
  | cons s outer =>
      have houter' : (r.write u).outer = s :: outer := houter
      rw [Reader.opened?, houter]
      refine ⟨?_, .inr ⟨s, outer, before, r.line, rest, houter, h, hd.length_lt, ?_⟩⟩
      · intro l hl
        exact Span.block?_of_mem_lines (s := (r.write u).inner) hflat r.line l (hspan ▸ hl)
      · rw [Reader.linesAfter_of_first hd, lexemesFrom, Reader.linesAfter_cons]
        simp only [Lexeme.ofDelimiter, Reader.readContent, houter']
        exact congrArg (fun ls =>
          Reader.linesAfter registry ⟨r.line, s.enclose ls, outer⟩ (lexemes rest)) hspan

theorem encloses_lineEnd {e : LineEnd} (ih : EndsBelow registry resource t.length)
    (hd : (Delimiter.lineEnd e).First u rest t) (h : c.Ready before (r.line + 1) rest)
    (hflat : ∀ l ∈ r.inner.finished, l.block? = none) :
    Encloses registry resource r t (lines registry resource r.opened?
      (r.inner.finished.reverse ++ [(r.inner.draft.write u).finish r.line])
      (Draft.start (r.line + 1)) c) := by
  have hone : lineEnds (Lexeme.lineEnd e).source = 1 := by cases e <;> rfl
  have hlines : r.linesAfter registry (lexemes t) = Reader.linesAfter registry
      ⟨r.line + 1, (r.write u).inner.nextLine r.line (r.line + 1), r.outer⟩ (lexemes rest) := by
    rw [Reader.linesAfter_of_first hd, lexemesFrom, Reader.linesAfter_cons]
    simp only [Lexeme.ofDelimiter, Reader.readContent, hone]
    rfl
  have hih := ih ⟨r.line + 1, (r.write u).inner.nextLine r.line (r.line + 1), r.outer⟩ c before rest
    hd.length_lt h (Span.block?_of_mem_nextLine (s := (r.write u).inner) hflat _ _)
  rw [← List.reverse_cons]
  exact hih.of_linesAfter_eq rfl (Nat.le_of_lt hd.length_lt) hlines

end Steps

/-- The lines of a span are read to the end of the span, and something is found all the way. -/
theorem ends_lines (h : c.Ready before r.line t) (hflat : ∀ l ∈ r.inner.finished, l.block? = none) :
    Encloses registry resource r t
      (lines registry resource r.opened? r.inner.finished.reverse r.inner.draft c) := by
  induction hn : t.length using Nat.strongRecOn generalizing t before r c with
  | ind n ih =>
      subst hn
      have hbelow : EndsBelow registry resource t.length :=
        fun _ _ _ _ hlt hready hfinished => ih _ hlt hready hfinished rfl
      rw [lines.eq_1]
      rcases h.find_delimiter with ⟨next, found, hfind, htext, htaken, hat, hfree⟩ |
        ⟨u, d, rest, next, found, hd, hfind, htext, htaken, hready⟩
      · rw [hfind]
        simp only [htaken, htext]
        rw [hat.toNat_line, if_neg (by decide), if_neg (by decide), if_neg (by decide),
          if_neg (by decide), if_neg (by decide), if_neg (by decide), if_neg (by decide),
          if_pos trivial]
        exact encloses_end hfree hflat _
      · rw [hfind]
        simp only [htaken, htext]
        rw [hready.toNat_line]
        cases d with
        | commentClose =>
            rw [if_pos rfl]
            exact encloses_strayClose hd
        | closing =>
            rw [if_neg (by decide), if_pos rfl]
            exact encloses_closing hd hready hflat
        | dashes =>
            rw [if_neg (by decide), if_neg (by decide), if_pos rfl]
            exact encloses_follows hbelow hd hflat (follows_lineComment hready)
        | commentOpen =>
            rw [if_neg (by decide), if_neg (by decide), if_neg (by decide), if_pos rfl]
            rw [← List.append_assoc] at hready
            exact encloses_follows hbelow hd hflat (follows_blockComment hready)
        | opening =>
            rw [if_neg (by decide), if_neg (by decide), if_neg (by decide), if_neg (by decide),
              if_pos rfl]
            exact encloses_opening hbelow hd (hready.toAt.ready hready.unexhausted) hflat
        | quote q =>
            cases q with
            | single =>
                rw [if_neg (by decide), if_neg (by decide), if_neg (by decide), if_neg (by decide),
                  if_neg (by decide), if_pos (by decide)]
                exact encloses_follows hbelow hd hflat (follows_quoted .single hready)
            | double =>
                rw [if_neg (by decide), if_neg (by decide), if_neg (by decide), if_neg (by decide),
                  if_neg (by decide), if_neg (by decide), if_pos (by decide)]
                exact encloses_follows hbelow hd hflat (follows_quoted .double hready)
        | lineEnd e =>
            have hone : lineEnds (Delimiter.lineEnd e).chars = 1 := by cases e <;> rfl
            rw [hone] at hready ⊢
            rw [if_neg (by cases e <;> decide), if_neg (by cases e <;> decide),
              if_neg (by cases e <;> decide), if_neg (by cases e <;> decide),
              if_neg (by cases e <;> decide), if_neg (by cases e <;> decide),
              if_neg (by cases e <;> decide), if_neg (by cases e <;> decide)]
            exact encloses_lineEnd hbelow hd hready hflat

/-- Parsing a template by descent ends, with the template or with a flaw on a line of the text. -/
theorem ends_template (registry : Registry) (resource : Option Text) (text : Text) :
    (template registry resource text).Ends
      (fun parsed => Template.parse registry resource text = .ok parsed)
      (fun e => Template.parse registry resource text = .error e ∧ e.place.resource = resource ∧
        ∃ n, e.place.first = some n ∧ 1 ≤ n ∧ n ≤ 1 + lineEnds text) := by
  have hready : (Cursor.ofText text).remember.Ready [] Reader.start.line text := ⟨⟨rfl, rfl, rfl⟩, rfl, rfl⟩
  have hlines : Encloses registry resource Reader.start text (lines registry resource none []
      (Draft.start 1) (Cursor.ofText text).remember) :=
    ends_lines hready fun l hl => absurd hl List.not_mem_nil
  rw [template]
  refine (hlines.mono (fun _ hx => hx) ?_).bind ?_
  · rintro _ ⟨m, rfl, hm⟩
    have hflaw : flatLines registry text = .error m := hm
    have hparse : Template.parse registry resource text = .error (reported resource m) := by
      rw [Template.parse, hflaw]
      rfl
    exact ⟨hparse, Template.place_of_parse hparse⟩
  · rintro ⟨flat, last⟩ ⟨hflat, ⟨-, hall⟩ | ⟨s, outer, before, line, rest, houter, -⟩⟩
    · have hparsed : flatLines registry text = .ok flat := hall
      have hparse : Template.parse registry resource text = .ok ⟨Line.nest flat, resource⟩ := by
        rw [Template.parse, hparsed]
      have hbuild : (Line.build flat : Attempt FormatError _) = pure (Line.nest flat) :=
        Line.build_eq_nest hflat
      simp only [hbuild, pure_bind]
      exact hparse
    · exact absurd houter.symm (List.cons_ne_nil _ _)

end Descent

end SqlTemplate
