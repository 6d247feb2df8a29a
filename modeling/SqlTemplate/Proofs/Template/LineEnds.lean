import SqlTemplate.Proofs.Source.Cuts
import SqlTemplate.Proofs.Template.Located

/-!
# Templates and line ends

A template does not depend on how the line ends of its text are spelled, as long as none of them
stands inside of what is kept of the text: a quoted literal, a hint, or a directive with its sample
(`Template.parse_respell`). The lexemes of the respelled text are read in the same states as those of
the text, flaw by flaw and line by line.
-/

namespace SqlTemplate

/-- No line feed stands in what a template keeps of a lexeme. -/
def Lexeme.Unbroken : Lexeme → Prop
  | quoted _ body | hint body => '\n' ∉ body
  | blockDirective body sample => '\n' ∉ body ∧ '\n' ∉ sample.getD []
  | _ => True

instance : DecidablePred Lexeme.Unbroken
  | .quoted _ body | .hint body => inferInstanceAs (Decidable ('\n' ∉ body))
  | .blockDirective body sample =>
    inferInstanceAs (Decidable ('\n' ∉ body ∧ '\n' ∉ sample.getD []))
  | .plain _ | .lineEnd _ | .opening | .closing | .remark _ | .comment _ | .lineDirective _
  | .strayClose | .openQuote .. | .openComment _ | .openSample .. => .isTrue trivial

namespace LineEnd

/-- The comments that are open at the end of a text were opened on the same lines however its line
ends are spelled. -/
theorem openLines_respell (e : LineEnd) {t : Text} (h : '\r' ∉ t) (stack : List Nat) (line : Nat) :
    Comment.openLines stack line (e.respell t) = Comment.openLines stack line t := by
  fun_induction Comment.openLines stack line t with
  | case1 stack line => rw [respell_nil, Comment.openLines]
  | case2 stack line t ih =>
    have hclosing : e.respell ('*' :: '/' :: t) = '*' :: '/' :: e.respell t := rfl
    rw [hclosing, Comment.openLines]
    exact ih fun hmem => h (List.mem_cons_of_mem _ (List.mem_cons_of_mem _ hmem))
  | case3 stack line t ih =>
    have hopening : e.respell ('/' :: '*' :: t) = '/' :: '*' :: e.respell t := rfl
    rw [hopening, Comment.openLines]
    exact ih fun hmem => h (List.mem_cons_of_mem _ (List.mem_cons_of_mem _ hmem))
  | case4 stack line t ih => exact absurd List.mem_cons_self h
  | case5 stack line c t hclosing hopening hcrlf ih =>
    rw [List.mem_cons, not_or] at h
    by_cases hc : c = '\n'
    · rw [hc] at ih ⊢
      rw [respell_lineFeed_cons, Comment.openLines_chars_append
        (Delimiter.take?_lineEnd e (sealed_respell e t))]
      exact ih h.2
    · have hbreak := isLineBreak_eq_false_iff.2 ⟨Ne.symm h.1, hc⟩
      have hother : Comment.IsOther (c :: t) :=
        ⟨fun v heq => hopening v (List.cons.inj heq).1 (List.cons.inj heq).2,
          fun v heq => hclosing v (List.cons.inj heq).1 (List.cons.inj heq).2⟩
      rw [hbreak] at ih ⊢
      rw [respell_cons hc, Comment.openLines_cons (isOther_respell hother) hbreak]
      exact ih h.2

/-- A lexeme stands on as many lines however its line ends are spelled. -/
theorem lineEnds_source_respell (e : LineEnd) {l : Lexeme} (h : '\r' ∉ l.source) :
    lineEnds (l.respell e).source = lineEnds l.source := by
  have hof (hsource : (l.respell e).source = e.respell l.source) :
      lineEnds (l.respell e).source = lineEnds l.source := by
    rw [hsource, lineEnds_respell h]
  have hquote (q : Quote) (t : Text) : e.respell (q.char :: t) = q.char :: e.respell t :=
    respell_cons_of_not_isLineBreak q.isLineBreak_char
  have hopening (t : Text) : e.respell ('/' :: '*' :: t) = '/' :: '*' :: e.respell t := rfl
  have hclosing (t : Text) : e.respell ('*' :: '/' :: t) = '*' :: '/' :: e.respell t := rfl
  cases l with
  | lineEnd f => cases e <;> cases f <;> rfl
  | plain | opening | closing | remark | lineDirective | strayClose => rfl
  | quoted q | openQuote q => exact hof (hquote q _).symm
  | openComment => exact hof (hopening _).symm
  | openSample =>
    refine hof ?_
    simp only [Lexeme.source, Lexeme.respell, hopening, hclosing, respell_append]
  | comment | hint =>
    refine hof ?_
    simp only [Lexeme.source, Lexeme.respell, hopening, respell_append]
    rfl
  | blockDirective body sample =>
    refine hof ?_
    simp only [Lexeme.source, Lexeme.respell, hopening, hclosing, respell_append]
    cases sample <;> rfl

end LineEnd

namespace Reader

variable {registry : Registry} {r : Reader} {l : Lexeme}

theorem readContent_respell (e : LineEnd) (hl : l.Unbroken) (h : '\r' ∉ l.source) :
    r.readContent registry (l.respell e) = r.readContent registry l := by
  cases l with
  | plain | lineEnd | opening | closing | remark | comment | lineDirective | strayClose
  | openQuote => rfl
  | quoted q body | hint body =>
    simp only [Lexeme.respell, LineEnd.respell_of_not_mem hl]
  | blockDirective body sample =>
    have hsample : sample.map e.respell = sample := by
      cases sample with
      | none => rfl
      | some s => exact congrArg some (LineEnd.respell_of_not_mem hl.2)
    simp only [Lexeme.respell, LineEnd.respell_of_not_mem hl.1, hsample]
  | openComment rest =>
    have hrest : '\r' ∉ rest := fun hmem => h (by simp [Lexeme.source, hmem])
    simp only [Lexeme.respell, readContent, LineEnd.openLines_respell e hrest,
      LineEnd.lineEnds_respell hrest]
  | openSample body rest =>
    have hbody : '\r' ∉ body := fun hmem => h (by simp [Lexeme.source, hmem])
    simp only [Lexeme.respell, readContent, LineEnd.lineEnds_respell hbody]

theorem read_respell (e : LineEnd) (hl : l.Unbroken) (h : '\r' ∉ l.source) :
    r.read registry (l.respell e) = r.read registry l := by
  rw [read, read, readContent_respell e hl h, LineEnd.lineEnds_source_respell e h]

theorem readAll_respell (e : LineEnd) {ls : List Lexeme}
    (h : ∀ l ∈ ls, l.Unbroken ∧ '\r' ∉ l.source) :
    r.readAll registry (ls.map (Lexeme.respell e)) = r.readAll registry ls := by
  induction ls generalizing r with
  | nil => rfl
  | cons l ls ih =>
    obtain ⟨⟨hl, hsource⟩, hls⟩ := List.forall_mem_cons.1 h
    rw [List.map_cons, readAll, readAll, read_respell e hl hsource]
    cases r.read registry l with
    | error m => rfl
    | ok next => exact ih hls

end Reader

/-- A text without carriage returns, in which no line end stands inside of a quoted literal, a hint
or a directive with its sample, is the same template however its line ends are spelled: line by line
the same text, offsets, directives and numbers. If it is no template, the error is the same. -/
theorem Template.parse_respell (registry : Registry) (resource : Option Text) (e : LineEnd)
    {t : Text} (ht : '\r' ∉ t) (h : ∀ l ∈ lexemes t, l.Unbroken) :
    parse registry resource (e.respell t) = parse registry resource t := by
  have hsource : ∀ l ∈ lexemes t, '\r' ∉ l.source := by
    intro l hl hmem
    rw [← source_lexemes t] at ht
    exact ht (List.mem_flatMap.2 ⟨l, hl, hmem⟩)
  have hall : Reader.start.readAll registry ((lexemes t).map (·.respell e)) =
      Reader.start.readAll registry (lexemes t) :=
    Reader.readAll_respell e fun l hl => ⟨h l hl, hsource l hl⟩
  rw [parse, parse, flatLines, flatLines, LineEnd.lexemes_respell e ht, hall]

/-- A comment on two lines and a span on three, with the line ends of another system. -/
theorem Template.parse_respell_span :
    parse .standard none
        "SELECT /** all\r\ncolumns */ *\r\nFROM t WHERE (\r\n  a = 'x' -- ?a\r\n)".toList =
      parse .standard none
        "SELECT /** all\ncolumns */ *\nFROM t WHERE (\n  a = 'x' -- ?a\n)".toList := by
  have hunbroken : ∀ l ∈ lexemes
      "SELECT /** all\ncolumns */ *\nFROM t WHERE (\n  a = 'x' -- ?a\n)".toList, l.Unbroken := by
    with_unfolding_all decide
  exact parse_respell .standard none .crlf (by decide) hunbroken

end SqlTemplate
