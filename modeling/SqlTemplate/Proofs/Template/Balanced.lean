import SqlTemplate.Proofs.Source.Plain
import SqlTemplate.Proofs.Source.Scanning

/-!
# Templates are the balanced texts

A text whose comments say nothing to templates is a template if and only if it is balanced, and
otherwise what is wrong with it is its first offence (`Template.parse_of_inert`). The reader and the
scan go over the text side by side: `Reader.Tracks` says that the spans of the reader were opened on
the lines of the parentheses that the scan has left open, and every lexeme either keeps that or is
the first offence.
-/

namespace SqlTemplate

/-- What an offence is called, and the lines of the text that it is found on: the line of what is
closed too often, or the lines from what is left open to the end. -/
def Offence.misfit (text : Text) : Offence → Misfit
  | strayComment pos => ⟨.strayComment, lineAt text pos, none⟩
  | strayParenthesis pos => ⟨.strayParenthesis, lineAt text pos, none⟩
  | openComment pos => ⟨.openComment, lineAt text pos, some (lineAt text text.length)⟩
  | openParenthesis pos => ⟨.openParenthesis, lineAt text pos, some (lineAt text text.length)⟩

/-- What reading comes to, given the first offence of the text. -/
def Offence.Judged {α : Type} (text : Text) (offence : Option Offence) (x : Except Misfit α) : Prop :=
  match offence with
  | none => ∃ a, x = .ok a
  | some o => x = .error (o.misfit text)

namespace Reader

/-- The lines that a reader knows of in front of a rest of a text, where the parentheses at the given
positions are open. The span around all of them begins with the text. -/
structure Tracks (text rest : Text) (opened : List Nat) (r : Reader) : Prop where
  line : r.line + lineEnds rest = 1 + lineEnds text
  spans : (r.inner :: r.outer).map Span.openedAt = opened.map (lineAt text) ++ [1]

variable {registry : Registry} {r : Reader} {text rest : Text} {opened : List Nat}

theorem tracks_start (text : Text) : start.Tracks text text [] := ⟨rfl, rfl⟩

theorem Tracks.outer_eq_nil (h : r.Tracks text rest []) : r.outer = [] := by
  have hlength := congrArg List.length h.spans
  exact List.eq_nil_of_length_eq_zero (by simpa using hlength)

theorem Tracks.of_cons {pos : Nat} (h : r.Tracks text rest (pos :: opened)) :
    r.inner.openedAt = lineAt text pos ∧
      ∃ s outer, r.outer = s :: outer ∧
        (s :: outer).map Span.openedAt = opened.map (lineAt text) ++ [1] := by
  obtain ⟨hinner, houter⟩ := List.cons.inj h.spans
  refine ⟨hinner, ?_⟩
  cases hr : r.outer with
  | nil =>
      rw [hr] at houter
      exact absurd houter (by simp)
  | cons s outer =>
      rw [hr] at houter
      exact ⟨s, outer, rfl, houter⟩

theorem Tracks.judged_finish (h : r.Tracks text [] opened) :
    Offence.Judged text (firstOffence? opened []) r.finish := by
  cases opened with
  | nil => exact ⟨_, by rw [finish, h.outer_eq_nil]⟩
  | cons pos opened =>
      obtain ⟨hinner, s, outer, houter, -⟩ := h.of_cons
      have hline : r.line = lineAt text text.length := by
        rw [lineAt, List.take_length]
        exact h.line
      change r.finish = _
      rw [finish, houter, hinner, hline]
      rfl

theorem openedAt_enclose (lines : List Line) (s : Span) :
    (s.enclose lines).openedAt = s.openedAt := by
  unfold Span.enclose
  split <;> rfl

theorem firstOffence?_remark_cons (opened : List Nat) (n : Nat) (es : List Encounter) :
    firstOffence? opened (.remark n :: es) = firstOffence? opened es := by
  cases opened <;> rfl

theorem firstOffence?_comment_cons (opened : List Nat) (start stop : Nat) (es : List Encounter) :
    firstOffence? opened (.comment start stop :: es) = firstOffence? opened es := by
  cases opened <;> rfl

/-- A lexeme is the first offence, or reading goes on behind it. -/
theorem Tracks.judged_cons {whole : Text} {l : Lexeme} (hl : l.IsInert)
    (h : r.Tracks text whole opened) {n : Nat} {ls : List Lexeme} {es : List Encounter}
    (hends : lineEnds whole = lineEnds l.source + lineEnds rest)
    (hhere : ∀ c, l.source.head? = some c → isLineBreak c = false → r.line = lineAt text n)
    (hbehind : ∀ opened (next : Reader), next.Tracks text rest opened →
      Offence.Judged text (firstOffence? opened es) (next.linesAfter registry ls)) :
    Offence.Judged text (firstOffence? opened (l.meets n ++ es)) (r.linesAfter registry (l :: ls)) := by
  have hgoesOn : ∀ (content : Reader) (opened : List Nat),
      (content.inner :: content.outer).map Span.openedAt = opened.map (lineAt text) ++ [1] →
      Offence.Judged text (firstOffence? opened es)
        (linesAfter registry { content with line := r.line + lineEnds l.source } ls) := by
    intro content opened hspans
    refine hbehind opened _ ⟨?_, hspans⟩
    have hline := h.line
    dsimp only
    omega
  rw [linesAfter_cons]
  cases l with
  | plain c => exact hgoesOn _ opened h.spans
  | quoted q body => exact hgoesOn _ opened h.spans
  | hint body =>
      have hnext := hgoesOn (r.write (Lexeme.hint body).source) opened h.spans
      rwa [← firstOffence?_comment_cons opened n (n + 2 + body.length)] at hnext
  | remark body =>
      have hnext := hgoesOn r opened h.spans
      rwa [← firstOffence?_remark_cons opened n] at hnext
  | comment body =>
      have hnext := hgoesOn r opened h.spans
      rwa [← firstOffence?_comment_cons opened n (n + 2 + body.length)] at hnext
  | lineEnd e => exact hgoesOn _ opened h.spans
  | opening =>
      have hspans : (Span.start r.line :: r.inner :: r.outer).map Span.openedAt =
          (n :: opened).map (lineAt text) ++ [1] := by
        rw [List.map_cons, h.spans, List.map_cons, ← hhere '(' rfl rfl]
        rfl
      have hnext := hgoesOn { r with inner := Span.start r.line, outer := r.inner :: r.outer }
        (n :: opened) hspans
      cases opened <;> exact hnext
  | closing =>
      cases opened with
      | nil =>
          rw [readContent, h.outer_eq_nil, hhere ')' rfl rfl]
          rfl
      | cons pos opened =>
          obtain ⟨-, s, outer, houter, hspans⟩ := h.of_cons
          have hclosed : (s.enclose (r.inner.lines r.line) :: outer).map Span.openedAt =
              opened.map (lineAt text) ++ [1] := by
            rw [List.map_cons, openedAt_enclose]
            exact hspans
          rw [readContent, houter]
          exact hgoesOn { r with inner := s.enclose (r.inner.lines r.line), outer := outer }
            opened hclosed
  | strayClose =>
      rw [readContent, hhere '*' rfl rfl]
      cases opened <;> rfl
  | lineDirective body => exact absurd hl id
  | blockDirective body sample => exact absurd hl id
  | openQuote q rest => exact absurd hl id
  | openComment rest => exact absurd hl id
  | openSample body rest => exact absurd hl id

/-- A comment that is never closed is the first offence behind the lexemes in front of it. -/
theorem Tracks.judged_openComment {done u : Text} {ls : List Lexeme}
    (htext : text = done ++ '/' :: '*' :: u) (h : r.Tracks text ('/' :: '*' :: u) opened)
    (hclose : Comment.close? 0 u = none) :
    Offence.Judged text
      (firstOffence? opened (Scan.meets (.text none) done.length ('/' :: '*' :: u)))
      (r.linesAfter registry (.openComment u :: ls)) := by
  have hhere : r.line = lineAt text done.length := eq_lineAt htext h.line rfl (by decide)
  have hlast : r.line + lineEnds u = lineAt text text.length := by
    rw [lineAt, List.take_length]
    exact h.line
  have hnext : text = (done ++ ['/', '*']) ++ u := by rw [htext, List.append_assoc]; rfl
  obtain ⟨pos, hmeets, hlines⟩ :=
    Scan.meets_of_close?_eq_none done.length hclose (List.length_nil) hnext h.line
  have hmet : Scan.meets (.text none) done.length ('/' :: '*' :: u) = [.openComment pos] := by
    rw [← hmeets, List.length_append]
    rfl
  have hfirst : (Comment.openLines [r.line] r.line u).headD r.line = lineAt text pos := by
    rw [List.headD_eq_head?_getD, hhere]
    rw [hhere] at hlines
    exact congrArg (Option.getD · _) hlines
  rw [hmet, linesAfter_cons, readContent, hfirst, hlast]
  cases opened <;> rfl

/-- What is met first tells how reading the rest of a text ends. -/
theorem Tracks.judged {done : Text} (htext : text = done ++ rest) (h : r.Tracks text rest opened)
    (hinert : Inert text (Scan.meets (.text none) done.length rest)) :
    Offence.Judged text (firstOffence? opened (Scan.meets (.text none) done.length rest))
      (r.linesAfter registry (lexemes rest)) := by
  fun_induction lexemes rest generalizing done opened r with
  | case1 => exact h.judged_finish
  | case2 c t ih =>
      rcases Lexeme.meets_first htext hinert with hfirst | ⟨u, hu, hclose, hfirst⟩
      · rw [hfirst.meets_eq] at hinert ⊢
        have hsource := Lexeme.source_first c t
        refine h.judged_cons hfirst.inert (Lexeme.lineEnds_first c t) ?_ ?_
        · intro d hhead hd
          refine eq_lineAt htext h.line ?_ hd
          rw [← hsource, List.head?_append, hhead]
          rfl
        · intro opened next hnext
          have hdone : text = (done ++ (Lexeme.first c t).1.source) ++ (Lexeme.first c t).2 := by
            rw [htext, List.append_assoc, hsource]
          rw [← List.length_append] at hinert ⊢
          exact ih hdone hnext hinert.of_append_right
      · rw [hu] at htext h ⊢
        rw [hfirst]
        exact h.judged_openComment htext hclose

end Reader

/-- A text whose comments say nothing and whose literals are closed is a template if and only if it
is balanced. If it is not, then its first offence is what is wrong with it. -/
theorem Template.parse_of_inert (registry : Registry) (resource : Option Text) {text : Text}
    (h : Inert text (encounters text)) :
    ((∃ t, Template.parse registry resource text = .ok t) ↔
      Encounter.Balanced 0 (encounters text)) ∧
    (¬Encounter.Balanced 0 (encounters text) → ∃ o : Offence, o.IsFirst (encounters text)) ∧
    ∀ o : Offence, o.IsFirst (encounters text) →
      Template.parse registry resource text =
        .error ⟨(o.misfit text).flaw, resource, some (o.misfit text).first, (o.misfit text).last⟩ := by
  have hjudged : Offence.Judged text (firstOffence? [] (encounters text)) (flatLines registry text) :=
    (Reader.tracks_start text).judged (List.nil_append text).symm h
  have hbalanced : firstOffence? [] (encounters text) = none ↔
      Encounter.Balanced 0 (encounters text) := firstOffence?_eq_none_iff
  unfold parse
  cases hfound : firstOffence? [] (encounters text) with
  | none =>
      rw [hfound] at hjudged
      obtain ⟨lines, hlines⟩ := hjudged
      have hb := hbalanced.1 hfound
      rw [hlines]
      exact ⟨⟨fun _ => hb, fun _ => ⟨_, rfl⟩⟩, fun hnot => absurd hb hnot,
        fun o ho => absurd hb ho.not_balanced⟩
  | some o =>
      rw [hfound] at hjudged
      have herror : flatLines registry text = .error (o.misfit text) := hjudged
      have hfirst := isFirst_of_firstOffence? hfound
      rw [herror]
      refine ⟨⟨?_, ?_⟩, fun _ => ⟨o, hfirst⟩, ?_⟩
      · rintro ⟨t, ht⟩
        exact absurd ht (by simp)
      · intro hb
        rw [hbalanced.2 hb] at hfound
        exact absurd hfound (by simp)
      · intro o' ho'
        rw [ho'.eq hfirst]

/-- The parentheses in a literal and in comments of each kind are passed over. The one that is opened on
the second line is left open. -/
theorem Template.parse_of_inert_openSpan :
    let text := "SELECT '(' /*+ ( /* b */ */ -- )\r\nFROM (t\n/**/ WHERE \"a\"\"(\" = (1)\r".toList
    Inert text (encounters text) ∧ (Offence.openParenthesis 39).IsFirst (encounters text) ∧
      Template.parse .standard none text = .error ⟨.openParenthesis, none, some 2, some 4⟩ := by
  intro text
  have hmet : encounters text = [.comment 11 25, .remark 28, .opening 39, .comment 42 44,
    .opening 62, .closing 64] := by rfl
  have hinert : Inert text (encounters text) := by
    rw [hmet]
    refine ⟨fun pos hpos => ?_, fun start stop hcomment => ?_, by decide⟩
    · obtain rfl : pos = 28 := by simpa using hpos
      rfl
    · have hwhere : (start = 11 ∧ stop = 25) ∨ (start = 42 ∧ stop = 44) := by simpa using hcomment
      rcases hwhere with ⟨rfl, rfl⟩ | ⟨rfl, rfl⟩
      · exact .inr ⟨'+', by decide, rfl⟩
      · exact .inl rfl
  have hfirst : (Offence.openParenthesis 39).IsFirst (encounters text) :=
    isFirst_of_firstOffence? (hmet ▸ rfl)
  obtain ⟨-, -, herror⟩ := Template.parse_of_inert .standard none hinert
  exact ⟨hinert, hfirst, herror _ hfirst⟩

end SqlTemplate
