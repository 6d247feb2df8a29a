import SqlTemplate.Proofs.Source.Balance
import SqlTemplate.Proofs.Source.Closing

/-!
# Scanning lexemes

The scan of a text passes one lexeme after the other: behind a lexeme that is closed it stands
outside of literals and comments again, and all that it met on the way is the lexeme itself
(`Lexeme.meets_first`). A comment that is never closed ends the scan, and of the comments that are
open then the innermost one is met (`Scan.meets_of_close?_eq_none`).
-/

namespace SqlTemplate

theorem Quote.char_eq (q : Quote) : q.char = '\'' ∨ q.char = '"' := by
  cases q with
  | single => exact .inl rfl
  | double => exact .inr rfl

namespace Scan

variable {n : Nat} {c q : Char} {t body rest : Text}

theorem meets_none_cons (h : Delimiter.take? (c :: t) = none) :
    meets (.text none) n (c :: t) = meets (.text none) (n + 1) t := by
  have htoggle : toggle none c = none := by
    refine if_neg ?_
    rintro (rfl | rfl)
    · simp [Delimiter.take?] at h
    · simp [Delimiter.take?] at h
  rw [meets]
  · rw [htoggle]
  all_goals
    intros
    subst_vars
    simp [Delimiter.take?] at h

theorem meets_none_lineBreak (h : isLineBreak c = true) :
    meets (.text none) n (c :: t) = meets (.text none) (n + 1) t := by
  have hbreak : c = '\r' ∨ c = '\n' := by simpa [isLineBreak] using h
  rcases hbreak with rfl | rfl <;> rfl

theorem meets_none_quote (hq : q = '\'' ∨ q = '"') :
    meets (.text none) n (q :: t) = meets (.text (some q)) (n + 1) t := by
  rcases hq with rfl | rfl <;> rfl

theorem meets_some_cons (q : Char) :
    meets (.text (some q)) n (c :: t) = meets (.text (toggle (some q) c)) (n + 1) t := rfl

theorem meets_comment_cons {inner : Nat} {outer : List Nat} (h : Comment.IsOther (c :: t)) :
    meets (.comment inner outer) n (c :: t) = meets (.comment inner outer) (n + 1) t := by
  rw [meets]
  · rintro u - rfl rfl
    exact h.2 u rfl
  · rintro k ks u - rfl rfl
    exact h.2 u rfl
  · rintro u rfl rfl
    exact h.1 u rfl

theorem add_length_cons (n : Nat) (c : Char) (t : Text) :
    n + 1 + t.length = n + (c :: t).length := by
  rw [List.length_cons, Nat.add_assoc, Nat.add_comm 1]

/-- A literal that is closed is passed. -/
theorem meets_of_closing? (hq : q = '\'' ∨ q = '"')
    (h : Quoted.closing? q t = some (body, rest)) :
    meets (.text (some q)) n t = meets (.text none) (n + body.length) rest := by
  fun_induction Quoted.closing? q t generalizing body rest n with
  | case1 => simp at h
  | case2 =>
      obtain ⟨rfl, rfl⟩ := Prod.mk.inj (Option.some.inj h)
      rw [meets_some_cons, toggle_some_self]
      rfl
  | case3 => simp at h
  | case4 t b r hb ih =>
      obtain ⟨rfl, rfl⟩ := Prod.mk.inj (Option.some.inj h)
      rw [meets_some_cons, toggle_some_self, meets_none_quote hq, ih hb, add_length_cons,
        add_length_cons]
  | case5 t hb ih =>
      obtain ⟨rfl, rfl⟩ := Prod.mk.inj (Option.some.inj h)
      rw [meets_some_cons, toggle_some_self]
      rfl
  | case6 d t hd =>
      obtain ⟨rfl, rfl⟩ := Prod.mk.inj (Option.some.inj h)
      rw [meets_some_cons, toggle_some_self]
      rfl
  | case7 c d t hc ih =>
      obtain ⟨⟨b, r⟩, hb, he⟩ := Option.map_eq_some_iff.1 h
      obtain ⟨rfl, rfl⟩ := Prod.mk.inj he
      rw [meets_some_cons, toggle, if_neg hc, ih hb, add_length_cons]

/-- A literal that is never closed is open at the end. -/
theorem meets_of_closing?_eq_none (h : Quoted.closing? q t = none) :
    meets (.text (some q)) n t = [.openLiteral] := by
  rw [Quoted.closing?_eq_none_iff] at h
  induction t generalizing n with
  | nil => rfl
  | cons c t ih =>
      obtain ⟨hc, ht⟩ := not_or.1 (mt List.mem_cons.2 h)
      rw [meets_some_cons, toggle, if_neg (Ne.symm hc), ih ht]

/-- A line comment is passed up to its line end. -/
theorem meets_remark (t : Text) :
    meets .remark n t =
      meets (.text none) (n + (restOfLine t).1.length) (restOfLine t).2 := by
  induction t generalizing n with
  | nil => rfl
  | cons c t ih =>
      rw [meets]
      cases hc : isLineBreak c with
      | true =>
          have hrest : restOfLine (c :: t) = ([], c :: t) := by simp [restOfLine, hc]
          rw [hrest, if_pos rfl]
          exact (meets_none_lineBreak hc).symm
      | false =>
          have hrest : restOfLine (c :: t) = (c :: (restOfLine t).1, (restOfLine t).2) := by
            simp [restOfLine, hc]
          rw [hrest, if_neg (by simp), ih, add_length_cons]

/-- A block comment that is closed is passed, and where it was opened is met. -/
theorem meets_of_close? {depth inner : Nat} {outer : List Nat}
    (h : Comment.close? depth t = some (body, rest)) (houter : outer.length = depth) :
    meets (.comment inner outer) n t =
      .comment ((inner :: outer).getLast (List.cons_ne_nil _ _)) (n + body.length) ::
        meets (.text none) (n + body.length + 2) rest := by
  fun_induction Comment.close? depth t generalizing body rest n inner outer with
  | case1 => simp at h
  | case2 t =>
      obtain ⟨rfl, rfl⟩ := Prod.mk.inj (Option.some.inj h)
      obtain rfl := List.eq_nil_of_length_eq_zero houter
      rfl
  | case3 depth t ih =>
      obtain ⟨⟨b, r⟩, hb, he⟩ := Option.map_eq_some_iff.1 h
      obtain ⟨rfl, rfl⟩ := Prod.mk.inj he
      obtain ⟨k, outer, rfl⟩ := List.exists_cons_of_length_eq_add_one houter
      rw [meets, ih hb (Nat.succ.inj houter), ← add_length_cons n '*', ← add_length_cons (n + 1) '/']
      rfl
  | case4 depth t ih =>
      obtain ⟨⟨b, r⟩, hb, he⟩ := Option.map_eq_some_iff.1 h
      obtain ⟨rfl, rfl⟩ := Prod.mk.inj he
      rw [meets, ih hb (congrArg (· + 1) houter), ← add_length_cons n '/',
        ← add_length_cons (n + 1) '*']
      rfl
  | case5 depth c t hclose hclosing hopening ih =>
      obtain ⟨⟨b, r⟩, hb, he⟩ := Option.map_eq_some_iff.1 h
      obtain ⟨rfl, rfl⟩ := Prod.mk.inj he
      rw [meets_comment_cons (Comment.isOther_of_forall hclose hclosing hopening), ih hb houter,
        add_length_cons]

end Scan

/-- The line in front of a rest of a text that does not begin with a line end, told by the line ends
that are left. -/
theorem eq_lineAt {text done t : Text} {line : Nat} (htext : text = done ++ t)
    (hline : line + lineEnds t = 1 + lineEnds text) {c : Char} (hhead : t.head? = some c)
    (hc : isLineBreak c = false) : line = lineAt text done.length := by
  rw [htext, lineEnds_append (sealed_of_head? hhead hc done)] at hline
  rw [lineAt, htext, List.take_left]
  omega

namespace Scan

/-- Of the comments that are open at the end the innermost one is met. -/
theorem meets_of_close?_eq_none {text done t : Text} {depth line : Nat} (inner : Nat)
    {outer : List Nat} (h : Comment.close? depth t = none) (houter : outer.length = depth)
    (htext : text = done ++ t) (hline : line + lineEnds t = 1 + lineEnds text) :
    ∃ pos, meets (.comment inner outer) done.length t = [.openComment pos] ∧
      (Comment.openLines ((inner :: outer).map (lineAt text)) line t).head? =
        some (lineAt text pos) := by
  fun_induction Comment.close? depth t generalizing done inner outer line with
  | case1 depth =>
      refine ⟨inner, rfl, ?_⟩
      rw [Comment.openLines]
      rfl
  | case2 t => simp at h
  | case3 depth t ih =>
      obtain ⟨k, outer, rfl⟩ := List.exists_cons_of_length_eq_add_one houter
      have hnext : text = (done ++ ['*', '/']) ++ t := by rw [htext, List.append_assoc]; rfl
      obtain ⟨pos, hmeets, hlines⟩ :=
        ih k (Option.map_eq_none_iff.1 h) (Nat.succ.inj houter) hnext hline
      refine ⟨pos, ?_, hlines⟩
      rw [meets, ← hmeets, List.length_append]
      rfl
  | case4 depth t ih =>
      have hhere := eq_lineAt htext hline rfl (by decide)
      have hnext : text = (done ++ ['/', '*']) ++ t := by rw [htext, List.append_assoc]; rfl
      have hlength : (inner :: outer).length = depth + 1 := congrArg (· + 1) houter
      obtain ⟨pos, hmeets, hlines⟩ :=
        ih done.length (Option.map_eq_none_iff.1 h) hlength hnext hline
      refine ⟨pos, ?_, ?_⟩
      · rw [meets, ← hmeets, List.length_append]
        rfl
      · rw [List.map_cons, ← hhere] at hlines
        exact hlines
  | case5 depth c t hclose hclosing hopening ih =>
      have hother := Comment.isOther_of_forall hclose hclosing hopening
      obtain ⟨k, hlines, hends, -⟩ := Comment.exists_openLines_cons hother
      have hnext : text = (done ++ [c]) ++ t := by rw [htext, List.append_assoc]; rfl
      have hleft : line + k + lineEnds t = 1 + lineEnds text := by
        rw [← hline, hends, Nat.add_assoc]
      obtain ⟨pos, hmeets, hhead⟩ := ih inner (Option.map_eq_none_iff.1 h) houter hnext hleft
      refine ⟨pos, ?_, ?_⟩
      · rw [meets_comment_cons hother, ← hmeets, List.length_append]
        rfl
      · rw [hlines, hhead]

end Scan

/-- A text in which, as far as it is scanned, no comment is a directive and every literal is
closed. -/
structure Inert (text : Text) (es : List Encounter) : Prop where
  remarks : ∀ pos, .remark pos ∈ es → Lexeme.isLineDirective (text.drop (pos + 2)) = false
  comments : ∀ start stop, .comment start stop ∈ es →
    isBlankText ((text.take stop).drop (start + 2)) = true ∨
      ∃ c ∈ "*!+".toList, ((text.take stop).drop (start + 2)).head? = some c
  literals : .openLiteral ∉ es

theorem Inert.of_append_right {text : Text} {front es : List Encounter}
    (h : Inert text (front ++ es)) : Inert text es :=
  ⟨fun pos hmem => h.remarks pos (List.mem_append_right _ hmem),
    fun start stop hmem => h.comments start stop (List.mem_append_right _ hmem),
    fun hmem => h.literals (List.mem_append_right _ hmem)⟩

namespace Lexeme

/-- A lexeme that is closed and no directive. -/
def IsInert : Lexeme → Prop
  | lineDirective _ | blockDirective .. | openQuote .. | openComment _ | openSample .. => False
  | _ => True

/-- What the scan meets in a lexeme that begins at a position. -/
def meets (n : Nat) : Lexeme → List Encounter
  | opening => [.opening n]
  | closing => [.closing n]
  | remark _ => [.remark n]
  | comment body | hint body => [.comment n (n + 2 + body.length)]
  | strayClose => [.strayComment n]
  | _ => []

theorem useOf_ne_directive {body : Text}
    (h : isBlankText body = true ∨ ∃ c ∈ "*!+".toList, body.head? = some c) :
    useOf body ≠ .directive := by
  rcases h with hblank | ⟨c, hc, hhead⟩
  · unfold useOf
    rw [if_pos hblank]
    decide
  · obtain ⟨u, rfl⟩ := List.head?_eq_some_iff.1 hhead
    have hkept : c = '*' ∨ c = '!' ∨ c = '+' := by simpa using hc
    unfold useOf
    rcases hkept with rfl | rfl | rfl
    · split <;> simp
    · split <;> simp
    · split <;> simp

theorem isLineDirective_append {s : Text} (h : isLineDirective s = true) (t : Text) :
    isLineDirective (s ++ t) = true := by
  unfold isLineDirective at h
  split at h
  · exact h
  · simp at h

/-- Whether a line comment is a directive is seen from the text behind its dashes. -/
theorem ofLine_restOfLine {t : Text} (h : isLineDirective t = false) :
    ofLine (restOfLine t).1 = remark (restOfLine t).1 := by
  refine if_neg fun hbody => ?_
  have htext := isLineDirective_append hbody (restOfLine t).2
  rw [restOfLine, List.takeWhile_append_dropWhile, h] at htext
  simp at htext

/-- The body of a comment is what stands between its beginning and its end. -/
theorem body_eq (done body rest : Text) :
    ((done ++ '/' :: '*' :: (body ++ '*' :: '/' :: rest)).take
      (done.length + 2 + body.length)).drop (done.length + 2) = body := by
  rw [List.drop_take, Nat.add_sub_cancel_left, List.drop_length_add_append]
  exact List.take_left

/-- A lexeme at the beginning of what is left of a text is passed by the scan. -/
structure IsPassed (n : Nat) (l : Lexeme) (whole rest : Text) : Prop where
  inert : l.IsInert
  meets_eq : Scan.meets (.text none) n whole =
    l.meets n ++ Scan.meets (.text none) (n + l.source.length) rest

variable {n : Nat} {u body rest : Text}

theorem isPassed_quoted {q : Quote} (h : Quoted.closing? q.char u = some (body, rest)) :
    IsPassed n (quoted q body) (q.char :: u) rest := by
  refine ⟨trivial, ?_⟩
  rw [Scan.meets_none_quote q.char_eq, Scan.meets_of_closing? q.char_eq h, Scan.add_length_cons]
  rfl

theorem isPassed_remark (n : Nat) (u : Text) :
    IsPassed n (remark (restOfLine u).1) ('-' :: '-' :: u) (restOfLine u).2 := by
  refine ⟨trivial, congrArg (Encounter.remark n :: ·) ?_⟩
  rw [Scan.meets_remark, source, ← Scan.add_length_cons, ← Scan.add_length_cons]
  rfl

theorem isPassed_ofBlock (h : Comment.close? 0 u = some (body, rest))
    (hbody : useOf body ≠ .directive) :
    IsPassed n (ofBlock body rest).1 ('/' :: '*' :: u) (ofBlock body rest).2 := by
  have hmeets : Scan.meets (.text none) n ('/' :: '*' :: u) =
      .comment n (n + 2 + body.length) ::
        Scan.meets (.text none) (n + 2 + body.length + 2) rest := Scan.meets_of_close? h rfl
  have hlength : n + 2 + body.length + 2 =
      n + ('/' :: '*' :: (body ++ ['*', '/'])).length := by
    simp only [List.length_cons, List.length_append, List.length_nil]
    omega
  rw [hlength] at hmeets
  unfold ofBlock
  split
  · exact ⟨trivial, hmeets⟩
  · exact ⟨trivial, hmeets⟩
  · rename_i hdirective
    exact absurd hdirective hbody

/-- What an inert text says of a comment at the beginning of what is left. -/
theorem useOf_ne_directive_of_inert {text done : Text}
    (htext : text = done ++ '/' :: '*' :: u) (hclose : Comment.close? 0 u = some (body, rest))
    (h : Inert text (Scan.meets (.text none) done.length ('/' :: '*' :: u))) :
    useOf body ≠ .directive := by
  have hmeets : Scan.meets (.text none) done.length ('/' :: '*' :: u) =
      .comment done.length (done.length + 2 + body.length) ::
        Scan.meets (.text none) (done.length + 2 + body.length + 2) rest :=
    Scan.meets_of_close? hclose rfl
  have hbody := h.comments done.length (done.length + 2 + body.length)
    (hmeets ▸ List.mem_cons_self ..)
  rw [htext, Comment.append_of_close? hclose, body_eq] at hbody
  exact useOf_ne_directive hbody

/-- What is left of a text is scanned behind its first lexeme, unless that is a comment that is never
closed. -/
theorem meets_first {text done t : Text} {c : Char} (htext : text = done ++ c :: t)
    (h : Inert text (Scan.meets (.text none) done.length (c :: t))) :
    IsPassed done.length (first c t).1 (c :: t) (first c t).2 ∨
      ∃ u, c :: t = '/' :: '*' :: u ∧ Comment.close? 0 u = none ∧ (first c t).1 = openComment u := by
  unfold first
  split
  · rename_i d u htake
    have hchars := Delimiter.chars_append_of_take? htake
    rw [hchars] at h htext ⊢
    cases d with
    | lineEnd e =>
        refine .inl ⟨trivial, ?_⟩
        cases e with
        | crlf => exact (Scan.meets_none_lineBreak rfl).trans (Scan.meets_none_lineBreak rfl)
        | cr => exact Scan.meets_none_lineBreak rfl
        | lf => exact Scan.meets_none_lineBreak rfl
    | opening => exact .inl ⟨trivial, rfl⟩
    | closing => exact .inl ⟨trivial, rfl⟩
    | commentClose => exact .inl ⟨trivial, rfl⟩
    | quote q =>
        simp only [ofDelimiter]
        split
        · rename_i hclosing
          exact .inl (isPassed_quoted hclosing)
        · rename_i hclosing
          have hopened : Scan.meets (.text none) done.length (q.char :: u) = [.openLiteral] := by
            rw [Scan.meets_none_quote q.char_eq, Scan.meets_of_closing?_eq_none hclosing]
          refine absurd ?_ h.literals
          exact hopened ▸ List.mem_singleton_self _
    | dashes =>
        have hdirective : isLineDirective u = false := by
          have hremark := h.remarks done.length (List.mem_cons_self ..)
          rwa [htext, List.drop_length_add_append] at hremark
        simp only [ofDelimiter]
        rw [ofLine_restOfLine hdirective]
        exact .inl (isPassed_remark done.length u)
    | commentOpen =>
        simp only [ofDelimiter]
        split
        · rename_i hclose
          exact .inl (isPassed_ofBlock hclose (useOf_ne_directive_of_inert htext hclose h))
        · rename_i hclose
          exact .inr ⟨u, rfl, hclose, rfl⟩
  · rename_i htake
    exact .inl ⟨trivial, Scan.meets_none_cons htake⟩

end Lexeme

end SqlTemplate
