import SqlTemplate.Proofs.Source.Pairing
import SqlTemplate.Proofs.Template.Agreement

/-!
# The end of a parenthesis

A parenthesis is closed in two places of the program: the search for the end of a sample runs over the
characters and counts, and the descent reads the lines between the parentheses and calls itself. They
part ways where a comment begins, since only the descent knows of comments, and a literal may be closed
in the middle of a pair of quotes for the descent alone. Where no comment begins or ends behind the
parenthesis they agree (`Descent.balancedEnd?_iff_span`): both stop at the same place, or the
sample has no end and the descent has found a parenthesis or a literal that is never closed.
-/

namespace SqlTemplate

/-- A text in which no comment begins and none ends. -/
def Commentless (t : Text) : Prop :=
  ¬['-', '-'] <:+: t ∧ ¬['/', '*'] <:+: t ∧ ¬['*', '/'] <:+: t

instance : DecidablePred Commentless := fun _ => inferInstanceAs (Decidable (_ ∧ _ ∧ _))

/-- What is wrong is a parenthesis or a literal that is not closed, or a parenthesis that is closed and
was not opened. -/
def Flaw.IsImbalance : Flaw → Prop
  | strayParenthesis | openParenthesis | openQuote _ => True
  | _ => False

variable {t u v rest before : Text}

theorem Commentless.of_append (h : Commentless (u ++ v)) : Commentless v := by
  have hv : v <:+: u ++ v := (List.suffix_append u v).isInfix
  exact ⟨fun hi => h.1 (hi.trans hv), fun hi => h.2.1 (hi.trans hv), fun hi => h.2.2 (hi.trans hv)⟩

/-- No delimiter of a text without comments is one of comments. -/
theorem Delimiter.First.ne_of_commentless {d : Delimiter} (hd : d.First u rest t)
    (h : Commentless t) : d ≠ .dashes ∧ d ≠ .commentOpen ∧ d ≠ .commentClose := by
  have hinfix : d.chars <:+: t := ⟨u, rest, by rw [hd.text, List.append_assoc]⟩
  refine ⟨?_, ?_, ?_⟩
  · rintro rfl
    exact h.1 hinfix
  · rintro rfl
    exact h.2.1 hinfix
  · rintro rfl
    exact h.2.2 hinfix

namespace Sample

variable {depth : Int}

/-- The place behind the parenthesis that closes the one at `pos`. -/
def balancedEnd? (text : Text) (pos : Nat) : Option Nat :=
  (balanced? 0 none (text.drop pos)).map fun (span, _) => pos + span.length

theorem balanced?_append_of_free (h : Pattern.delimiter.Free u v) :
    balanced? depth none (u ++ v) = behind u (balanced? depth none v) := by
  induction u with
  | nil =>
    cases hv : balanced? depth none v <;> simp [behind, hv]
  | cons c u ih =>
    have htake : Delimiter.take? (c :: (u ++ v)) = none :=
      h.take?_eq_none [] (c :: u) rfl (List.cons_ne_nil _ _)
    have hfree : Pattern.delimiter.Free u v := fun w x hwx hx => h (c :: w) x (by rw [hwx]; rfl) hx
    have hquote : Quote.ofChar? c = none := by
      cases hc : Quote.ofChar? c with
      | none => rfl
      | some q =>
        rw [← Quote.char_eq_of_ofChar? hc] at htake
        cases q <;> cases htake
    have hopening : c ≠ '(' := by
      rintro rfl
      cases htake
    have hclosing : c ≠ ')' := by
      rintro rfl
      cases htake
    rw [List.cons_append, balanced?_cons_of_ne hquote hopening hclosing, ih hfree, behind_behind]
    rfl

theorem balanced?_lineEnd (e : LineEnd) (t : Text) :
    balanced? depth none (e.chars ++ t) = behind e.chars (balanced? depth none t) := by
  cases e with
  | crlf =>
    have hr : balanced? depth none ('\r' :: '\n' :: t) =
        behind ['\r'] (balanced? depth none ('\n' :: t)) := rfl
    have hn : balanced? depth none ('\n' :: t) = behind ['\n'] (balanced? depth none t) := rfl
    exact hr.trans (by rw [hn, behind_behind]; rfl)
  | cr => rfl
  | lf => rfl

end Sample

namespace Descent

open Sample

variable {registry : Registry} {resource : Option Text} {c : Cursor} {line opened : Nat}

/-- Reads the lines of the span whose parenthesis stands right before the cursor. -/
def span (registry : Registry) (resource : Option Text) (opened : Nat) (c : Cursor) :
    Attempt FormatError (List Line × Cursor) :=
  lines registry resource (some opened) [] (Draft.start c.line.toNat) c.remember

/-- What is known of reading the lines of a span up to its end, with the text `t` behind the cursor:
the cursor stops where the search for the end of a sample does, or both fail. -/
def Closes (before t : Text) (a : Attempt FormatError (List Line × Cursor)) : Prop :=
  a.Ends
    (fun p => (∀ l ∈ p.1, l.block? = none) ∧ ∃ s line rest, balanced? 1 none t = some (s, rest) ∧
      p.2.Ready (before ++ s) line rest)
    (fun e => balanced? 1 none t = none ∧ e.flaw.IsImbalance)

/-- What is passed over on the way to the end of a span does not matter. -/
theorem Closes.of_behind {a : Attempt FormatError (List Line × Cursor)}
    (h : Closes (before ++ u) v a) (ht : balanced? 1 none t = behind u (balanced? 1 none v)) :
    Closes before t a := by
  refine h.mono ?_ ?_
  · rintro p ⟨hflat, s, line, rest, hs, hready⟩
    refine ⟨hflat, u ++ s, line, rest, by rw [ht, hs]; rfl, ?_⟩
    rwa [← List.append_assoc]
  · rintro e ⟨hnone, he⟩
    exact ⟨by rw [ht, hnone]; rfl, he⟩

/-- The lines of every span are read to its end where less than `n` characters are left. -/
def ClosesBelow (registry : Registry) (resource : Option Text) (n : Nat) : Prop :=
  ∀ (opened : Nat) (finished : List Line) (d : Draft) (c : Cursor) (before t : Text) (line : Nat),
    t.length < n → c.Ready before line t → Commentless t → (∀ l ∈ finished, l.block? = none) →
      Closes before t (lines registry resource (some opened) finished d c)

section Steps

variable {finished : List Line} {d : Draft} (ih : ClosesBelow registry resource t.length)
  (ht : Commentless t) (hflat : ∀ l ∈ finished, l.block? = none)

include ht in
theorem commentless_of_first {x : Delimiter} (hd : x.First u rest t) : Commentless rest := by
  rw [hd.text] at ht
  exact ht.of_append.of_append

include ih ht hflat in
theorem closes_quoted {q : Quote} (hd : (Delimiter.quote q).First u rest t)
    (h : c.Ready (before ++ (u ++ [q.char])) line rest) :
    Closes before t (quoted resource q d c >>= fun p =>
      lines registry resource (some opened) finished p.1 p.2) := by
  have hrest := commentless_of_first ht hd
  have hfound : balanced? 1 none t = behind u (balanced? 1 none (q.char :: rest)) := by
    rw [hd.text, balanced?_append_of_free hd.free]
    rfl
  rw [quoted]
  cases hclosing : Quoted.closing? q.char rest with
  | none =>
    have htake : (Pattern.literal q).take? rest = none := by
      rw [Pattern.take?, hclosing]
      rfl
    rw [h.toAt.consume_eq_none htake]
    refine ⟨?_, trivial⟩
    rw [hfound, balanced?_eq_none_of_closing?_eq_none hclosing]
    rfl
  | some found =>
    obtain ⟨body, rest'⟩ := found
    have hsplit := Quoted.append_of_closing? hclosing
    have htake : (Pattern.literal q).take? (body ++ rest') = some ⟨body, []⟩ := by
      rw [← hsplit, Pattern.take?, hclosing]
      rfl
    rw [hsplit] at h hrest
    obtain ⟨next, hconsume, hnext, hat⟩ := h.toAt.consume_eq (x := ⟨body, []⟩) htake
    have hlt : rest'.length < t.length := by
      have hlength := hd.length_lt
      rw [hsplit, List.length_append] at hlength
      omega
    have hbehind : balanced? 1 none t = behind (u ++ q.char :: body) (balanced? 1 none rest') := by
      rw [hfound, balanced?_of_closing? hclosing, behind_behind]
    have hlines := ih opened finished (d.write (q.char :: body)) next.remember _ rest' _ hlt
      (hat.ready (hnext.trans h.unexhausted)) hrest.of_append hflat
    rw [hconsume]
    refine Closes.of_behind ?_ hbehind
    simpa using hlines

include ih ht hflat in
/-- Behind the end of an inner span the outer one goes on. -/
theorem closes_opening (hd : Delimiter.opening.First u rest t)
    (h : c.Ready (before ++ (u ++ ['('])) line rest) :
    Closes before t (do
      let (inner, c) ← lines registry resource (some line) [] (Draft.start line) c
      let d ← enclosed inner d
      lines registry resource (some opened) finished d c) := by
  have hrest := commentless_of_first ht hd
  have hfound : balanced? 1 none t = behind (u ++ ['(']) ((balanced? 1 none rest).bind
      fun (s, r) => behind s (balanced? 1 none r)) := by
    rw [hd.text, balanced?_append_of_free hd.free, ← behind_behind]
    exact congrArg (fun found => behind u (behind ['('] found))
      (balanced?_add (m := 1) (k := 1) (by decide) (by decide) none rest)
  have hinner := ih line [] (Draft.start line) c _ rest line hd.length_lt h hrest
    (List.forall_mem_nil _)
  refine (hinner.mono (fun _ hx => hx) ?_).bind ?_
  · rintro e ⟨hnone, he⟩
    exact ⟨by rw [hfound, hnone]; rfl, he⟩
  · rintro ⟨inner, last⟩ ⟨hinnerFlat, s, line', rest', hs, hlast⟩
    have hsplit := append_of_balanced? hs
    have hlt : rest'.length < t.length := by
      have hlength := hd.length_lt
      rw [hsplit, List.length_append] at hlength
      omega
    have hbehind : balanced? 1 none t = behind (u ++ ['('] ++ s) (balanced? 1 none rest') := by
      rw [hfound, hs, Option.bind_some, behind_behind]
    have henclosed : enclosed inner d = pure (Span.enclose inner ⟨0, [], d⟩).draft :=
      enclosed_eq hinnerFlat ⟨0, [], d⟩
    rw [hsplit] at hrest
    have hlines := ih opened finished (Span.enclose inner ⟨0, [], d⟩).draft last _ rest' line' hlt
      hlast hrest.of_append hflat
    simp only [henclosed, pure_bind]
    refine Closes.of_behind ?_ hbehind
    simpa using hlines

include hflat in
theorem closes_closing (hd : Delimiter.closing.First u rest t)
    (h : c.Ready (before ++ (u ++ [')'])) line rest) :
    Closes before t (pure (finished ++ [d.finish line], c)) := by
  refine ⟨?_, u ++ [')'], line, rest, ?_, h⟩
  · rw [List.forall_mem_append]
    exact ⟨hflat, List.forall_mem_singleton.2 rfl⟩
  · rw [hd.text, balanced?_append_of_free hd.free]
    rfl

include ih ht hflat in
theorem closes_lineEnd {e : LineEnd} (hd : (Delimiter.lineEnd e).First u rest t)
    (h : c.Ready (before ++ (u ++ e.chars)) (line + 1) rest) :
    Closes before t (lines registry resource (some opened) (finished ++ [d.finish line])
      (Draft.start (line + 1)) c) := by
  have hbehind : balanced? 1 none t = behind (u ++ e.chars) (balanced? 1 none rest) := by
    rw [hd.text, balanced?_append_of_free hd.free, ← behind_behind]
    exact congrArg (behind u) (balanced?_lineEnd e rest)
  refine Closes.of_behind ?_ hbehind
  refine ih opened _ _ c _ rest _ hd.length_lt h (commentless_of_first ht hd) ?_
  rw [List.forall_mem_append]
  exact ⟨hflat, List.forall_mem_singleton.2 rfl⟩

end Steps

/-- The lines of a span are read to where the search for the end of a sample stops. -/
theorem closes_lines {finished : List Line} {d : Draft} (h : c.Ready before line t)
    (ht : Commentless t) (hflat : ∀ l ∈ finished, l.block? = none) :
    Closes before t (lines registry resource (some opened) finished d c) := by
  induction hn : t.length using Nat.strongRecOn
    generalizing t before line opened finished d c with
  | ind n ih =>
      subst hn
      have hbelow : ClosesBelow registry resource t.length :=
        fun _ _ _ _ _ _ _ hlt hready ht hfinished => ih _ hlt hready ht hfinished rfl
      rw [lines.eq_1]
      rcases h.find_delimiter with ⟨next, found, hfind, htext, htaken, hat, hfree⟩ |
        ⟨u, x, rest, next, found, hx, hfind, htext, htaken, hready⟩
      · rw [hfind]
        simp only [htaken, htext]
        rw [hat.toNat_line, if_neg (by decide), if_neg (by decide), if_neg (by decide),
          if_neg (by decide), if_neg (by decide), if_neg (by decide), if_neg (by decide),
          if_pos trivial]
        refine ⟨?_, trivial⟩
        have hnone : balanced? 1 none (t ++ []) = behind t none := balanced?_append_of_free hfree
        rw [List.append_nil] at hnone
        rw [hnone]
        rfl
      · obtain ⟨hdashes, hopen, hclose⟩ := hx.ne_of_commentless ht
        rw [hfind]
        simp only [htaken, htext]
        rw [hready.toNat_line]
        cases x with
        | commentClose => exact absurd rfl hclose
        | dashes => exact absurd rfl hdashes
        | commentOpen => exact absurd rfl hopen
        | closing =>
            rw [if_neg (by decide), if_pos rfl]
            exact closes_closing hflat hx hready
        | opening =>
            rw [if_neg (by decide), if_neg (by decide), if_neg (by decide), if_neg (by decide),
              if_pos rfl]
            exact closes_opening hbelow ht hflat hx (hready.toAt.ready hready.unexhausted)
        | quote q =>
            cases q with
            | single =>
                rw [if_neg (by decide), if_neg (by decide), if_neg (by decide), if_neg (by decide),
                  if_neg (by decide), if_pos (by decide)]
                exact closes_quoted hbelow ht hflat hx hready
            | double =>
                rw [if_neg (by decide), if_neg (by decide), if_neg (by decide), if_neg (by decide),
                  if_neg (by decide), if_neg (by decide), if_pos (by decide)]
                exact closes_quoted hbelow ht hflat hx hready
        | lineEnd e =>
            have hone : lineEnds (Delimiter.lineEnd e).chars = 1 := by cases e <;> rfl
            rw [hone] at hready ⊢
            rw [if_neg (by cases e <;> decide), if_neg (by cases e <;> decide),
              if_neg (by cases e <;> decide), if_neg (by cases e <;> decide),
              if_neg (by cases e <;> decide), if_neg (by cases e <;> decide),
              if_neg (by cases e <;> decide), if_neg (by cases e <;> decide)]
            exact closes_lineEnd hbelow ht hflat hx hready

/-- A search and an attempt say the same if each result of the attempt is what the search finds, and the
search finds nothing whenever the attempt has a flaw. -/
theorem found_iff_of_ends {α β : Type} {a : Attempt FormatError α} {found : Option β} {stop : α → β}
    {E : FormatError → Prop}
    (h : a.Ends (fun x => found = some (stop x)) (fun e => found = none ∧ E e)) :
    (∀ b, found = some b ↔ ∃ x, a = pure x ∧ stop x = b) ∧
      (found = none ↔ ∃ e, a = .flaw e ∧ E e) := by
  rcases Attempt.ends_iff.1 h with ⟨x, rfl, hfound⟩ | ⟨e, rfl, hnone, he⟩
  · rw [hfound]
    refine ⟨fun b => ⟨fun hb => ⟨x, rfl, Option.some.inj hb⟩, ?_⟩, ⟨by simp, ?_⟩⟩
    · rintro ⟨y, hy, rfl⟩
      rw [Except.ok.inj (Option.some.inj hy)]
    · rintro ⟨e, hflaw, -⟩
      cases hflaw
  · rw [hnone]
    refine ⟨fun b => ⟨by simp, ?_⟩, ⟨fun _ => ⟨e, rfl, he⟩, fun _ => rfl⟩⟩
    rintro ⟨y, hy, -⟩
    cases hy

end Descent

theorem Sample.balancedEnd?_eq {text : Text} {pos : Nat} (hpos : text[pos]? = some '(') :
    balancedEnd? text pos = (balanced? 1 none (text.drop (pos + 1))).map
      fun (s, _) => (text.take (pos + 1) ++ s).length := by
  obtain ⟨hlt, hchar⟩ := List.getElem?_eq_some_iff.1 hpos
  have htext : text.drop pos = '(' :: text.drop (pos + 1) := by
    rw [List.drop_eq_getElem_cons hlt, hchar]
  have hlength : (text.take (pos + 1)).length = pos + 1 := List.length_take_of_le hlt
  rw [balancedEnd?, htext, balanced?_opening_cons, behind, Option.map_map]
  congr 1
  funext found
  simp only [Function.comp_apply, List.length_append, hlength, List.length_cons, List.length_nil]
  omega

/-- The search for the end of a sample closes the parenthesis that the descent closes. Let a parenthesis
be opened at `pos`, and no comment begin or end behind it. Then the search stops at `stop` just when
reading the lines of the span from right behind the parenthesis on ends with the cursor at `stop`, and it
finds no end just when a parenthesis or a literal is reported that is not closed. -/
theorem Descent.balancedEnd?_iff_span (registry : Registry) (resource : Option Text) {text : Text}
    {pos : Nat} (hpos : text[pos]? = some '(') (hcomments : Commentless (text.drop (pos + 1)))
    (opened : Nat) {c : Cursor} {line : Nat}
    (hc : c.At (text.take (pos + 1)) line (text.drop (pos + 1))) (hexhausted : c.exhausted = false) :
    (∀ stop, Sample.balancedEnd? text pos = some stop ↔
      ∃ found : List Line × Cursor, span registry resource opened c = pure found ∧
        found.2.pos = stop) ∧
    (Sample.balancedEnd? text pos = none ↔
      ∃ e, span registry resource opened c = .flaw e ∧ e.flaw.IsImbalance) := by
  have hspan : Closes (text.take (pos + 1)) (text.drop (pos + 1)) (span registry resource opened c) :=
    closes_lines (hc.ready hexhausted) hcomments (List.forall_mem_nil _)
  refine found_iff_of_ends (hspan.mono ?_ ?_)
  · rintro found ⟨-, s, line', rest, hs, hready⟩
    rw [Sample.balancedEnd?_eq hpos, hs, hready.pos]
    rfl
  · rintro e ⟨hnone, he⟩
    exact ⟨by rw [Sample.balancedEnd?_eq hpos, hnone]; rfl, he⟩

/-- Two lines of text with a parenthesis in which a literal holds a parenthesis and a pair of quotes, and
in which another span begins on the first line. -/
theorem Descent.balancedEnd?_iff_span_twoLines :
    Sample.balancedEnd? "IN ('it''s (', (\r\n1)) x".toList 3 = some 21 ∧
      ∃ found : List Line × Cursor,
        span .standard none 1 ⟨"IN ('it''s (', (\r\n1)) x".toList, 4, 0, 1, none, false⟩ = pure found ∧
          found.2.pos = 21 := by
  have hfound : Sample.balancedEnd? "IN ('it''s (', (\r\n1)) x".toList 3 = some 21 := by
    decide +kernel
  refine ⟨hfound, ?_⟩
  have hpos : "IN ('it''s (', (\r\n1)) x".toList[3]? = some '(' := by decide +kernel
  have hat : Cursor.At ⟨"IN ('it''s (', (\r\n1)) x".toList, 4, 0, 1, none, false⟩
      ("IN ('it''s (', (\r\n1)) x".toList.take 4) 1
      ("IN ('it''s (', (\r\n1)) x".toList.drop 4) :=
    ⟨(List.take_append_drop ..).symm, by decide +kernel, rfl⟩
  have hiff := balancedEnd?_iff_span .standard none hpos (by decide +kernel) 1 hat rfl
  exact (hiff.1 21).1 hfound

end SqlTemplate
