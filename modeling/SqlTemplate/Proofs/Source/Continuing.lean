import SqlTemplate.Proofs.Source.Closing
import SqlTemplate.Proofs.Source.Plain

/-!
# Texts that go on

A lexeme is cut off as soon as the text shows where it ends, and what follows later does not change
it. The exception is a literal that was closed by the first quote of a pair because no other quote
was left: where the text goes on, the pair may belong to the literal. The second quote of the pair
then opens a literal that is never closed (`OpensLiteral`), so this does not happen in a text whose
last lexeme is a line end, and the lexemes of such a text stay as they are (`lexemes_append_of_lineEnd`).
-/

namespace SqlTemplate

/-- A text that begins with a literal that is never closed. -/
def OpensLiteral (t : Text) : Prop := ∃ (q : Quote) (u : Text), t = q.char :: u ∧ q.char ∉ u

section Pieces

variable {c : Char} {t body rest s r : Text} {d : Delimiter}

theorem Delimiter.take?_append_of_ne_nil (ht : t ≠ []) (more : Text) :
    take? (c :: t ++ more) = (take? (c :: t)).map fun (d, r) => (d, r ++ more) := by
  obtain ⟨x, t, rfl⟩ := List.exists_cons_of_ne_nil ht
  rw [List.cons_append, take?.eq_def (c :: x :: t)]
  split
  case h_9 u hu heq =>
    obtain ⟨rfl, rfl⟩ := List.cons.inj heq
    have hx : x ≠ '\n' := fun hx => hu t (by rw [hx])
    simp [take?, hx]
  all_goals simp_all [take?]

theorem restOfLine_append {u after : Text} (hu : ∀ c ∈ u, isLineBreak c = false)
    (hafter : ∀ c ∈ after.head?, isLineBreak c = true) : restOfLine (u ++ after) = (u, after) := by
  have hpos : ∀ c ∈ u, (!isLineBreak c) = true := fun c hc => by rw [hu c hc]; rfl
  rw [restOfLine, List.takeWhile_append_of_pos hpos, List.dropWhile_append_of_pos hpos]
  cases after with
  | nil => simp
  | cons x after => simp [hafter x rfl]

theorem Quoted.closing?_append {q : Quote} (h : closing? q.char t = some (body, rest))
    (hrest : rest ≠ []) (hopen : ¬ OpensLiteral rest) (more : Text) :
    closing? q.char (t ++ more) = some (body, rest ++ more) := by
  fun_induction closing? q.char t generalizing body with
  | case1 => cases h
  | case2 =>
    cases h
    exact absurd rfl hrest
  | case3 => cases h
  | case4 t b r hb ih =>
    cases h
    simp [closing?, ih hb]
  | case5 t hb =>
    cases h
    exact absurd ⟨q, t, rfl, closing?_eq_none_iff.1 hb⟩ hopen
  | case6 d t hd =>
    cases h
    simp [closing?, hd]
  | case7 c d t hc ih =>
    obtain ⟨⟨b, r⟩, hb, he⟩ := Option.map_eq_some_iff.1 h
    cases he
    have hmore := ih hb
    rw [List.cons_append] at hmore
    simp [closing?, hc, hmore]

theorem Quoted.take?_append (h : take? t = some (s, r)) (hrest : r ≠ [])
    (hopen : ¬ OpensLiteral r) (more : Text) : take? (t ++ more) = some (s, r ++ more) := by
  cases t with
  | nil => cases h
  | cons c t =>
    unfold take? at h
    cases hq : Quote.ofChar? c with
    | none => simp [hq] at h
    | some q =>
      simp only [hq] at h
      obtain ⟨⟨b, u⟩, hb, he⟩ := Option.map_eq_some_iff.1 h
      cases he
      simp [take?, hq, closing?_append hb hrest hopen]

theorem Comment.close?_append {depth : Nat} (h : close? depth t = some (body, rest)) (more : Text) :
    close? depth (t ++ more) = some (body, rest ++ more) := by
  fun_induction close? depth t generalizing body with
  | case1 => cases h
  | case2 t =>
    cases h
    rfl
  | case3 depth t ih =>
    obtain ⟨⟨b, r⟩, hb, he⟩ := Option.map_eq_some_iff.1 h
    cases he
    simp [close?, ih hb]
  | case4 depth t ih =>
    obtain ⟨⟨b, r⟩, hb, he⟩ := Option.map_eq_some_iff.1 h
    cases he
    simp [close?, ih hb]
  | case5 depth c t _ _ _ ih =>
    obtain ⟨⟨b, r⟩, hb, he⟩ := Option.map_eq_some_iff.1 h
    cases he
    rename_i hclose hclosing hopening
    have hother := isOther_of_forall hclose hclosing hopening
    obtain ⟨x, t, rfl⟩ : ∃ x u, t = x :: u := by
      refine List.exists_cons_of_ne_nil ?_
      rintro rfl
      cases hb
    have hmore : IsOther (c :: (x :: t ++ more)) :=
      ⟨fun v heq => hother.1 t (by simp_all), fun v heq => hother.2 t (by simp_all)⟩
    rw [List.cons_append, close?_cons hmore, ih hb]
    rfl

theorem Sample.balanced?_append {depth : Int} {quote : Option Char}
    (h : balanced? depth quote t = some (s, r)) (more : Text) :
    balanced? depth quote (t ++ more) = some (s, r ++ more) := by
  fun_induction balanced? depth quote t generalizing s r
  all_goals first
    | (cases h; done)
    | (obtain ⟨⟨b, u⟩, hb, he⟩ := Option.map_eq_some_iff.1 h
       cases he
       rename_i ih
       have hmore := ih hb
       rw [List.cons_append, balanced?.eq_def]
       simp_all)
    | (cases h
       rw [List.cons_append, balanced?.eq_def]
       simp_all)

theorem Sample.bare_append (h : (bare t).2 ≠ []) (more : Text) :
    bare (t ++ more) = ((bare t).1, (bare t).2 ++ more) := by
  fun_induction bare t with
  | case1 => exact absurd rfl h
  | case2 c t hc s r hr ih =>
    have hhead : (t ++ more).head? = t.head? := by
      cases t with
      | nil =>
        cases hr
        exact absurd rfl h
      | cons x t => rfl
    have hmore := ih (by rwa [hr])
    rw [List.cons_append, bare, hhead, if_pos hc, hmore, hr]
  | case3 c t hc =>
    cases t with
    | nil =>
      have hmore : bare (c :: more) = ([], c :: more) := by
        rw [bare, if_neg]
        simp_all
      exact hmore
    | cons x t =>
      have hmore : bare (c :: (x :: t ++ more)) = ([], c :: (x :: t ++ more)) := by
        rw [bare, if_neg]
        exact hc
      exact hmore

/-- A character of a quote begins a literal or one that is never closed, and no other sample. -/
theorem Sample.simple?_quote_cons (q : Quote) (t : Text) :
    simple? (q.char :: t) = Quoted.take? (q.char :: t) := by
  have hbare : bare (q.char :: t) = ([], q.char :: t) := by
    cases q <;> rw [bare, if_neg] <;> simp [Quote.char, isBare]
  unfold simple?
  cases Quoted.take? (q.char :: t) with
  | some found => rfl
  | none => rw [hbare]

theorem Sample.simple?_of_ofChar?_eq_none (h : Quote.ofChar? c = none) (t : Text) :
    simple? (c :: t) = if (bare (c :: t)).1 = [] then none else some (bare (c :: t)) := by
  simp only [simple?, Quoted.take?, h]
  rcases bare (c :: t) with ⟨_ | ⟨x, s⟩, r⟩ <;> rfl

/-- The sample that a text begins with, if the text goes on. -/
theorem Sample.simple?_append (h : simple? t = some (s, r)) (hrest : r ≠ [])
    (hopen : ¬ OpensLiteral r) (more : Text) : simple? (t ++ more) = some (s, r ++ more) := by
  cases t with
  | nil => cases h
  | cons c t =>
    cases hq : Quote.ofChar? c with
    | some q =>
      obtain rfl := Quote.char_eq_of_ofChar? hq
      rw [simple?_quote_cons] at h
      rw [List.cons_append, simple?_quote_cons]
      exact Quoted.take?_append h hrest hopen more
    | none =>
      rw [simple?_of_ofChar?_eq_none hq] at h
      split at h
      · cases h
      · rename_i hne
        have hbare : bare (c :: t) = (s, r) := Option.some.inj h
        have hmore := bare_append (by rwa [hbare]) more
        rw [hbare] at hne hmore
        rw [List.cons_append, simple?_of_ofChar?_eq_none hq, ← List.cons_append, hmore, if_neg hne]

/-- Where a text begins with no sample, it does not if it goes on, either. -/
theorem Sample.simple?_append_eq_none (h : simple? t = none) (ht : t ≠ [])
    (hopen : ¬ OpensLiteral t) (more : Text) : simple? (t ++ more) = none := by
  obtain ⟨c, t, rfl⟩ := List.exists_cons_of_ne_nil ht
  cases hq : Quote.ofChar? c with
  | some q =>
    obtain rfl := Quote.char_eq_of_ofChar? hq
    rw [simple?_quote_cons] at h
    simp only [Quoted.take?, Quote.ofChar?_char, Option.map_eq_none_iff,
      Quoted.closing?_eq_none_iff] at h
    exact absurd ⟨q, t, rfl, h⟩ hopen
  | none =>
    rw [simple?_of_ofChar?_eq_none hq] at h
    have hnone : (bare (c :: t)).1 = [] := by
      by_cases hne : (bare (c :: t)).1 = []
      · exact hne
      · rw [if_neg hne] at h
        cases h
    have hrest : (bare (c :: t)).2 ≠ [] := by
      have happend := append_bare (c :: t)
      rw [hnone, List.nil_append] at happend
      rw [happend]
      exact List.cons_ne_nil _ _
    rw [List.cons_append, simple?_of_ofChar?_eq_none hq, ← List.cons_append, bare_append hrest,
      if_pos hnone]

theorem Sample.read_append_of_taken (h : read t = .taken s r) (hrest : r ≠ [])
    (hopen : ¬ OpensLiteral r) (more : Text) : read (t ++ more) = .taken s (r ++ more) := by
  cases t with
  | nil => cases h
  | cons c t =>
    unfold read at h ⊢
    rw [List.cons_append, List.head?_cons]
    rw [List.head?_cons] at h
    split at h
    · rename_i hc
      rw [if_pos hc, ← List.cons_append]
      split at h
      · rename_i found hfound
        cases h
        rw [balanced?_append hfound more]
      · cases h
    · rename_i hc
      rw [if_neg hc, ← List.cons_append]
      split at h
      · rename_i found hfound
        cases h
        rw [simple?_append hfound hrest hopen more]
      · cases h

theorem Sample.read_append_of_absent (h : read t = .absent) (ht : t ≠ [])
    (hopen : ¬ OpensLiteral t) (more : Text) : read (t ++ more) = .absent := by
  obtain ⟨c, t, rfl⟩ := List.exists_cons_of_ne_nil ht
  unfold read at h ⊢
  rw [List.cons_append, List.head?_cons]
  rw [List.head?_cons] at h
  split at h
  · split at h <;> cases h
  · rename_i hc
    rw [if_neg hc, ← List.cons_append]
    split at h
    · cases h
    · rename_i hnone
      rw [simple?_append_eq_none hnone ht hopen more]

end Pieces

namespace Lexeme

variable {c : Char} {t body rest : Text}

theorem ofBlock_append (hrest : (ofBlock body t).2 ≠ [])
    (hopen : ¬ OpensLiteral (ofBlock body t).2) (more : Text) :
    ofBlock body (t ++ more) = ((ofBlock body t).1, (ofBlock body t).2 ++ more) := by
  cases huse : useOf body with
  | nothing => simp only [ofBlock, huse]
  | hint => simp only [ofBlock, huse]
  | directive =>
    cases hread : Sample.read t with
    | absent =>
      simp only [ofBlock, huse, hread] at hrest hopen
      simp only [ofBlock, huse, hread, Sample.read_append_of_absent hread hrest hopen more]
    | taken s r =>
      simp only [ofBlock, huse, hread] at hrest hopen
      simp only [ofBlock, huse, hread, Sample.read_append_of_taken hread hrest hopen more]
    | unclosed =>
      simp only [ofBlock, huse, hread] at hrest
      exact absurd rfl hrest

theorem ofDelimiter_append (d : Delimiter) (hrest : (ofDelimiter d t).2 ≠ [])
    (hopen : ¬ OpensLiteral (ofDelimiter d t).2) (more : Text) :
    ofDelimiter d (t ++ more) = ((ofDelimiter d t).1, (ofDelimiter d t).2 ++ more) := by
  cases d with
  | lineEnd e => rfl
  | opening => rfl
  | closing => rfl
  | commentClose => rfl
  | quote q =>
    cases hq : Quoted.closing? q.char t with
    | none =>
      simp only [ofDelimiter, hq] at hrest
      exact absurd rfl hrest
    | some found =>
      obtain ⟨body, rest⟩ := found
      simp only [ofDelimiter, hq] at hrest hopen
      simp only [ofDelimiter, hq, Quoted.closing?_append hq hrest hopen more]
  | dashes =>
    have hleft : t.dropWhile (fun x => !isLineBreak x) ≠ [] := hrest
    have hbody : (t.takeWhile fun x => !isLineBreak x).length ≠ t.length := by
      intro hlen
      have happend := congrArg List.length
        (List.takeWhile_append_dropWhile (p := fun x => !isLineBreak x) (l := t))
      rw [List.length_append, hlen] at happend
      exact hleft (List.length_eq_zero_iff.1 (by omega))
    simp only [ofDelimiter, restOfLine, List.takeWhile_append, List.dropWhile_append, if_neg hbody,
      List.isEmpty_iff, if_neg hleft]
  | commentOpen =>
    cases hclose : Comment.close? 0 t with
    | none =>
      simp only [ofDelimiter, hclose] at hrest
      exact absurd rfl hrest
    | some found =>
      obtain ⟨body, rest⟩ := found
      simp only [ofDelimiter, hclose] at hrest hopen
      simp only [ofDelimiter, hclose, Comment.close?_append hclose more,
        ofBlock_append hrest hopen more]

/-- The first lexeme of a text that goes on, where something is left behind it. -/
theorem first_append (hrest : (first c t).2 ≠ []) (hopen : ¬ OpensLiteral (first c t).2)
    (more : Text) : first c (t ++ more) = ((first c t).1, (first c t).2 ++ more) := by
  have ht : t ≠ [] := by
    intro ht
    have hlen := length_first_lt c t
    have hpos := List.length_pos_iff.2 hrest
    rw [ht, List.length_singleton] at hlen
    rw [ht] at hpos
    omega
  have htake := Delimiter.take?_append_of_ne_nil (c := c) ht more
  rw [List.cons_append] at htake
  cases hd : Delimiter.take? (c :: t) with
  | none =>
    simp only [hd, Option.map_none] at htake
    simp only [first, hd, htake]
  | some found =>
    obtain ⟨d, r⟩ := found
    simp only [hd, Option.map_some] at htake
    simp only [first, hd] at hrest hopen
    simp only [first, hd, htake, ofDelimiter_append d hrest hopen more]

end Lexeme

/-- A literal that is never closed is the last lexeme. -/
theorem OpensLiteral.exists_lexemes {t : Text} (h : OpensLiteral t) :
    ∃ q rest, lexemes t = [.openQuote q rest] := by
  obtain ⟨q, u, rfl, hu⟩ := h
  refine ⟨q, u, ?_⟩
  have hclosing : Quoted.closing? q.char u = none := Quoted.closing?_eq_none_iff.2 hu
  have htake : Delimiter.take? (q.char :: u) = some (.quote q, u) := by cases q <;> rfl
  rw [lexemes_cons]
  simp only [Lexeme.first, htake, Lexeme.ofDelimiter, hclosing, lexemes_nil]

/-- The lexemes of a text that ends with a line end, outside of comments, literals and samples, stay
the same where the text goes on, unless the line end does. -/
theorem lexemes_append_of_lineEnd {before more : Text} {e : LineEnd}
    (h : (lexemes before).getLast? = some (.lineEnd e)) (hmore : more.head? ≠ some '\n') :
    lexemes (before ++ more) = lexemes before ++ lexemes more := by
  fun_induction lexemes before with
  | case1 => cases h
  | case2 c t ih =>
    by_cases hrest : (Lexeme.first c t).2 = []
    · have hfirst : (Lexeme.first c t).1 = .lineEnd e := by simpa [hrest] using h
      have hsource := Lexeme.source_first c t
      rw [hrest, hfirst, List.append_nil] at hsource
      rw [← hsource, hrest, hfirst, lexemes_nil]
      exact lexemes_lineEnd e fun _ => hmore
    · have hlast : (lexemes (Lexeme.first c t).2).getLast? = some (.lineEnd e) := by
        obtain ⟨x, u, hxu⟩ := List.exists_cons_of_ne_nil hrest
        rw [hxu] at h ⊢
        simpa [lexemes_cons, List.getLast?_cons_cons] using h
      have hopen : ¬ OpensLiteral (Lexeme.first c t).2 := by
        intro hopen
        obtain ⟨q, rest, hlexemes⟩ := hopen.exists_lexemes
        rw [hlexemes] at hlast
        cases hlast
      rw [List.cons_append, lexemes_cons, Lexeme.first_append hrest hopen, ih hlast]
      rfl

end SqlTemplate
