import SqlTemplate.Proofs.Source.Pairing
import SqlTemplate.Proofs.Template.Transcript

/-!
# Literals of accepted templates

Where a text is read, a quote may open a literal in three ways: in the text of the statement, in a sample,
and as a term of a directive. A `LiteralStart` is such a quote with the text behind it and with what is
left behind the literal that is taken there. The literals are taken by `Quoted.closing?`, which closes a
literal in the middle of a pair of quotes if it has to. In a text that is accepted as a template this
never happens, and a text with an opening quote that nothing closes strictly is not accepted
(`LiteralStart.paired_of_parse`).
-/

namespace SqlTemplate

/-- A quote that opens a literal where a text is read. -/
structure LiteralStart where
  quote : Quote
  /-- The text behind the quote. -/
  behind : Text
  /-- What follows the literal that is taken, if it is closed. -/
  rest : Option Text
deriving DecidableEq, Repr

namespace LiteralStart

/-- The literal ends with the first quote behind the opening one that is no part of a pair. -/
def Paired (s : LiteralStart) : Prop :=
  ∃ body rest, s.rest = some rest ∧ Quoted.pairedClosing? s.quote.char s.behind = some (body, rest)

/-- A start in a text that goes on. -/
def continued (more : Text) (s : LiteralStart) : LiteralStart :=
  { s with behind := s.behind ++ more, rest := s.rest.map (· ++ more) }

end LiteralStart

namespace Sample

/-- The quotes that the search for the end of a parenthesis takes for the beginning of a literal; `opened`
is the one whose literal is open where the text begins, with the text behind it. -/
def literalStartsFrom : Option (Quote × Text) → Text → List LiteralStart
  | none, [] => []
  | some (q, behind), [] => [⟨q, behind, none⟩]
  | none, c :: t =>
    match Quote.ofChar? c with
    | some q => literalStartsFrom (some (q, t)) t
    | none => literalStartsFrom none t
  | some (q, behind), c :: t =>
    if c = q.char then
      match t with
      | d :: u =>
        if d = q.char then literalStartsFrom (some (q, behind)) u
        else ⟨q, behind, some (d :: u)⟩ :: literalStartsFrom none (d :: u)
      | [] => [⟨q, behind, some []⟩]
    else literalStartsFrom (some (q, behind)) t

/-- The quotes that open literals in a sample. -/
def literalStarts : Text → List LiteralStart
  | [] => []
  | c :: t =>
    if c = '(' then literalStartsFrom none (c :: t)
    else
      match Quote.ofChar? c with
      | some q => [⟨q, t, some []⟩]
      | none => []

end Sample

namespace Lexeme

/-- The quotes outside of comments that open literals where a lexeme is read, with `rest` behind the
lexeme. -/
def literalStarts (rest : Text) : Lexeme → List LiteralStart
  | quoted q body => [⟨q, body ++ rest, some rest⟩]
  | openQuote q behind => [⟨q, behind, none⟩]
  | blockDirective _ (some sample) => (Sample.literalStarts sample).map (LiteralStart.continued rest)
  | openSample _ behind => Sample.literalStartsFrom none behind
  | _ => []

end Lexeme

/-- The quotes outside of comments that open literals where lexemes are read one after the other. -/
def literalStarts : List Lexeme → List LiteralStart
  | [] => []
  | l :: ls => l.literalStarts (ls.flatMap Lexeme.source) ++ literalStarts ls

/-- The quote that opens a literal where a token of the source of a directive is read. -/
def Placed.literalStart? (source : Text) (p : Placed) : Option LiteralStart :=
  match p.token with
  | .literal q _ => some ⟨q, source.drop (p.start + 1), some (source.drop p.stop)⟩
  | _ => none

/-- The quotes that open literals in the source of a directive. -/
def Directive.literalStarts (d : Directive) : List LiteralStart :=
  match tokens d.source with
  | .ok ps => ps.filterMap (Placed.literalStart? d.source)
  | .error _ => []

variable {t s rest body : Text}

/-- A literal that is taken ends strictly, unless a literal begins behind it that is never closed. -/
theorem Quoted.pairedClosing?_of_closing? {q : Quote} (h : closing? q.char t = some (body, rest))
    (hopen : ¬OpensLiteral rest) : pairedClosing? q.char t = some (body, rest) := by
  cases hpaired : pairedClosing? q.char t with
  | some p => exact (closing?_of_pairedClosing? hpaired).symm.trans h
  | none => exact absurd (opensLiteral_of_closing? hpaired h) hopen

/-! ### Samples -/

namespace Sample

theorem literalStartsFrom_some (q : Quote) (behind t : Text) :
    literalStartsFrom (some (q, behind)) t =
      match Quoted.pairedClosing? q.char t with
      | some (_, rest) => ⟨q, behind, some rest⟩ :: literalStartsFrom none rest
      | none => [⟨q, behind, none⟩] := by
  fun_induction Quoted.pairedClosing? q.char t with
  | case1 => rfl
  | case2 => simp [literalStartsFrom]
  | case3 c hc => simp [literalStartsFrom, hc]
  | case4 t ih =>
    simp only [literalStartsFrom, if_true, ih]
    cases Quoted.pairedClosing? q.char t <;> rfl
  | case5 d t hd => simp [literalStartsFrom, hd]
  | case6 c d t hc ih =>
    have hnext : literalStartsFrom (some (q, behind)) (c :: d :: t) =
        literalStartsFrom (some (q, behind)) (d :: t) := by
      rw [literalStartsFrom.eq_def]
      exact if_neg hc
    rw [hnext, ih]
    cases Quoted.pairedClosing? q.char (d :: t) <;> rfl

theorem literalStartsFrom_none_cons {c : Char} (h : Quote.ofChar? c = none) :
    literalStartsFrom none (c :: t) = literalStartsFrom none t := by
  rw [literalStartsFrom, h]

theorem literalStartsFrom_none_quote (q : Quote) (t : Text) :
    literalStartsFrom none (q.char :: t) = literalStartsFrom (some (q, t)) t := by
  rw [literalStartsFrom, Quote.ofChar?_char]

/-- In a closed parenthesis every literal ends strictly, whatever follows the parenthesis. -/
theorem paired_of_balanced? {depth : Int} (h : balanced? depth none t = some (s, rest)) :
    ∀ x ∈ literalStartsFrom none s, ∀ more, (x.continued more).Paired := by
  induction hn : t.length using Nat.strongRecOn generalizing t depth s rest with
  | ind n ih =>
    subst hn
    have htail : ∀ {c : Char} {u : Text} {depth : Int}, t = c :: u → Quote.ofChar? c = none →
        behind [c] (balanced? depth none u) = some (s, rest) →
        ∀ x ∈ literalStartsFrom none s, ∀ more, (x.continued more).Paired := by
      rintro c u depth rfl hquote hbehind
      obtain ⟨⟨s', r⟩, hs', he⟩ := Option.map_eq_some_iff.1 hbehind
      obtain ⟨rfl, rfl⟩ := Prod.mk.inj he
      rw [List.singleton_append, literalStartsFrom_none_cons hquote]
      exact ih u.length (by simp) hs' rfl
    cases t with
    | nil => cases h
    | cons c u =>
      cases hquote : Quote.ofChar? c with
      | none =>
        by_cases hopening : c = '('
        · subst hopening
          exact htail rfl hquote h
        · by_cases hclosing : c = ')'
          · subst hclosing
            have hclose : balanced? depth none (')' :: u) = if depth = 1 then some ([')'], u)
                else behind [')'] (balanced? (depth - 1) none u) := rfl
            rw [hclose] at h
            split at h
            · obtain ⟨rfl, -⟩ := Prod.mk.inj (Option.some.inj h)
              exact List.forall_mem_nil _
            · exact htail rfl hquote h
          · rw [balanced?_cons_of_ne hquote hopening hclosing] at h
            exact htail rfl hquote h
      | some q =>
        obtain rfl := Quote.char_eq_of_ofChar? hquote
        rw [balanced?_quote_cons] at h
        obtain ⟨⟨b, v⟩, hb, hv⟩ := Option.bind_eq_some_iff.1 h
        obtain ⟨⟨s', r⟩, hs', he⟩ := Option.map_eq_some_iff.1 hv
        obtain ⟨rfl, rfl⟩ := Prod.mk.inj he
        obtain ⟨hsplit, hbody, hhead⟩ := Quoted.pairedClosing?_eq_some_iff.1 hb
        have hv := append_of_balanced? hs'
        obtain ⟨-, hlast⟩ := isClosed_of_balanced? (by simp) hs'
        have hne : s' ≠ [] := by
          rintro rfl
          cases hlast
        have hpaired : ∀ more, Quoted.pairedClosing? q.char (b ++ s' ++ more) =
            some (b, s' ++ more) := by
          intro more
          refine Quoted.pairedClosing?_eq_some_iff.2 ⟨List.append_assoc .., hbody, ?_⟩
          rw [hv, List.head?_append_of_ne_nil _ hne] at hhead
          rwa [List.head?_append_of_ne_nil _ hne]
        have hinside : Quoted.pairedClosing? q.char (b ++ s') = some (b, s') := by
          simpa using hpaired []
        rw [List.cons_append, literalStartsFrom_none_quote, literalStartsFrom_some, hinside,
          List.forall_mem_cons]
        refine ⟨fun more => ⟨b, s' ++ more, rfl, hpaired more⟩, ?_⟩
        have hlt : v.length < (q.char :: u).length := by
          rw [hsplit, List.length_cons, List.length_append]
          omega
        exact ih v.length hlt hs' rfl

/-- No literal begins in an unquoted sample. -/
theorem literalStarts_bare (t : Text) : literalStarts (bare t).1 = [] := by
  cases hbare : (bare t).1 with
  | nil => rfl
  | cons c u =>
    have hc := isBare_of_mem_bare c (by rw [hbare]; exact List.mem_cons_self ..)
    have hopening : c ≠ '(' := by
      rintro rfl
      exact absurd hc (by decide)
    have hquote : Quote.ofChar? c = none := by
      cases hq : Quote.ofChar? c with
      | none => rfl
      | some q =>
        rw [← Quote.char_eq_of_ofChar? hq] at hc
        cases q <;> exact absurd hc (by decide)
    rw [literalStarts, if_neg hopening, hquote]

theorem paired_of_simple? (h : simple? t = some (s, rest)) (hopening : t.head? ≠ some '(')
    (hopen : ¬OpensLiteral rest) : ∀ x ∈ literalStarts s, (x.continued rest).Paired := by
  unfold simple? at h
  split at h
  · rename_i found htake
    obtain rfl := Option.some.inj h
    unfold Quoted.take? at htake
    split at htake
    · cases htake
    · rename_i c u
      split at htake
      · rename_i q hq
        obtain ⟨⟨b, r⟩, hb, he⟩ := Option.map_eq_some_iff.1 htake
        obtain ⟨rfl, rfl⟩ := Prod.mk.inj he
        have hpaired := Quoted.pairedClosing?_of_closing? hb hopen
        rw [Quoted.append_of_closing? hb] at hpaired
        have hc : c ≠ '(' := by simpa using hopening
        rw [literalStarts, if_neg hc, hq, List.forall_mem_singleton]
        exact ⟨b, r, rfl, hpaired⟩
      · cases htake
  · split at h
    · cases h
    · have hs : (bare t).1 = s := congrArg Prod.fst (Option.some.inj h)
      rw [← hs, literalStarts_bare]
      exact List.forall_mem_nil _

/-- The literals of a sample end strictly, unless a literal begins behind it that is never closed. -/
theorem paired_of_read (h : read t = .taken s rest) (hopen : ¬OpensLiteral rest) :
    ∀ x ∈ literalStarts s, (x.continued rest).Paired := by
  unfold read at h
  split at h
  · rename_i hopening
    split at h
    · rename_i hb
      obtain ⟨rfl, rfl⟩ := Reading.taken.inj h
      obtain ⟨u, rfl⟩ := List.head?_eq_some_iff.1 hopening
      obtain ⟨⟨s', r⟩, -, he⟩ := Option.map_eq_some_iff.1 ((balanced?_opening_cons).symm.trans hb)
      obtain ⟨rfl, rfl⟩ := Prod.mk.inj he
      exact fun x hx => paired_of_balanced? hb x hx _
    · cases h
  · rename_i hopening
    split at h
    · rename_i hsimple
      obtain ⟨rfl, rfl⟩ := Reading.taken.inj h
      exact paired_of_simple? hsimple hopening hopen
    · cases h

end Sample

/-! ### The text of the statement -/

namespace Lexeme

/-- The literals of a lexeme that is no flaw end strictly, unless a literal begins behind it that is never
closed. -/
theorem paired_first {c : Char} (hflaw : (first c t).1.IsFlawless)
    (hopen : ¬OpensLiteral (first c t).2) :
    ∀ x ∈ (first c t).1.literalStarts (first c t).2, x.Paired := by
  have hnone : ∀ {l : Lexeme} {r : Text}, l.literalStarts r = [] → ∀ x ∈ l.literalStarts r, x.Paired := by
    intro l r hl x hx
    rw [hl] at hx
    exact absurd hx List.not_mem_nil
  unfold first at hflaw hopen ⊢
  split
  · rename_i d u hd
    simp only [hd] at hflaw hopen
    cases d with
    | quote q =>
      simp only [ofDelimiter] at hflaw hopen ⊢
      split
      · rename_i b r hb
        simp only [hb] at hopen
        have hpaired := Quoted.pairedClosing?_of_closing? hb hopen
        rw [Quoted.append_of_closing? hb] at hpaired
        exact List.forall_mem_singleton.2 ⟨b, r, rfl, hpaired⟩
      · rename_i hb
        simp only [hb] at hflaw
        exact hflaw.elim
    | commentOpen =>
      simp only [ofDelimiter] at hflaw hopen ⊢
      split
      · rename_i b r hb
        simp only [hb] at hflaw hopen
        unfold ofBlock at hflaw hopen ⊢
        split
        · exact hnone rfl
        · exact hnone rfl
        · rename_i huse
          simp only [huse] at hflaw hopen
          split
          · exact hnone rfl
          · rename_i sample r' hread
            simp only [hread] at hopen
            intro x hx
            obtain ⟨y, hy, rfl⟩ := List.mem_map.1 hx
            exact Sample.paired_of_read hread hopen y hy
          · rename_i hread
            simp only [hread] at hflaw
            exact hflaw.elim
      · rename_i hb
        simp only [hb] at hflaw
        exact hflaw.elim
    | dashes =>
      simp only [ofDelimiter, ofLine]
      split <;> exact hnone rfl
    | _ => exact hnone rfl
  · exact hnone rfl

end Lexeme

/-- The literals of a text in which no lexeme is a flaw end strictly. -/
theorem paired_of_isFlawless {t : Text} (hflaw : ∀ l ∈ lexemes t, l.IsFlawless) :
    ∀ x ∈ literalStarts (lexemes t), x.Paired := by
  fun_induction lexemes t with
  | case1 => exact List.forall_mem_nil _
  | case2 c t ih =>
    obtain ⟨hfirst, hothers⟩ := List.forall_mem_cons.1 hflaw
    have hopen : ¬OpensLiteral (Lexeme.first c t).2 := by
      intro hopen
      obtain ⟨q, rest, hlexemes⟩ := hopen.exists_lexemes
      exact hothers (.openQuote q rest) (by rw [hlexemes]; exact List.mem_singleton_self _)
    rw [literalStarts, source_lexemes, List.forall_mem_append]
    exact ⟨Lexeme.paired_first hfirst hopen, ih hothers⟩

/-! ### Terms of directives -/

/-- Behind a token there is no text that opens a literal and does not close it. -/
theorem not_opensLiteral_of_tokensFrom {position : Nat} {ps : List Placed}
    (h : tokensFrom position t = .ok ps) : ¬OpensLiteral t := by
  rintro ⟨q, u, rfl, hu⟩
  have htake : Token.take? q.char u = none := by
    rw [Token.take?, Quote.ofChar?_char]
    simp only
    rw [Quoted.closing?_eq_none_iff.2 hu]
    rfl
  have hblank : isBlank q.char = false := by cases q <;> decide
  rw [tokensFrom.eq_def] at h
  simp only [hblank, Bool.false_eq_true, if_false] at h
  split at h
  · cases h
  · rename_i htoken
    rw [htake] at htoken
    cases htoken

theorem Token.closing?_of_take? {c : Char} {q : Quote} (h : take? c t = some (literal q body, rest)) :
    Quoted.closing? q.char t = some (body, rest) := by
  have hc : q.char = c := (List.cons.inj (source_take? h)).1
  subst hc
  simp only [take?, Quote.ofChar?_char] at h
  obtain ⟨⟨b, r⟩, hb, he⟩ := Option.map_eq_some_iff.1 h
  obtain ⟨hliteral, rfl⟩ := Prod.mk.inj he
  obtain ⟨-, rfl⟩ := literal.inj hliteral
  exact hb

theorem Placed.paired_of_take? {c : Char} {token : Token} {before : Text} {x : LiteralStart}
    (h : Token.take? c t = some (token, rest)) (hopen : ¬OpensLiteral rest)
    (hx : literalStart? (before ++ c :: t) ⟨before.length, token⟩ = some x) : x.Paired := by
  unfold literalStart? at hx
  split at hx
  · rename_i q b htoken
    obtain rfl : token = .literal q b := htoken
    obtain rfl := Option.some.inj hx
    have hclosing := Token.closing?_of_take? h
    have htail : (before ++ c :: t).drop (before.length + 1) = t := by
      rw [List.drop_length_add_append]
      rfl
    refine ⟨b, rest, ?_, ?_⟩
    · rw [← Token.source_take? h, ← List.append_assoc, Placed.stop, ← List.length_append,
        List.drop_left]
    · rw [htail]
      exact Quoted.pairedClosing?_of_closing? hclosing hopen
  · cases hx

theorem paired_of_tokensFrom {position : Nat} {ps : List Placed} {before : Text}
    (h : tokensFrom position t = .ok ps) (hposition : before.length = position) :
    ∀ x ∈ ps.filterMap (Placed.literalStart? (before ++ t)), x.Paired := by
  fun_induction tokensFrom position t generalizing before ps with
  | case1 =>
    obtain rfl := Except.ok.inj h
    exact List.forall_mem_nil _
  | case2 position c t hc ih =>
    have hnext : (before ++ [c]).length = position + 1 := by
      rw [List.length_append, hposition]
      rfl
    have htail := ih h hnext
    rwa [List.append_assoc] at htail
  | case3 => cases h
  | case4 position c t hc token rest htake tokens htokens ih =>
    obtain rfl := Except.ok.inj h
    subst hposition
    intro x hx
    obtain ⟨p, hp, hstart⟩ := List.mem_filterMap.1 hx
    rcases List.mem_cons.1 hp with rfl | hp
    · exact Placed.paired_of_take? htake (not_opensLiteral_of_tokensFrom htokens) hstart
    · have hnext : (before ++ token.source).length = before.length + token.source.length :=
        List.length_append ..
      have htail := ih htokens hnext
      rw [List.append_assoc, Token.source_take? htake] at htail
      exact htail x (List.mem_filterMap.2 ⟨p, hp, hstart⟩)
  | case5 => cases h

theorem Directive.paired_of_compiled {registry : Registry} {d : Directive} (h : d.Compiled registry) :
    ∀ x ∈ d.literalStarts, x.Paired := by
  have hcompile := h.expression
  rw [Expression.compile] at hcompile
  rw [literalStarts]
  split
  · rename_i ps hps
    exact paired_of_tokensFrom hps List.length_nil
  · exact List.forall_mem_nil _

/-- A pair of quotes never ends a literal in a text that is accepted as a template: every literal in the
text of the statement, in a sample or in a directive ends with the first quote behind the opening one that
is no part of a pair, pairs being read from left to right. And a text in which a quote outside of comments
opens a literal without such an end is not accepted. -/
theorem LiteralStart.paired_of_parse (registry : Registry) (resource : Option Text) (text : Text) :
    (∀ t, Template.parse registry resource text = .ok t →
      (∀ x ∈ literalStarts (lexemes text), x.Paired) ∧
        ∀ d ∈ t.deepDirectives, ∀ x ∈ d.literalStarts, x.Paired) ∧
    ((∃ x ∈ literalStarts (lexemes text), Quoted.pairedClosing? x.quote.char x.behind = none) →
      ∃ e, Template.parse registry resource text = .error e) := by
  have haccepted : ∀ t, Template.parse registry resource text = .ok t →
      ∀ x ∈ SqlTemplate.literalStarts (lexemes text), x.Paired :=
    fun t ht => paired_of_isFlawless (isFlawless_of_parse ht)
  refine ⟨fun t ht => ⟨haccepted t ht, fun d hd => ?_⟩, ?_⟩
  · exact Directive.paired_of_compiled (compiled_of_parse ht d hd)
  · rintro ⟨x, hx, hopen⟩
    cases hparse : Template.parse registry resource text with
    | error e => exact ⟨e, rfl⟩
    | ok t =>
      obtain ⟨body, rest, -, hpaired⟩ := haccepted t hparse x hx
      rw [hopen] at hpaired
      cases hpaired

/-- A literal in the text, a sample and a term, each with a pair of quotes. -/
def Template.doubledQuotes : Template where
  lines := [.mk "SELECT 'it''s' WHERE a = ".toList 1 1
    [.directive 25
      { source := "%C 'x''' $b".toList
        expression := [.call "C".toList false none
          [.literal "x'".toList, .reference .param "b".toList false]]
        sample := some "'y'''".toList
        comparison := none
        line := some 1 }] none]
  resource := none

theorem LiteralStart.paired_of_parse_doubledQuotes :
    (Template.parse .standard none
        "SELECT 'it''s' WHERE a = /* %C 'x''' $b */'y'''".toList = .ok .doubledQuotes ∧
      (∀ x ∈ literalStarts (lexemes "SELECT 'it''s' WHERE a = /* %C 'x''' $b */'y'''".toList),
        x.Paired) ∧
      ∀ d ∈ Template.doubledQuotes.deepDirectives, ∀ x ∈ d.literalStarts, x.Paired) ∧
    (⟨.single, "a''".toList, some ['\'']⟩ ∈ literalStarts (lexemes "SELECT 'a''".toList) ∧
      Quoted.pairedClosing? '\'' "a''".toList = none ∧
      ∃ e, Template.parse .standard none "SELECT 'a''".toList = .error e) := by
  have haccepted : Template.parse .standard none
      "SELECT 'it''s' WHERE a = /* %C 'x''' $b */'y'''".toList = .ok .doubledQuotes := by
    with_unfolding_all rfl
  have hmet : ⟨.single, "a''".toList, some ['\'']⟩ ∈
      SqlTemplate.literalStarts (lexemes "SELECT 'a''".toList) := by
    with_unfolding_all decide
  have hopen : Quoted.pairedClosing? '\'' "a''".toList = none := by decide
  exact ⟨⟨haccepted, (paired_of_parse .standard none _).1 _ haccepted⟩, hmet, hopen,
    (paired_of_parse .standard none "SELECT 'a''".toList).2 ⟨_, hmet, hopen⟩⟩

end SqlTemplate
