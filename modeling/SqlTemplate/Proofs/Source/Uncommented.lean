import SqlTemplate.Source.Lexeme

/-!
# Deleting comments

`uncommented` deletes the comments of a text and leaves everything else: a text is passed over from
left to right, and all there is to know about what was passed is which literal is open, or whether
it ends in a line comment or in block comments that are nested to some depth. Block comments that
begin with an exclamation mark or a plus sign are hints and stay.

A text that is cut into lexemes without an error keeps the same: `Lexeme.kept` is what a lexeme
contributes, and `flatMap_kept_lexemes` puts the lexemes together again. The only place where the
two part ways is a comment inside of a parenthesised sample, which is no comment to the lexemes.
-/

namespace SqlTemplate

/-- The quote of the literal that is open behind a character, given the one that is open before it.
A doubled quote closes a literal and opens it again. -/
def toggle : Option Char → Char → Option Char
  | none, c => if c = '\'' ∨ c = '"' then some c else none
  | some q, c => if c = q then none else some q

/-- Where in a text a character stands. -/
inductive Region where
  /-- Outside of comments, in a literal with the given quote if there is one. -/
  | text (quote : Option Char)
  | remark
  /-- In a block comment inside of which `depth` others are open. -/
  | comment (depth : Nat) (kept : Bool)

/-- Whether a block comment with the given body stays. -/
def isHint : Text → Bool
  | c :: _ => c == '!' || c == '+'
  | [] => false

/-- A text without its comments, if it begins in the given region. -/
def uncommentedFrom : Region → Text → Text
  | _, [] => []
  | .text none, '-' :: '-' :: t => uncommentedFrom .remark t
  | .text none, '/' :: '*' :: t =>
      if isHint t then '/' :: '*' :: uncommentedFrom (.comment 0 true) t
      else uncommentedFrom (.comment 0 false) t
  | .text quote, c :: t => c :: uncommentedFrom (.text (toggle quote c)) t
  | .remark, c :: t =>
      if isLineBreak c then c :: uncommentedFrom (.text none) t else uncommentedFrom .remark t
  | .comment depth kept, '/' :: '*' :: t =>
      (if kept then ['/', '*'] else []) ++ uncommentedFrom (.comment (depth + 1) kept) t
  | .comment 0 kept, '*' :: '/' :: t =>
      (if kept then ['*', '/'] else []) ++ uncommentedFrom (.text none) t
  | .comment (depth + 1) kept, '*' :: '/' :: t =>
      (if kept then ['*', '/'] else []) ++ uncommentedFrom (.comment depth kept) t
  | .comment depth kept, c :: t =>
      (if kept then [c] else []) ++ uncommentedFrom (.comment depth kept) t

/-- A text without its comments, except for hints. -/
def uncommented (t : Text) : Text := uncommentedFrom (.text none) t

/-- Whether a comment begins in a text outside of its literals, if the literal with the given quote
is open where the text begins. -/
def hasComment : Option Char → Text → Bool
  | _, [] => false
  | none, '-' :: '-' :: _ => true
  | none, '/' :: '*' :: _ => true
  | quote, c :: t => hasComment (toggle quote c) t

/-- Whether a comment begins right where a text does. -/
def beginsComment : Text → Bool
  | '-' :: '-' :: _ => true
  | '/' :: '*' :: _ => true
  | _ => false

section Equations

variable {c : Char} {t : Text}

/-- A character of a text stays where no comment begins. -/
theorem uncommentedFrom_text_cons {quote : Option Char}
    (h : quote = none → beginsComment (c :: t) = false) :
    uncommentedFrom (.text quote) (c :: t) = c :: uncommentedFrom (.text (toggle quote c)) t := by
  rw [uncommentedFrom]
  · rintro u hquote rfl rfl
    exact absurd (h hquote) (by simp [beginsComment])
  · rintro u hquote rfl rfl
    exact absurd (h hquote) (by simp [beginsComment])

theorem uncommentedFrom_none_cons (h : beginsComment (c :: t) = false) :
    uncommentedFrom (.text none) (c :: t) = c :: uncommentedFrom (.text (toggle none c)) t :=
  uncommentedFrom_text_cons fun _ => h

theorem uncommentedFrom_some_cons (q : Char) :
    uncommentedFrom (.text (some q)) (c :: t) =
      c :: uncommentedFrom (.text (toggle (some q) c)) t :=
  uncommentedFrom_text_cons (by simp)

theorem uncommentedFrom_remark_cons :
    uncommentedFrom .remark (c :: t) =
      if isLineBreak c then c :: uncommented t else uncommentedFrom .remark t := by
  rw [uncommentedFrom]
  rfl

theorem hasComment_none_cons (h : hasComment none (c :: t) = false) :
    beginsComment (c :: t) = false ∧ hasComment (toggle none c) t = false := by
  unfold hasComment at h
  split at h <;> simp_all [beginsComment]

theorem hasComment_some_cons (q : Char) :
    hasComment (some q) (c :: t) = hasComment (toggle (some q) c) t := by
  rw [hasComment]
  · simp
  · simp

theorem toggle_none_of_quote {q : Char} (hq : q = '\'' ∨ q = '"') : toggle none q = some q :=
  if_pos hq

theorem toggle_some_self (q : Char) : toggle (some q) q = none := if_pos rfl

/-- A quote begins a literal, not a comment. -/
theorem uncommentedFrom_none_quote {q : Char} (hq : q = '\'' ∨ q = '"') :
    uncommentedFrom (.text none) (q :: t) = q :: uncommentedFrom (.text (some q)) t := by
  have hbegins : beginsComment (q :: t) = false := by
    rcases hq with rfl | rfl <;> rfl
  rw [uncommentedFrom_none_cons hbegins, toggle_none_of_quote hq]

end Equations

/-- A literal stays as it is. -/
theorem uncommentedFrom_of_closing? {q : Char} (hq : q = '\'' ∨ q = '"') {t body rest : Text}
    (h : Quoted.closing? q t = some (body, rest)) :
    uncommentedFrom (.text (some q)) t = body ++ uncommented rest := by
  fun_induction Quoted.closing? q t generalizing body rest with
  | case1 => simp at h
  | case2 =>
      obtain ⟨rfl, rfl⟩ := Prod.mk.inj (Option.some.inj h)
      rw [uncommentedFrom_some_cons, toggle_some_self]
      rfl
  | case3 => simp at h
  | case4 t b r hb ih =>
      obtain ⟨rfl, rfl⟩ := Prod.mk.inj (Option.some.inj h)
      rw [uncommentedFrom_some_cons, toggle_some_self, uncommentedFrom_none_quote hq, ih hb]
      rfl
  | case5 t hb ih =>
      obtain ⟨rfl, rfl⟩ := Prod.mk.inj (Option.some.inj h)
      rw [uncommentedFrom_some_cons, toggle_some_self]
      rfl
  | case6 d t hd =>
      obtain ⟨rfl, rfl⟩ := Prod.mk.inj (Option.some.inj h)
      rw [uncommentedFrom_some_cons, toggle_some_self]
      rfl
  | case7 c d t hc ih =>
      obtain ⟨⟨b, r⟩, hb, he⟩ := Option.map_eq_some_iff.1 h
      obtain ⟨rfl, rfl⟩ := Prod.mk.inj he
      rw [uncommentedFrom_some_cons, toggle, if_neg hc, ih hb]
      rfl

/-- A line comment is deleted up to its line end. -/
theorem uncommentedFrom_remark (t : Text) :
    uncommentedFrom .remark t = uncommented (restOfLine t).2 := by
  induction t with
  | nil => rfl
  | cons c t ih =>
      rw [uncommentedFrom_remark_cons]
      cases hc : isLineBreak c with
      | true =>
          have hrest : (restOfLine (c :: t)).2 = c :: t := by simp [restOfLine, hc]
          have hbreak : c = '\r' ∨ c = '\n' := by simpa [isLineBreak] using hc
          rw [hrest, if_pos rfl]
          rcases hbreak with rfl | rfl
          · exact (uncommentedFrom_none_cons rfl).symm
          · exact (uncommentedFrom_none_cons rfl).symm
      | false =>
          have hrest : (restOfLine (c :: t)).2 = (restOfLine t).2 := by simp [restOfLine, hc]
          rw [hrest, if_neg (by simp)]
          exact ih

/-- A block comment is deleted or stays as a whole. -/
theorem uncommentedFrom_comment {depth : Nat} {kept : Bool} {t body rest : Text}
    (h : Comment.close? depth t = some (body, rest)) :
    uncommentedFrom (.comment depth kept) t =
      (if kept then body ++ ['*', '/'] else []) ++ uncommented rest := by
  fun_induction Comment.close? depth t generalizing body rest with
  | case1 => simp at h
  | case2 t =>
      obtain ⟨rfl, rfl⟩ := Prod.mk.inj (Option.some.inj h)
      rfl
  | case3 depth t ih =>
      obtain ⟨⟨b, r⟩, hb, he⟩ := Option.map_eq_some_iff.1 h
      obtain ⟨rfl, rfl⟩ := Prod.mk.inj he
      rw [uncommentedFrom, ih hb]
      cases kept <;> rfl
  | case4 depth t ih =>
      obtain ⟨⟨b, r⟩, hb, he⟩ := Option.map_eq_some_iff.1 h
      obtain ⟨rfl, rfl⟩ := Prod.mk.inj he
      rw [uncommentedFrom, ih hb]
      cases kept <;> rfl
  | case5 depth c t hzero hsucc hopen ih =>
      obtain ⟨⟨b, r⟩, hb, he⟩ := Option.map_eq_some_iff.1 h
      obtain ⟨rfl, rfl⟩ := Prod.mk.inj he
      rw [uncommentedFrom, ih hb]
      · cases kept <;> rfl
      · exact hopen
      · exact hzero
      · exact hsucc

/-- A text without comments that ends with a parenthesis stays as it is. -/
theorem uncommentedFrom_append {quote : Option Char} {s : Text} (r : Text)
    (h : hasComment quote s = false) (hlast : s.getLast? = some ')') :
    uncommentedFrom (.text quote) (s ++ r) =
      s ++ uncommentedFrom (.text (s.foldl toggle quote)) r := by
  induction s generalizing quote with
  | nil => rfl
  | cons c s ih =>
      have hnext : hasComment (toggle quote c) s = false →
          uncommentedFrom (.text (toggle quote c)) (s ++ r) =
            s ++ uncommentedFrom (.text ((c :: s).foldl toggle quote)) r := by
        intro hs
        cases s with
        | nil => rfl
        | cons d s => exact ih hs (by simpa using hlast)
      rw [List.cons_append, List.cons_append]
      cases quote with
      | some q =>
          rw [hasComment_some_cons] at h
          rw [uncommentedFrom_some_cons, hnext h]
      | none =>
          obtain ⟨hbegins, hs⟩ := hasComment_none_cons h
          have hbegins : beginsComment (c :: (s ++ r)) = false := by
            cases s with
            | nil =>
                obtain rfl : c = ')' := by simpa using hlast
                rfl
            | cons d s =>
                unfold beginsComment at hbegins ⊢
                split <;> simp_all
          rw [uncommentedFrom_none_cons hbegins, hnext hs]

namespace Sample

/-- No comment begins inside of an unquoted sample or right behind it. -/
theorem uncommented_bare (t : Text) : uncommented t = (bare t).1 ++ uncommented (bare t).2 := by
  induction t with
  | nil => rfl
  | cons c t ih =>
      rw [bare]
      split
      · rename_i hc
        have hbegins : beginsComment (c :: t) = false := by
          unfold beginsComment
          split <;> simp_all [isBare]
        have hquote : ¬(c = '\'' ∨ c = '"') := by
          rintro (rfl | rfl) <;> simp [isBare] at hc
        rw [uncommented, uncommentedFrom_none_cons hbegins, toggle, if_neg hquote]
        exact congrArg (c :: ·) ih
      · rfl

theorem uncommented_of_quoted {t s r : Text} (h : Quoted.take? t = some (s, r)) :
    uncommented t = s ++ uncommented r := by
  unfold Quoted.take? at h
  split at h
  · simp at h
  · rename_i c t
    split at h
    · rename_i q hq
      obtain ⟨⟨b, u⟩, hb, he⟩ := Option.map_eq_some_iff.1 h
      obtain ⟨rfl, rfl⟩ := Prod.mk.inj he
      have hc := Quote.char_eq_of_ofChar? hq
      have hquote : c = '\'' ∨ c = '"' := by
        rw [← hc]
        cases q <;> simp [Quote.char]
      rw [hc] at hb
      rw [uncommented, uncommentedFrom_none_quote hquote, uncommentedFrom_of_closing? hquote hb]
      rfl
    · simp at h

/-- A text that leaves no literal open and ends with a parenthesis. -/
def IsClosed (quote : Option Char) (s : Text) : Prop :=
  s.foldl toggle quote = none ∧ s.getLast? = some ')'

theorem IsClosed.cons {quote : Option Char} {c : Char} {s : Text}
    (h : IsClosed (toggle quote c) s) : IsClosed quote (c :: s) := by
  obtain ⟨htoggle, hlast⟩ := h
  exact ⟨htoggle, by rw [List.getLast?_cons, hlast, Option.getD_some]⟩

theorem isClosed_of_balanced? {depth : Int} {quote : Option Char}
    (hquote : ∀ q, quote = some q → q = '\'' ∨ q = '"') {t s r : Text}
    (h : balanced? depth quote t = some (s, r)) : IsClosed quote s := by
  fun_induction balanced? depth quote t generalizing s r with
  | case1 => simp at h
  | case2 depth q u ih =>
      obtain ⟨⟨b, v⟩, hb, he⟩ := Option.map_eq_some_iff.1 h
      obtain ⟨rfl, rfl⟩ := Prod.mk.inj he
      apply IsClosed.cons
      rw [toggle_some_self]
      apply IsClosed.cons
      rw [toggle_none_of_quote (hquote q rfl)]
      exact ih hquote hb
  | case3 depth q d u hd ih =>
      obtain ⟨⟨b, v⟩, hb, he⟩ := Option.map_eq_some_iff.1 h
      obtain ⟨rfl, rfl⟩ := Prod.mk.inj he
      apply IsClosed.cons
      rw [toggle_some_self]
      exact ih (by simp) hb
  | case4 => simp at h
  | case5 depth c t q hc ih =>
      obtain ⟨⟨b, v⟩, hb, he⟩ := Option.map_eq_some_iff.1 h
      obtain ⟨rfl, rfl⟩ := Prod.mk.inj he
      apply IsClosed.cons
      rw [toggle, if_neg hc]
      exact ih hquote hb
  | case6 depth c t hc ih =>
      obtain ⟨⟨b, v⟩, hb, he⟩ := Option.map_eq_some_iff.1 h
      obtain ⟨rfl, rfl⟩ := Prod.mk.inj he
      apply IsClosed.cons
      rw [toggle_none_of_quote hc]
      apply ih _ hb
      intro q hq
      obtain rfl := Option.some.inj hq
      exact hc
  | case7 depth t hc ih =>
      obtain ⟨⟨b, v⟩, hb, he⟩ := Option.map_eq_some_iff.1 h
      obtain ⟨rfl, rfl⟩ := Prod.mk.inj he
      exact IsClosed.cons (ih hquote hb)
  | case8 =>
      obtain ⟨rfl, rfl⟩ := Prod.mk.inj (Option.some.inj h)
      exact ⟨rfl, rfl⟩
  | case9 depth t hdepth hc hopen ih =>
      obtain ⟨⟨b, v⟩, hb, he⟩ := Option.map_eq_some_iff.1 h
      obtain ⟨rfl, rfl⟩ := Prod.mk.inj he
      exact IsClosed.cons (ih hquote hb)
  | case10 depth c t hc hopen hclose ih =>
      obtain ⟨⟨b, v⟩, hb, he⟩ := Option.map_eq_some_iff.1 h
      obtain ⟨rfl, rfl⟩ := Prod.mk.inj he
      apply IsClosed.cons
      rw [toggle, if_neg hc]
      exact ih hquote hb

/-- A sample stays as it is, unless it is a parenthesised one with a comment inside. -/
theorem uncommented_of_read {t s r : Text} (h : read t = .taken s r)
    (hs : s.head? = some '(' → hasComment none s = false) :
    uncommented t = s ++ uncommented r := by
  unfold read at h
  split at h
  · rename_i hopen
    split at h
    · rename_i s' r' hb
      obtain ⟨rfl, rfl⟩ := Reading.taken.inj h
      obtain ⟨htoggle, hlast⟩ := isClosed_of_balanced? (by simp) hb
      have ht := append_of_balanced? hb
      have hhead : s'.head? = some '(' := by
        cases s' with
        | nil => simp at hlast
        | cons c s' =>
            rw [ht] at hopen
            exact hopen
      rw [uncommented, ht, uncommentedFrom_append _ (hs hhead) hlast, htoggle]
      rfl
    · simp at h
  · split at h
    · rename_i hsimple
      obtain ⟨rfl, rfl⟩ := Reading.taken.inj h
      unfold simple? at hsimple
      split at hsimple
      · rename_i found hquoted
        obtain rfl := Option.some.inj hsimple
        exact uncommented_of_quoted hquoted
      · split at hsimple
        · simp at hsimple
        · obtain hbare := Option.some.inj hsimple
          have hrest := uncommented_bare t
          rw [hbare] at hrest
          exact hrest
    · simp at h

end Sample

namespace Lexeme

/-- What a lexeme contributes to the text without comments; a directive leaves its sample. -/
def kept : Lexeme → Text
  | remark _ | comment _ | lineDirective _ => []
  | blockDirective _ sample => sample.getD []
  | l => l.source

/-- A lexeme of a text in which everything is closed. -/
def IsFlawless : Lexeme → Prop
  | strayClose | openQuote _ _ | openComment _ | openSample _ _ => False
  | _ => True

/-- A lexeme that does not hide a comment in a parenthesised sample. -/
def IsOpen (l : Lexeme) : Prop :=
  ∀ body s, l = blockDirective body (some s) → s.head? = some '(' → hasComment none s = false

/-- A block comment is a hint just when its body begins like one. -/
theorem isHint_append (body rest : Text) :
    isHint (body ++ '*' :: '/' :: rest) = (useOf body == .hint) := by
  cases body with
  | nil => rfl
  | cons c body =>
      by_cases hbang : c = '!'
      · subst hbang
        rfl
      by_cases hplus : c = '+'
      · subst hplus
        rfl
      have hhint : isHint (c :: body ++ '*' :: '/' :: rest) = false := by
        simp [isHint, hbang, hplus]
      rw [hhint]
      unfold useOf
      split
      · rfl
      · split <;> simp_all

theorem uncommented_block {t body rest : Text} (h : Comment.close? 0 t = some (body, rest))
    (hflaw : (ofBlock body rest).1.IsFlawless) (hopen : (ofBlock body rest).1.IsOpen) :
    uncommented ('/' :: '*' :: t) =
      (ofBlock body rest).1.kept ++ uncommented (ofBlock body rest).2 := by
  have ht := Comment.append_of_close? h
  have hcomment : uncommented ('/' :: '*' :: t) =
      (if isHint t then '/' :: '*' :: (body ++ ['*', '/']) else []) ++ uncommented rest := by
    rw [uncommented, uncommentedFrom, uncommentedFrom_comment h, uncommentedFrom_comment h]
    split <;> rfl
  have hhint : isHint t = (useOf body == .hint) := by
    rw [ht, isHint_append]
  rw [hcomment, hhint]
  unfold ofBlock at hflaw hopen ⊢
  cases huse : useOf body with
  | nothing => rfl
  | hint => rfl
  | directive =>
      rw [huse] at hflaw hopen
      dsimp only at hflaw hopen ⊢
      cases hread : Sample.read rest with
      | absent => rfl
      | taken s r =>
          rw [hread] at hopen
          exact Sample.uncommented_of_read hread (hopen body s rfl)
      | unclosed =>
          rw [hread] at hflaw
          exact hflaw.elim

/-- Two dashes begin a line comment. -/
theorem uncommented_dashes (t : Text) :
    uncommented ('-' :: '-' :: t) = uncommented (restOfLine t).2 := by
  rw [uncommented, uncommentedFrom, uncommentedFrom_remark]

theorem kept_ofLine (body : Text) : (ofLine body).kept = [] := by
  unfold ofLine
  split <;> rfl

/-- A character that no delimiter begins with stands for itself. -/
theorem uncommented_plain {c : Char} {t : Text} (h : Delimiter.take? (c :: t) = none) :
    uncommented (c :: t) = c :: uncommented t := by
  have hbegins : beginsComment (c :: t) = false := by
    unfold beginsComment
    split <;> simp_all [Delimiter.take?]
  have hquote : ¬(c = '\'' ∨ c = '"') := by
    rintro (rfl | rfl) <;> simp [Delimiter.take?] at h
  rw [uncommented, uncommentedFrom_none_cons hbegins, toggle, if_neg hquote]
  rfl

theorem uncommented_first {c : Char} {t : Text} (hflaw : (first c t).1.IsFlawless)
    (hopen : (first c t).1.IsOpen) :
    uncommented (c :: t) = (first c t).1.kept ++ uncommented (first c t).2 := by
  unfold first at hflaw hopen ⊢
  cases hd : Delimiter.take? (c :: t) with
  | none => exact uncommented_plain hd
  | some found =>
      obtain ⟨d, rest⟩ := found
      rw [hd] at hflaw hopen
      dsimp only at hflaw hopen ⊢
      rw [Delimiter.chars_append_of_take? hd]
      cases d with
      | lineEnd e =>
          cases e with
          | crlf =>
              have hcr := uncommentedFrom_none_cons (c := '\r') (t := '\n' :: rest) rfl
              rw [uncommentedFrom_none_cons rfl] at hcr
              exact hcr
          | cr => exact uncommentedFrom_none_cons rfl
          | lf => exact uncommentedFrom_none_cons rfl
      | opening => exact uncommentedFrom_none_cons rfl
      | closing => exact uncommentedFrom_none_cons rfl
      | commentClose => exact hflaw.elim
      | quote q =>
          have hquote : q.char = '\'' ∨ q.char = '"' := by
            cases q <;> simp [Quote.char]
          simp only [ofDelimiter] at hflaw ⊢
          cases hclosing : Quoted.closing? q.char rest with
          | none =>
              rw [hclosing] at hflaw
              exact hflaw.elim
          | some found =>
              obtain ⟨body, behind⟩ := found
              rw [Delimiter.chars, List.singleton_append, uncommented,
                uncommentedFrom_none_quote hquote, uncommentedFrom_of_closing? hquote hclosing]
              rfl
      | dashes =>
          rw [Delimiter.chars]
          simp only [ofDelimiter, kept_ofLine]
          exact uncommented_dashes rest
      | commentOpen =>
          simp only [ofDelimiter] at hflaw hopen ⊢
          cases hclose : Comment.close? 0 rest with
          | none =>
              rw [hclose] at hflaw
              exact hflaw.elim
          | some found =>
              obtain ⟨body, behind⟩ := found
              rw [hclose] at hflaw hopen
              exact uncommented_block hclose hflaw hopen

end Lexeme

/-- Cutting a text without flaws into lexemes finds its comments. -/
theorem flatMap_kept_lexemes {t : Text} (hflaw : ∀ l ∈ lexemes t, l.IsFlawless)
    (hopen : ∀ l ∈ lexemes t, l.IsOpen) : (lexemes t).flatMap Lexeme.kept = uncommented t := by
  fun_induction lexemes t with
  | case1 => rfl
  | case2 c t ih =>
      obtain ⟨hflaw, hflaws⟩ := List.forall_mem_cons.1 hflaw
      obtain ⟨hopen, hopens⟩ := List.forall_mem_cons.1 hopen
      rw [List.flatMap_cons, ih hflaws hopens, Lexeme.uncommented_first hflaw hopen]

end SqlTemplate
