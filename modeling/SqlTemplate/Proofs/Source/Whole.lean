import SqlTemplate.Proofs.Line.Ending
import SqlTemplate.Proofs.Source.Seams
import SqlTemplate.Proofs.Template.Reading

/-!
# Texts that close what they open

`Opened.run?` passes over a text and keeps track of the literal that is open and of the parentheses
that are, outside of literals. A text is `Whole` if it closes all that it opens and nothing else. So
what stands between two parentheses can be found again (`Opened.inner?`) if it is whole. Every
sample is (`Sample.IsCaptured.whole`), whatever is quoted in it.
-/

namespace SqlTemplate

/-- What appended texts keep is kept by joined ones. -/
theorem intercalate_of_append {P : Text → Prop} (hnil : P [])
    (happend : ∀ s t, P s → P t → P (s ++ t)) {separator : Text} (hseparator : P separator)
    {ts : List Text} (h : ∀ t ∈ ts, P t) : P (List.intercalate separator ts) := by
  induction ts with
  | nil => exact hnil
  | cons t ts ih =>
    obtain ⟨ht, hts⟩ := List.forall_mem_cons.1 h
    cases ts with
    | nil => simpa using ht
    | cons u ts =>
      rw [List.intercalate_cons_cons]
      exact happend _ _ (happend _ _ ht hseparator) (ih hts)

/-- A text without quotes. -/
def Quoteless (t : Text) : Prop := '\'' ∉ t ∧ '"' ∉ t

instance : DecidablePred Quoteless := fun _ => inferInstanceAs (Decidable (_ ∧ _))

theorem Quoteless.append {s t : Text} (hs : Quoteless s) (ht : Quoteless t) :
    Quoteless (s ++ t) :=
  ⟨by simpa using ⟨hs.1, ht.1⟩, by simpa using ⟨hs.2, ht.2⟩⟩

theorem Quoteless.parenthesised {t : Text} (h : Quoteless t) : Quoteless ('(' :: (t ++ [')'])) :=
  Quoteless.append (s := ['(']) (by decide) (h.append (by decide))

theorem Quoteless.intercalate {separator : Text} (hseparator : Quoteless separator)
    {ts : List Text} (h : ∀ t ∈ ts, Quoteless t) : Quoteless (List.intercalate separator ts) :=
  intercalate_of_append (by decide) (fun _ _ hs ht => hs.append ht) hseparator h

theorem Quoteless.tail {c : Char} {t : Text} (h : Quoteless (c :: t)) : Quoteless t :=
  ⟨mt (List.mem_cons_of_mem c) h.1, mt (List.mem_cons_of_mem c) h.2⟩

theorem Quoteless.toggle {t : Text} (h : Quoteless t) {c : Char} (hc : c ∈ t) :
    toggle none c = none := by
  refine if_neg ?_
  rintro (rfl | rfl)
  · exact h.1 hc
  · exact h.2 hc

theorem Quoteless.foldl_toggle {t : Text} (h : Quoteless t) :
    t.foldl SqlTemplate.toggle none = none := by
  induction t with
  | nil => rfl
  | cons c t ih =>
    rw [List.foldl_cons, h.toggle (List.mem_cons_self ..)]
    exact ih h.tail

/-- What is open somewhere in a text: a literal with a quote, and parentheses. -/
structure Opened where
  quote : Option Char
  depth : Nat

namespace Opened

def nothing : Opened := ⟨none, 0⟩

/-- What is open behind a character. Only outside of literals do parentheses count, and none is
closed that was not opened. -/
def step? (o : Opened) (c : Char) : Option Opened :=
  if o.quote = none ∧ c = '(' then some ⟨none, o.depth + 1⟩
  else if o.quote = none ∧ c = ')' then
    match o.depth with
    | 0 => none
    | depth + 1 => some ⟨none, depth⟩
  else some ⟨toggle o.quote c, o.depth⟩

/-- What is open behind a text, unless a parenthesis is closed that was not opened. -/
def run? (o : Opened) (t : Text) : Option Opened := t.foldlM step? o

variable {o o' : Opened} {c : Char} {s t : Text}

theorem run?_cons (o : Opened) (c : Char) (t : Text) :
    o.run? (c :: t) = (o.step? c).bind fun o => o.run? t := rfl

theorem run?_append (o : Opened) (s t : Text) :
    o.run? (s ++ t) = (o.run? s).bind fun o => o.run? t :=
  List.foldlM_append

/-- In a literal, parentheses are like other characters. -/
theorem step?_some (q : Char) (depth : Nat) (c : Char) :
    step? ⟨some q, depth⟩ c = some ⟨toggle (some q) c, depth⟩ := by
  simp [step?]

theorem step?_none (depth : Nat) (hopening : c ≠ '(') (hclosing : c ≠ ')') :
    step? ⟨none, depth⟩ c = some ⟨toggle none c, depth⟩ := by
  simp [step?, hopening, hclosing]

theorem step?_deeper (h : o.step? c = some o') (k : Nat) :
    step? ⟨o.quote, o.depth + k⟩ c = some ⟨o'.quote, o'.depth + k⟩ := by
  obtain ⟨quote, depth⟩ := o
  unfold step? at h ⊢
  dsimp only at h ⊢
  split at h
  · rename_i hopening
    obtain rfl := Option.some.inj h
    rw [if_pos hopening, Nat.add_right_comm]
  · rename_i hopening
    rw [if_neg hopening]
    split at h
    · rename_i hclosing
      rw [if_pos hclosing]
      cases depth with
      | zero => simp at h
      | succ depth =>
        obtain rfl := Option.some.inj h
        rw [Nat.add_right_comm]
    · rename_i hclosing
      obtain rfl := Option.some.inj h
      rw [if_neg hclosing]

/-- Inside of further parentheses a text opens and closes the same. -/
theorem run?_deeper (h : o.run? t = some o') (k : Nat) :
    run? ⟨o.quote, o.depth + k⟩ t = some ⟨o'.quote, o'.depth + k⟩ := by
  induction t generalizing o with
  | nil =>
    obtain rfl := Option.some.inj h
    rfl
  | cons c t ih =>
    obtain ⟨next, hnext, hrest⟩ := Option.bind_eq_some_iff.1 h
    rw [run?_cons, step?_deeper hnext k]
    exact ih hrest

theorem quote_step? (h : o.step? c = some o') : o'.quote = toggle o.quote c := by
  obtain ⟨quote, depth⟩ := o
  unfold step? at h
  dsimp only at h
  split at h
  · rename_i hopening
    obtain ⟨rfl, rfl⟩ := hopening
    obtain rfl := Option.some.inj h
    rfl
  · split at h
    · rename_i hclosing
      obtain ⟨rfl, rfl⟩ := hclosing
      cases depth with
      | zero => simp at h
      | succ depth =>
        obtain rfl := Option.some.inj h
        rfl
    · obtain rfl := Option.some.inj h
      rfl

/-- Which literal is open does not hang on parentheses. -/
theorem foldl_toggle_of_run? (h : o.run? t = some o') : t.foldl toggle o.quote = o'.quote := by
  induction t generalizing o with
  | nil =>
    obtain rfl := Option.some.inj h
    rfl
  | cons c t ih =>
    obtain ⟨next, hnext, hrest⟩ := Option.bind_eq_some_iff.1 h
    rw [List.foldl_cons, ← quote_step? hnext]
    exact ih hrest

/-- What stands in front of a parenthesis that closes one open before the text, and what stands
behind it. -/
def inner? (o : Opened) : Text → Option (Text × Text)
  | [] => none
  | c :: t =>
    match o.step? c with
    | none => some ([], t)
    | some o => (inner? o t).map fun (s, r) => (c :: s, r)

theorem inner?_append (h : o.run? s = some o') (t : Text) :
    o.inner? (s ++ t) = (o'.inner? t).map fun (u, r) => (s ++ u, r) := by
  induction s generalizing o with
  | nil =>
    obtain rfl := Option.some.inj h
    simp
  | cons c s ih =>
    obtain ⟨next, hnext, hrest⟩ := Option.bind_eq_some_iff.1 h
    rw [List.cons_append, inner?, hnext]
    simp only [ih hrest, Option.map_map]
    rfl

end Opened

/-- A text that closes every literal and every parenthesis that it opens, and no others. -/
def Whole (t : Text) : Prop := Opened.nothing.run? t = some .nothing

namespace Whole

variable {s t : Text}

theorem append (hs : Whole s) (ht : Whole t) : Whole (s ++ t) := by
  rw [Whole, Opened.run?_append, hs]
  exact ht

theorem parenthesised (h : Whole t) : Whole ('(' :: (t ++ [')'])) := by
  have hinside : Opened.run? ⟨none, 1⟩ t = some ⟨none, 1⟩ := Opened.run?_deeper h 1
  rw [Whole, Opened.run?_cons]
  have hopening : Opened.nothing.step? '(' = some ⟨none, 1⟩ := rfl
  rw [hopening, Option.bind_some, Opened.run?_append, hinside]
  rfl

theorem intercalate {separator : Text} (hseparator : Whole separator) {ts : List Text}
    (h : ∀ t ∈ ts, Whole t) : Whole (List.intercalate separator ts) :=
  intercalate_of_append (P := Whole) rfl (fun _ _ hs ht => hs.append ht) hseparator h

theorem of_quoteless (hquote : Quoteless t) (hparen : '(' ∉ t ∧ ')' ∉ t) : Whole t := by
  induction t with
  | nil => rfl
  | cons c t ih =>
    have htoggle := hquote.toggle (List.mem_cons_self ..)
    obtain ⟨hsingle, hdouble⟩ := hquote
    simp only [List.mem_cons, not_or] at hsingle hdouble hparen
    have hstep : Opened.nothing.step? c = some .nothing := by
      rw [Opened.nothing, Opened.step?_none 0 (Ne.symm hparen.1.1) (Ne.symm hparen.2.1), htoggle]
    rw [Whole, Opened.run?_cons, hstep]
    exact ih ⟨hsingle.2, hdouble.2⟩ ⟨hparen.1.2, hparen.2.2⟩

/-- No literal is open behind a whole text. -/
theorem foldl_toggle (h : Whole t) : t.foldl toggle none = none := Opened.foldl_toggle_of_run? h

/-- A whole text is found again between its parentheses. -/
theorem inner?_append (h : Whole t) (rest : Text) :
    Opened.nothing.inner? (t ++ ')' :: rest) = some (t, rest) := by
  have hclosing : Opened.nothing.inner? (')' :: rest) = some ([], rest) := rfl
  rw [Opened.inner?_append h, hclosing]
  simp

end Whole

/-! ### Samples -/

namespace Quoted

theorem run?_of_closing? {q : Char} (hq : q = '\'' ∨ q = '"') (depth : Nat) {t body rest : Text}
    (h : closing? q t = some (body, rest)) :
    Opened.run? ⟨some q, depth⟩ body = some ⟨none, depth⟩ := by
  have hclose : Opened.step? ⟨some q, depth⟩ q = some ⟨none, depth⟩ := by
    rw [Opened.step?_some, toggle_some_self]
  have hopen : Opened.step? ⟨none, depth⟩ q = some ⟨some q, depth⟩ := by
    rcases hq with rfl | rfl <;> rfl
  fun_induction closing? q t generalizing body rest with
  | case1 => simp at h
  | case2 =>
    obtain ⟨rfl, rfl⟩ := Prod.mk.inj (Option.some.inj h)
    rw [Opened.run?_cons, hclose]
    rfl
  | case3 => simp at h
  | case4 t b r hb ih =>
    -- A doubled quote closes the literal and opens it again.
    obtain ⟨rfl, rfl⟩ := Prod.mk.inj (Option.some.inj h)
    rw [Opened.run?_cons, hclose, Option.bind_some, Opened.run?_cons, hopen]
    exact ih hb
  | case5 t hb ih =>
    obtain ⟨rfl, rfl⟩ := Prod.mk.inj (Option.some.inj h)
    rw [Opened.run?_cons, hclose]
    rfl
  | case6 d t hd =>
    obtain ⟨rfl, rfl⟩ := Prod.mk.inj (Option.some.inj h)
    rw [Opened.run?_cons, hclose]
    rfl
  | case7 c d t hc ih =>
    obtain ⟨⟨b, r⟩, hb, he⟩ := Option.map_eq_some_iff.1 h
    obtain ⟨rfl, rfl⟩ := Prod.mk.inj he
    rw [Opened.run?_cons, Opened.step?_some, toggle, if_neg hc]
    exact ih hb

theorem whole_of_take? {t s r : Text} (h : take? t = some (s, r)) : Whole s := by
  unfold take? at h
  split at h
  · simp at h
  · split at h
    · rename_i c u q hq
      obtain ⟨⟨b, v⟩, hb, he⟩ := Option.map_eq_some_iff.1 h
      obtain ⟨rfl, rfl⟩ := Prod.mk.inj he
      rw [← Quote.char_eq_of_ofChar? hq]
      have hchar : q.char = '\'' ∨ q.char = '"' := by cases q <;> simp [Quote.char]
      have hopen : Opened.nothing.step? q.char = some ⟨some q.char, 0⟩ := by cases q <;> rfl
      rw [Whole, Opened.run?_cons, hopen]
      exact run?_of_closing? hchar 0 hb
    · simp at h

end Quoted

namespace Sample

/-- A span closes as many parentheses as are open in front of it. -/
theorem run?_of_balanced? {quote : Option Char}
    (hquote : ∀ q, quote = some q → q = '\'' ∨ q = '"') {depth : Nat} (hdepth : depth ≠ 0)
    {t s r : Text} (h : balanced? depth quote t = some (s, r)) :
    Opened.run? ⟨quote, depth⟩ s = some .nothing := by
  generalize hd : (depth : Int) = d at h
  fun_induction balanced? d quote t generalizing depth s r with
  | case1 => simp at h
  | case2 d q u ih =>
    obtain ⟨⟨b, v⟩, hb, he⟩ := Option.map_eq_some_iff.1 h
    obtain ⟨rfl, rfl⟩ := Prod.mk.inj he
    have hopen : Opened.step? ⟨none, depth⟩ q = some ⟨some q, depth⟩ := by
      rcases hquote q rfl with rfl | rfl <;> rfl
    rw [Opened.run?_cons, Opened.step?_some, toggle_some_self, Option.bind_some,
      Opened.run?_cons, hopen]
    exact ih hquote hdepth hd hb
  | case3 d q e u he ih =>
    obtain ⟨⟨b, v⟩, hb, he⟩ := Option.map_eq_some_iff.1 h
    obtain ⟨rfl, rfl⟩ := Prod.mk.inj he
    rw [Opened.run?_cons, Opened.step?_some, toggle_some_self]
    exact ih (by simp) hdepth hd hb
  | case4 => simp at h
  | case5 d c t q hc ih =>
    obtain ⟨⟨b, v⟩, hb, he⟩ := Option.map_eq_some_iff.1 h
    obtain ⟨rfl, rfl⟩ := Prod.mk.inj he
    rw [Opened.run?_cons, Opened.step?_some, toggle, if_neg hc]
    exact ih hquote hdepth hd hb
  | case6 d c t hc ih =>
    obtain ⟨⟨b, v⟩, hb, he⟩ := Option.map_eq_some_iff.1 h
    obtain ⟨rfl, rfl⟩ := Prod.mk.inj he
    have hopen : Opened.step? ⟨none, depth⟩ c = some ⟨some c, depth⟩ := by
      rcases hc with rfl | rfl <;> rfl
    rw [Opened.run?_cons, hopen]
    exact ih (fun q hq => Option.some.inj hq ▸ hc) hdepth hd hb
  | case7 d t hc ih =>
    obtain ⟨⟨b, v⟩, hb, he⟩ := Option.map_eq_some_iff.1 h
    obtain ⟨rfl, rfl⟩ := Prod.mk.inj he
    have hopen : Opened.step? ⟨none, depth⟩ '(' = some ⟨none, depth + 1⟩ := rfl
    rw [Opened.run?_cons, hopen]
    exact ih (by simp) (Nat.succ_ne_zero depth) (by omega) hb
  | case8 =>
    obtain ⟨rfl, rfl⟩ := Prod.mk.inj (Option.some.inj h)
    obtain rfl : depth = 1 := by omega
    rfl
  | case9 d t hone hc hopening ih =>
    obtain ⟨⟨b, v⟩, hb, he⟩ := Option.map_eq_some_iff.1 h
    obtain ⟨rfl, rfl⟩ := Prod.mk.inj he
    obtain ⟨k, rfl⟩ := Nat.exists_eq_succ_of_ne_zero hdepth
    have hclose : Opened.step? ⟨none, k + 1⟩ ')' = some ⟨none, k⟩ := rfl
    rw [Opened.run?_cons, hclose]
    exact ih (by simp) (by omega) (by omega) hb
  | case10 d c t hc hopening hclosing ih =>
    obtain ⟨⟨b, v⟩, hb, he⟩ := Option.map_eq_some_iff.1 h
    obtain ⟨rfl, rfl⟩ := Prod.mk.inj he
    rw [Opened.run?_cons, Opened.step?_none depth hopening hclosing, toggle, if_neg hc]
    exact ih (by simp) hdepth hd hb

theorem not_mem_bare {c : Char} (h : isBare c = false) (hother : c ∉ "-/*".toList) (t : Text) :
    c ∉ (bare t).1 := by
  intro hc
  rcases isBare_of_mem_bare c hc with hbare | hmem
  · exact Bool.false_ne_true (h.symm.trans hbare)
  · exact hother hmem

theorem whole_bare (t : Text) : Whole (bare t).1 :=
  .of_quoteless ⟨not_mem_bare (by decide) (by decide) t, not_mem_bare (by decide) (by decide) t⟩
    ⟨not_mem_bare (by decide) (by decide) t, not_mem_bare (by decide) (by decide) t⟩

theorem IsSample.whole {s : Text} (h : IsSample s) : Whole s := by
  obtain ⟨t, rest, h⟩ := h
  unfold read at h
  split at h
  · rename_i hopening
    split at h
    · rename_i s' r' hb
      obtain ⟨rfl, rfl⟩ := Reading.taken.inj h
      obtain ⟨u, rfl⟩ := List.head?_eq_some_iff.1 hopening
      obtain ⟨⟨b, v⟩, hinside, he⟩ := Option.map_eq_some_iff.1 hb
      obtain ⟨rfl, rfl⟩ := Prod.mk.inj he
      exact run?_of_balanced? (by simp) Nat.one_ne_zero hinside
    · simp at h
  · split at h
    · rename_i hsimple
      obtain ⟨rfl, rfl⟩ := Reading.taken.inj h
      unfold simple? at hsimple
      split at hsimple
      · rename_i found hquoted
        obtain rfl := Option.some.inj hsimple
        exact Quoted.whole_of_take? hquoted
      · split at hsimple
        · simp at hsimple
        · have hwhole := whole_bare t
          rw [Option.some.inj hsimple] at hwhole
          exact hwhole
    · simp at h

end Sample

theorem whole_of_isBlankText {t : Text} (h : isBlankText t = true) : Whole t := by
  have hnot (c : Char) (hc : isBlank c = false) : c ∉ t := fun hmem =>
    Bool.false_ne_true (hc.symm.trans (List.all_eq_true.1 h c hmem))
  exact .of_quoteless ⟨hnot _ (by decide), hnot _ (by decide)⟩
    ⟨hnot _ (by decide), hnot _ (by decide)⟩

theorem Ending.whole_of_mark? {reversed : Text} {e : Ending Text} (h : mark? reversed = some e) :
    Whole e.piece := by
  have hblank (t : Text) : Whole (t.takeWhile isBlank).reverse := by
    refine whole_of_isBlankText ?_
    rw [isBlankText, List.all_reverse]
    exact List.all_takeWhile
  unfold mark? at h
  split at h
  · obtain rfl := Option.some.inj h
    rfl
  · rename_i inner _
    dsimp only at h
    split at h
    · rename_i t _
      split at h
      · obtain rfl := Option.some.inj h
        have hmark : Whole ['?'] := rfl
        have hinside := ((hblank t).append hmark).append (hblank inner)
        simpa using hinside.parenthesised
      · simp at h
    · simp at h
  · simp at h

/-- A sample as it is captured: what stands behind a block directive, or the mark in front of a line
directive. -/
def Sample.IsCaptured (s : Text) : Prop :=
  IsSample s ∨ ∃ reversed e, Ending.mark? reversed = some e ∧ e.piece = s

/-- A sample closes what it opens. -/
theorem Sample.IsCaptured.whole {s : Text} (h : IsCaptured s) : Whole s := by
  rcases h with h | ⟨reversed, e, he, rfl⟩
  · exact h.whole
  · exact Ending.whole_of_mark? he

theorem Sample.whole_getD {sample : Option Text} (h : ∀ s, sample = some s → IsCaptured s) :
    Whole (sample.getD []) := by
  cases sample with
  | none => rfl
  | some s => exact (h s rfl).whole

end SqlTemplate
