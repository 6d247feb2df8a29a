import SqlTemplate.Proofs.Source.Closing

/-!
# Signs of references

A question mark in front of a name makes a condition of it and a dollar sign a plain reference. Where
a text is cut into lexemes the two are characters like any other. So a text in which all question marks
are written as dollar signs is cut in the same places (`lexemes_plainSigns`), and so is one in which
only some of them are (`lexemes_flatMap_source`).
-/

namespace SqlTemplate

/-- The sign of a condition becomes that of a plain reference; every other character stays. -/
def plainSign (c : Char) : Char := if c = '?' then '$' else c

/-- A text in which all question marks are written as dollar signs. -/
def plainSigns (t : Text) : Text := t.map plainSign

section Signs

variable {β : Type} {c x : Char} {s t v : Text}

/-- What does not tell the two signs apart is the same of the other sign. -/
theorem apply_plainSign {f : Char → β} (h : f '$' = f '?') (c : Char) : f (plainSign c) = f c := by
  unfold plainSign
  split
  · rename_i hc
    rw [hc, h]
  · rfl

theorem plainSign_eq_iff (hx : x ≠ '?' ∧ x ≠ '$') : plainSign c = x ↔ c = x := by
  unfold plainSign
  split
  · rename_i hc
    exact iff_of_false hx.2.symm (hc ▸ hx.1.symm)
  · exact Iff.rfl

theorem plainSign_of_ne (hc : c ≠ '?') : plainSign c = c := if_neg hc

@[simp] theorem plainSigns_nil : plainSigns [] = [] := rfl

@[simp] theorem plainSigns_cons (c : Char) (t : Text) :
    plainSigns (c :: t) = plainSign c :: plainSigns t := rfl

@[simp] theorem plainSigns_append (s t : Text) :
    plainSigns (s ++ t) = plainSigns s ++ plainSigns t := List.map_append

@[simp] theorem length_plainSigns (t : Text) : (plainSigns t).length = t.length := List.length_map _

theorem plainSigns_plainSigns (t : Text) : plainSigns (plainSigns t) = plainSigns t := by
  have htwice : plainSign ∘ plainSign = plainSign := funext fun c => apply_plainSign rfl c
  rw [plainSigns, plainSigns, List.map_map, htwice]

/-- A text begins with certain characters if it does so with its signs changed. -/
theorem exists_of_plainSigns_eq_append (hs : ∀ x ∈ s, x ≠ '?' ∧ x ≠ '$')
    (h : plainSigns t = s ++ v) : ∃ u, t = s ++ u ∧ plainSigns u = v := by
  induction s generalizing t with
  | nil => exact ⟨t, rfl, h⟩
  | cons x s ih =>
    obtain ⟨hx, hs⟩ := List.forall_mem_cons.1 hs
    cases t with
    | nil => cases h
    | cons c t =>
      obtain ⟨hc, ht⟩ := List.cons.inj h
      obtain ⟨u, rfl, hu⟩ := ih hs ht
      obtain rfl := (plainSign_eq_iff hx).1 hc
      exact ⟨u, rfl, hu⟩

theorem head?_plainSigns (hx : x ≠ '?' ∧ x ≠ '$') :
    (plainSigns t).head? = some x ↔ t.head? = some x := by
  cases t with
  | nil => rfl
  | cons c t => simp [plainSign_eq_iff hx]

theorem isBlank_comp_plainSign : isBlank ∘ plainSign = isBlank :=
  funext fun c => apply_plainSign (by decide) c

theorem isBlankText_plainSigns (t : Text) : isBlankText (plainSigns t) = isBlankText t := by
  rw [isBlankText, plainSigns, List.all_map, isBlank_comp_plainSign]
  rfl

/-- Two texts, both with their signs changed. -/
def plainBoth (p : Text × Text) : Text × Text := (plainSigns p.1, plainSigns p.2)

/-- What is put in front of a text that was found is changed with it. -/
theorem map_append_plainBoth (u : Text) (found : Option (Text × Text)) :
    (found.map plainBoth).map (fun (b, r) => (plainSigns u ++ b, r)) =
      (found.map fun (b, r) => (u ++ b, r)).map plainBoth := by
  cases found with
  | none => rfl
  | some found => simp [plainBoth]

end Signs

section Pieces

variable {c q : Char} {t : Text}

theorem Delimiter.chars_ne (d : Delimiter) : ∀ x ∈ d.chars, x ≠ '?' ∧ x ≠ '$' := by
  cases d with
  | lineEnd e => cases e <;> simp [chars, LineEnd.chars]
  | quote q => cases q <;> simp [chars, Quote.char]
  | _ => simp [chars]

theorem Delimiter.take?_chars_append_ne_none (d : Delimiter) (u : Text) :
    take? (d.chars ++ u) ≠ none := by
  cases d with
  | lineEnd e =>
    cases e with
    | crlf => exact Option.some_ne_none _
    | lf => exact Option.some_ne_none _
    | cr =>
      unfold take?
      split <;> simp_all [chars, LineEnd.chars]
  | quote q => cases q <;> exact Option.some_ne_none _
  | _ => exact Option.some_ne_none _

theorem Delimiter.take?_plainSigns (t : Text) :
    take? (plainSigns t) = (take? t).map fun (d, r) => (d, plainSigns r) := by
  cases htake : take? t with
  | none =>
    refine Option.eq_none_iff_forall_ne_some.2 fun (d, rest) hd => ?_
    obtain ⟨u, rfl, -⟩ := exists_of_plainSigns_eq_append d.chars_ne (chars_append_of_take? hd)
    exact d.take?_chars_append_ne_none u htake
  | some found =>
    unfold take? at htake
    split at htake
    case h_9 u hu =>
      -- A carriage return that no line feed follows.
      obtain rfl := Option.some.inj htake
      have hhead : ∀ v, plainSigns u ≠ '\n' :: v := by
        intro v hv
        obtain ⟨w, rfl, -⟩ := exists_of_plainSigns_eq_append (s := ['\n']) (by simp) hv
        exact hu w rfl
      cases hw : plainSigns u with
      | nil => simp [plainSign, take?, hw]
      | cons x w =>
        have hx : x ≠ '\n' := fun hx => hhead w (by rw [hw, hx])
        simp [plainSign, take?, hw, hx]
    case h_11 => cases htake
    all_goals
      obtain rfl := Option.some.inj htake
      rfl

theorem Quoted.closing?_plainSigns (hq : q ≠ '?' ∧ q ≠ '$') (t : Text) :
    closing? q (plainSigns t) = (closing? q t).map plainBoth := by
  have hsame : plainSign q = q := (plainSign_eq_iff hq).2 rfl
  fun_induction closing? q t with
  | case1 => rfl
  | case2 => simp [closing?, hsame, plainBoth]
  | case3 c hc => simp [closing?, plainSign_eq_iff hq, hc]
  | case4 t b r hb ih =>
    rw [hb] at ih
    simp [closing?, hsame, ih, plainBoth]
  | case5 t hb ih =>
    rw [hb] at ih
    simp [closing?, hsame, ih, plainBoth]
  | case6 d t hd => simp [closing?, hsame, plainSign_eq_iff hq, hd, plainBoth]
  | case7 c d t hc ih =>
    have hpassed := map_append_plainBoth [c] (closing? q (d :: t))
    rw [plainSigns_cons, plainSigns_cons, closing?, if_neg (mt (plainSign_eq_iff hq).1 hc),
      ← plainSigns_cons, ih]
    exact hpassed

theorem Quote.char_ne (q : Quote) : q.char ≠ '?' ∧ q.char ≠ '$' := by
  cases q <;> decide

theorem Quoted.take?_plainSigns (t : Text) :
    take? (plainSigns t) = (take? t).map plainBoth := by
  cases t with
  | nil => rfl
  | cons c t =>
    simp only [plainSigns_cons, take?, apply_plainSign (f := Quote.ofChar?) rfl]
    cases Quote.ofChar? c with
    | none => rfl
    | some q =>
      have hpassed := map_append_plainBoth [c] (closing? q.char t)
      simp only [closing?_plainSigns q.char_ne]
      exact hpassed

theorem Comment.isOther_plainSigns (h : IsOther t) : IsOther (plainSigns t) := by
  constructor
  · intro v hv
    obtain ⟨u, rfl, -⟩ := exists_of_plainSigns_eq_append (s := ['/', '*']) (by simp) hv
    exact h.1 u rfl
  · intro v hv
    obtain ⟨u, rfl, -⟩ := exists_of_plainSigns_eq_append (s := ['*', '/']) (by simp) hv
    exact h.2 u rfl

theorem Comment.close?_plainSigns (depth : Nat) (t : Text) :
    close? depth (plainSigns t) = (close? depth t).map plainBoth := by
  fun_induction close? depth t with
  | case1 depth => rfl
  | case2 t => rfl
  | case3 depth t ih =>
    have hclosing : plainSigns ('*' :: '/' :: t) = '*' :: '/' :: plainSigns t := rfl
    rw [hclosing, close?, ih]
    exact map_append_plainBoth ['*', '/'] _
  | case4 depth t ih =>
    have hopening : plainSigns ('/' :: '*' :: t) = '/' :: '*' :: plainSigns t := rfl
    rw [hopening, close?, ih]
    exact map_append_plainBoth ['/', '*'] _
  | case5 depth c t hclose hclosing hopening ih =>
    have hother := isOther_plainSigns (isOther_of_forall hclose hclosing hopening)
    rw [plainSigns_cons] at hother ⊢
    rw [close?_cons hother, ih]
    exact map_append_plainBoth [c] _

theorem restOfLine_plainSigns (t : Text) :
    restOfLine (plainSigns t) = plainBoth (restOfLine t) := by
  have hbreak : (fun c => !isLineBreak c) ∘ plainSign = fun c => !isLineBreak c :=
    funext fun c => apply_plainSign (f := fun c => !isLineBreak c) (by decide) c
  rw [restOfLine, plainSigns, List.takeWhile_map, List.dropWhile_map, hbreak]
  rfl

end Pieces

namespace Sample

variable {c q : Char} {t : Text}

/-- A character behind which reading goes on in another way, whatever follows. -/
theorem balanced?_plainSigns_cons {depth depth' : Int} {quote quote' : Option Char}
    (hturn : ∀ w, balanced? depth quote (plainSign c :: w) =
      (balanced? depth' quote' w).map fun (b, r) => (plainSign c :: b, r))
    (ht : balanced? depth' quote' (plainSigns t) = (balanced? depth' quote' t).map plainBoth) :
    balanced? depth quote (plainSigns (c :: t)) =
      ((balanced? depth' quote' t).map fun (b, r) => (c :: b, r)).map plainBoth := by
  rw [plainSigns_cons, hturn, ht]
  exact map_append_plainBoth [c] _

theorem balanced?_plainSigns {depth : Int} {quote : Option Char}
    (hquote : ∀ q ∈ quote, q ≠ '?' ∧ q ≠ '$') (t : Text) :
    balanced? depth quote (plainSigns t) = (balanced? depth quote t).map plainBoth := by
  have hnone : ∀ q ∈ (none : Option Char), q ≠ '?' ∧ q ≠ '$' := by simp
  have hsame {x : Char} (hx : x ≠ '?' ∧ x ≠ '$') : plainSign x = x := (plainSign_eq_iff hx).2 rfl
  fun_induction balanced? depth quote t with
  | case1 => rfl
  | case2 depth q t ih =>
    have hq := hquote q rfl
    have hpassed := map_append_plainBoth [q, q] (balanced? depth (some q) t)
    rw [plainSigns_cons, plainSigns_cons, hsame hq, balanced?]
    simp only [if_true, ih hquote]
    simpa [hsame hq] using hpassed
  | case3 depth q d t hd ih =>
    have hq := hquote q rfl
    have hpassed := map_append_plainBoth [q] (balanced? depth none (d :: t))
    rw [plainSigns_cons, plainSigns_cons, hsame hq, balanced?]
    simp only [if_true, if_neg (mt (plainSign_eq_iff hq).1 hd), ← plainSigns_cons, ih hnone]
    simpa [hsame hq] using hpassed
  | case4 depth q =>
    rw [plainSigns_cons, hsame (hquote q rfl)]
    simp [balanced?]
  | case5 depth c t q hc ih =>
    refine balanced?_plainSigns_cons (fun w => ?_) (ih hquote)
    rw [balanced?.eq_def]
    simp only [if_neg (mt (plainSign_eq_iff (hquote q rfl)).1 hc)]
  | case6 depth c t hc ih =>
    have hsign : c ≠ '?' ∧ c ≠ '$' := by rcases hc with rfl | rfl <;> decide
    refine balanced?_plainSigns_cons (fun w => ?_) (ih (by simpa using hsign))
    rw [hsame hsign, balanced?.eq_def]
    simp only [if_pos hc]
  | case7 depth t hquotes ih =>
    refine balanced?_plainSigns_cons (fun w => ?_) (ih hnone)
    rw [hsame (by decide), balanced?.eq_def]
    simp only [if_neg hquotes, if_true]
  | case8 t hquotes hopening =>
    rw [plainSigns_cons, hsame (by decide), balanced?.eq_def]
    simp only [if_neg hquotes, if_neg hopening, if_true]
    rfl
  | case9 depth t hdepth hquotes hopening ih =>
    refine balanced?_plainSigns_cons (fun w => ?_) (ih hnone)
    rw [hsame (by decide), balanced?.eq_def]
    simp only [if_neg hquotes, if_neg hopening, if_neg hdepth, if_true]
  | case10 depth c t hquotes hopening hclosing ih =>
    refine balanced?_plainSigns_cons (fun w => ?_) (ih hnone)
    have hdiffer {x : Char} (hx : x ≠ '?' ∧ x ≠ '$') (hc : c ≠ x) : plainSign c ≠ x :=
      mt (plainSign_eq_iff hx).1 hc
    rw [not_or] at hquotes
    rw [balanced?.eq_def]
    simp only [hdiffer (by decide) hquotes.1, hdiffer (by decide) hquotes.2, or_self, if_false,
      hdiffer (by decide) hopening, hdiffer (by decide) hclosing]

theorem bare_plainSigns (t : Text) : bare (plainSigns t) = plainBoth (bare t) := by
  have hhead {x : Char} (hx : x ≠ '?' ∧ x ≠ '$') (t : Text) :
      ((plainSigns t).head? != some x) = (t.head? != some x) := by
    rw [Bool.eq_iff_iff, bne_iff_ne, bne_iff_ne, Ne, Ne, head?_plainSigns hx]
  have hsign {x : Char} (hx : x ≠ '?' ∧ x ≠ '$') (c : Char) : (plainSign c == x) = (c == x) := by
    rw [Bool.eq_iff_iff, beq_iff_eq, beq_iff_eq, plainSign_eq_iff hx]
  induction t with
  | nil => rfl
  | cons c t ih =>
    rw [plainSigns_cons, bare, bare, hhead (by decide), hhead (by decide), hhead (by decide),
      hsign (by decide), hsign (by decide), hsign (by decide),
      apply_plainSign (f := isBare) (by decide), ih]
    split <;> rfl

theorem simple?_plainSigns (t : Text) : simple? (plainSigns t) = (simple? t).map plainBoth := by
  unfold simple?
  rw [Quoted.take?_plainSigns, bare_plainSigns]
  cases Quoted.take? t with
  | some found => rfl
  | none => rcases bare t with ⟨_ | ⟨c, s⟩, r⟩ <;> rfl

/-- What is read of a sample, with its signs changed. -/
def plainReading : Reading → Reading
  | .taken s r => .taken (plainSigns s) (plainSigns r)
  | r => r

theorem read_plainSigns (t : Text) : read (plainSigns t) = plainReading (read t) := by
  have hhead : (plainSigns t).head? = some '(' ↔ t.head? = some '(' := head?_plainSigns (by decide)
  unfold read
  rw [balanced?_plainSigns (by simp), simple?_plainSigns]
  simp only [hhead]
  split
  · cases balanced? 0 none t <;> rfl
  · cases simple? t <;> rfl

end Sample

namespace Lexeme

variable {l m : Lexeme}

/-- The lexeme of a text with its signs changed. -/
def plainSigned : Lexeme → Lexeme
  | plain c => plain (plainSign c)
  | quoted q body => quoted q (plainSigns body)
  | remark body => remark (plainSigns body)
  | comment body => comment (plainSigns body)
  | hint body => hint (plainSigns body)
  | lineDirective body => lineDirective (plainSigns body)
  | blockDirective body sample => blockDirective (plainSigns body) (sample.map plainSigns)
  | openQuote q rest => openQuote q (plainSigns rest)
  | openComment rest => openComment (plainSigns rest)
  | openSample body rest => openSample (plainSigns body) (plainSigns rest)
  | l => l

/-- A lexeme and what is left behind it, with their signs changed. -/
def plainPair (p : Lexeme × Text) : Lexeme × Text := (p.1.plainSigned, plainSigns p.2)

theorem useOf_plainSigns (t : Text) : useOf (plainSigns t) = useOf t := by
  have hblank := isBlankText_plainSigns t
  unfold useOf
  rw [hblank]
  split
  · rfl
  · cases t with
    | nil => rfl
    | cons c t =>
      by_cases hc : c = '?'
      · subst hc
        rfl
      · rw [plainSigns_cons, plainSign_of_ne hc]
        split <;> simp_all

theorem isLineDirective_cons_cons (c d : Char) (t : Text) :
    isLineDirective (c :: d :: t) = (c == ' ' && isIntroducer d) := by
  unfold isLineDirective
  split <;> simp_all

theorem isLineDirective_plainSigns (t : Text) :
    isLineDirective (plainSigns t) = isLineDirective t := by
  match t with
  | [] => rfl
  | [c] =>
    have hone (x : Char) : isLineDirective [x] = false := by
      unfold isLineDirective
      split <;> simp_all
    rw [plainSigns_cons, plainSigns_nil, hone, hone]
  | c :: d :: t =>
    have hspace : (plainSign c == ' ') = (c == ' ') := by
      rw [Bool.eq_iff_iff, beq_iff_eq, beq_iff_eq, plainSign_eq_iff (by decide)]
    rw [plainSigns_cons, plainSigns_cons, isLineDirective_cons_cons, isLineDirective_cons_cons,
      hspace, apply_plainSign (f := isIntroducer) (by decide)]

theorem ofBlock_plainSigns (body rest : Text) :
    ofBlock (plainSigns body) (plainSigns rest) = plainPair (ofBlock body rest) := by
  unfold ofBlock
  rw [useOf_plainSigns, Sample.read_plainSigns]
  cases useOf body with
  | nothing => rfl
  | hint => rfl
  | directive => cases Sample.read rest <;> rfl

theorem ofLine_plainSigns (body : Text) : ofLine (plainSigns body) = (ofLine body).plainSigned := by
  unfold ofLine
  rw [isLineDirective_plainSigns]
  split <;> rfl

theorem ofDelimiter_plainSigns (d : Delimiter) (t : Text) :
    ofDelimiter d (plainSigns t) = plainPair (ofDelimiter d t) := by
  cases d with
  | lineEnd e => rfl
  | opening => rfl
  | closing => rfl
  | commentClose => rfl
  | quote q =>
    simp only [ofDelimiter, Quoted.closing?_plainSigns q.char_ne]
    cases Quoted.closing? q.char t <;> rfl
  | dashes =>
    simp only [ofDelimiter, restOfLine_plainSigns, plainBoth, ofLine_plainSigns]
    rfl
  | commentOpen =>
    simp only [ofDelimiter, Comment.close?_plainSigns]
    cases Comment.close? 0 t with
    | none => rfl
    | some found => exact ofBlock_plainSigns found.1 found.2

theorem first_plainSigns (c : Char) (t : Text) :
    first (plainSign c) (plainSigns t) = plainPair (first c t) := by
  unfold first
  rw [← plainSigns_cons, Delimiter.take?_plainSigns]
  cases Delimiter.take? (c :: t) with
  | none => rfl
  | some found => exact ofDelimiter_plainSigns found.1 found.2

end Lexeme

/-- A text is cut in the same places with its signs changed. -/
theorem lexemes_plainSigns (t : Text) :
    lexemes (plainSigns t) = (lexemes t).map Lexeme.plainSigned := by
  fun_induction lexemes t with
  | case1 => rw [plainSigns_nil, lexemes_nil, List.map_nil]
  | case2 c t ih =>
    rw [plainSigns_cons, lexemes_cons, Lexeme.first_plainSigns, Lexeme.plainPair, ih, List.map_cons]

namespace Lexeme

variable {l m : Lexeme}

theorem source_plainSigned (l : Lexeme) : l.plainSigned.source = plainSigns l.source := by
  cases l with
  | lineEnd e => cases e <;> rfl
  | quoted q body => cases q <;> rfl
  | openQuote q rest => cases q <;> rfl
  | blockDirective body sample => cases sample <;> simp [plainSigned, source, plainSign]
  | _ => simp [plainSigned, source, plainSign]

/-- A lexeme is determined by its text and by what it is with its signs changed. -/
theorem eq_of_plainSigned_eq (h : l.plainSigned = m.plainSigned) (hsource : l.source = m.source) :
    l = m := by
  have hlength {t u : Text} (htu : plainSigns t = plainSigns u) : t.length = u.length := by
    rw [← length_plainSigns t, htu, length_plainSigns]
  cases l <;> cases m <;> simp only [plainSigned, reduceCtorEq] at h
  case blockDirective.blockDirective body sample body' sample' =>
    obtain ⟨hbody, hsample⟩ := blockDirective.inj h
    obtain ⟨rfl, hrest⟩ := List.append_inj (List.cons.inj (List.cons.inj hsource).2).2 (hlength hbody)
    cases sample <;> cases sample' <;> simp_all
  case openSample.openSample body rest body' rest' =>
    obtain ⟨hbody, -⟩ := openSample.inj h
    obtain ⟨rfl, hrest⟩ := List.append_inj (List.cons.inj (List.cons.inj hsource).2).2 (hlength hbody)
    simp_all
  all_goals simp_all [source]

theorem eq_of_map_plainSigned_eq {ls ms : List Lexeme}
    (h : ls.map plainSigned = ms.map plainSigned)
    (hsource : ls.flatMap source = ms.flatMap source) : ls = ms := by
  induction ls generalizing ms with
  | nil => exact (List.map_eq_nil_iff.1 h.symm).symm
  | cons l ls ih =>
    obtain ⟨m, ms, rfl, hl, hls⟩ := List.map_eq_cons_iff.1 h.symm
    have hlength : l.source.length = m.source.length := by
      rw [← length_plainSigns, ← source_plainSigned, ← hl, source_plainSigned, length_plainSigns]
    rw [List.flatMap_cons, List.flatMap_cons] at hsource
    obtain ⟨hfirst, hrest⟩ := List.append_inj hsource hlength
    rw [eq_of_plainSigned_eq hl.symm hfirst, ih hls.symm hrest]

theorem plainSigns_flatMap_source (ls : List Lexeme) :
    plainSigns (ls.flatMap source) = (ls.map plainSigned).flatMap source := by
  induction ls with
  | nil => rfl
  | cons l ls ih =>
    rw [List.flatMap_cons, plainSigns_append, List.map_cons, List.flatMap_cons, source_plainSigned, ih]

end Lexeme

/-- Lexemes that are those of a text but for their signs are the lexemes of their own text. -/
theorem lexemes_flatMap_source {t : Text} {ls : List Lexeme}
    (h : ls.map Lexeme.plainSigned = (lexemes t).map Lexeme.plainSigned) :
    lexemes (ls.flatMap Lexeme.source) = ls := by
  have hplain : plainSigns (ls.flatMap Lexeme.source) = plainSigns t := by
    rw [Lexeme.plainSigns_flatMap_source, h, ← Lexeme.plainSigns_flatMap_source, source_lexemes]
  refine Lexeme.eq_of_map_plainSigned_eq ?_ (source_lexemes _)
  rw [← lexemes_plainSigns, hplain, lexemes_plainSigns, h]

end SqlTemplate
