import Mathlib.Data.List.Forall2
import SqlTemplate.Proofs.Directive.Spelling
import SqlTemplate.Proofs.Text.Parted

/-!
# Texts of connectives alone

A text from which all conditions are gone may still hold the connectives that joined them.
`Connective.Only k t` says that `t` consists of `k` connectives and of blanks. Such a text loses
exactly one connective at an end where it is cleaned (`Only.dropLeading`, `Only.dropTrailing`,
`Only.dropIntroduction`), and a text that becomes such a text where it is cleaned was one with at
most one connective more. Texts of connectives can be put together and taken apart at blanks.
-/

namespace SqlTemplate

/-- A text that spells the letters of a word. -/
def Spells (word u : Text) : Prop := List.Forall₂ (fun l c => isLetter l c = true) word u

theorem afterLetters?_append {word u : Text} (h : Spells word u) (rest : Text) :
    afterLetters? word (u ++ rest) = some rest := by
  induction h with
  | nil => rfl
  | cons hc _ ih => rw [List.cons_append, afterLetters?_cons_cons, if_pos hc, ih]

theorem exists_spells_of_afterLetters? {word t rest : Text} (h : afterLetters? word t = some rest) :
    ∃ u, t = u ++ rest ∧ Spells word u := by
  induction word generalizing t with
  | nil =>
    cases h
    exact ⟨[], rfl, .nil⟩
  | cons l word ih =>
    cases t with
    | nil => cases h
    | cons c t =>
      rw [afterLetters?_cons_cons] at h
      split at h
      · rename_i hc
        obtain ⟨u, rfl, hu⟩ := ih h
        exact ⟨c :: u, rfl, .cons hc hu⟩
      · cases h

/-- A keyword is read off the start of a text just where the text begins with its letters and the
word ends there. -/
theorem keywordStart?_eq_some_iff {word t rest : Text} :
    keywordStart? word t = some rest ↔
      ∃ u, t = u ++ rest ∧ Spells word u ∧ beginsOutsideWord rest = true := by
  rw [keywordStart?, Option.filter_eq_some_iff]
  constructor
  · rintro ⟨hletters, hrest⟩
    obtain ⟨u, ht, hu⟩ := exists_spells_of_afterLetters? hletters
    exact ⟨u, ht, hu, hrest⟩
  · rintro ⟨u, rfl, hu, hrest⟩
    exact ⟨afterLetters?_append hu rest, hrest⟩

theorem Spells.reverse {word u : Text} (h : Spells word u) : Spells word.reverse u.reverse :=
  List.forall₂_reverse_iff.2 h

theorem parted_of_isBlankText {t : Text} (h : isBlankText t = true) (u : Text) :
    Parted t u ∧ Parted u t := by
  have hreverse : isBlankText t.reverse = true := by rwa [isBlankText, List.all_reverse]
  have hbegins {v : Text} (hv : isBlankText v = true) : beginsOutsideWord v = true := by
    cases v with
    | nil => rfl
    | cons c v =>
      rw [beginsOutsideWord_cons, isWord_eq_false_of_isBlank (Bool.and_eq_true_iff.1 hv).1]
      rfl
  exact ⟨.inl (hbegins hreverse), .inr (hbegins h)⟩

theorem Parted.of_append {u v t : Text} (h : Parted (u ++ v) t) : Parted v t := by
  induction u with
  | nil => exact h
  | cons c u ih => exact ih h.tail

/-- Behind the letters of a word a text begins outside of a word if it is parted from them. -/
theorem beginsOutsideWord_of_parted {u t : Text} (hne : u ≠ []) (hu : ∀ c ∈ u, isWord c = true)
    (h : Parted u t) : beginsOutsideWord t = true := by
  refine h.resolve_left ?_
  obtain ⟨c, v, hv⟩ := List.exists_cons_of_ne_nil (mt List.reverse_eq_nil_iff.1 hne)
  have hc : isWord c = true := hu c (List.mem_reverse.1 (hv ▸ List.mem_cons_self))
  rw [hv, beginsOutsideWord_cons, hc]
  simp

theorem beginsOutsideWord_append {u t : Text} (hu : beginsOutsideWord u = true)
    (ht : u = [] → beginsOutsideWord t = true) : beginsOutsideWord (u ++ t) = true := by
  cases u with
  | nil => exact ht rfl
  | cons c u => exact hu

theorem beginsOutsideWord_of_append {u t : Text} (h : beginsOutsideWord (u ++ t) = true) :
    beginsOutsideWord u = true := by
  cases u with
  | nil => rfl
  | cons c u => exact h

theorem Spells.exists_letter {word u : Text} (h : Spells word u) :
    ∀ c ∈ u, ∃ l ∈ word, isLetter l c = true := by
  induction h with
  | nil => simp
  | cons hc _ ih =>
    refine List.forall_mem_cons.2 ⟨⟨_, List.mem_cons_self, hc⟩, fun c hcu => ?_⟩
    obtain ⟨l, hl, hlc⟩ := ih c hcu
    exact ⟨l, List.mem_cons_of_mem _ hl, hlc⟩

namespace Connective

/-- The letters of connectives and of introducing words are word characters. -/
theorem isWord_of_spells {word u : Text} (hword : word ∈ introducing) (h : Spells word u) :
    ∀ c ∈ u, isWord c = true := by
  intro c hc
  obtain ⟨l, hl, hlc⟩ := h.exists_letter c hc
  have hletters : introducing.all fun w =>
      w.all fun l => isWord l && isWord l.toLower && l != 'K' := by decide
  have hletter := List.all_eq_true.1 (List.all_eq_true.1 hletters word hword) l hl
  have hdotted : isWord '\u0130' = true := by decide +kernel
  have hdotless : isWord '\u0131' = true := by decide +kernel
  simp only [Bool.and_eq_true, bne_iff_ne] at hletter
  simp only [isLetter, Bool.or_eq_true, Bool.and_eq_true, beq_iff_eq, hletter.2, false_and,
    or_false] at hlc
  rcases hlc with (rfl | rfl) | ⟨-, rfl | rfl⟩
  · exact hletter.1.1
  · exact hletter.1.2
  · exact hdotted
  · exact hdotless

theorem ne_nil_of_spells {word u : Text} (hword : word ∈ introducing) (h : Spells word u) :
    u ≠ [] := by
  rintro rfl
  cases h
  revert hword
  decide

/-- Whatever word is read off the start of a text that begins with letters, it is all of them. -/
theorem eq_of_keywordStart? {word u rest after : Text}
    (hword : ∀ v, Spells word v → ∀ c ∈ v, isWord c = true) (hu : ∀ c ∈ u, isWord c = true)
    (hrest : beginsOutsideWord rest = true) (h : keywordStart? word (u ++ rest) = some after) :
    after = rest := by
  have hhead {t : Text} (ht : beginsOutsideWord t = true) : ∀ c ∈ t.head?, isWord c = false := by
    intro c hc
    cases t with
    | nil => cases hc
    | cons d t =>
      cases hc
      simpa using ht
  obtain ⟨v, hsplit, hv, hafter⟩ := keywordStart?_eq_some_iff.1 h
  have hdrop := (takeWhile_append_of_head? hu (hhead hrest)).2
  rw [hsplit, (takeWhile_append_of_head? (hword v hv) (hhead hafter)).2] at hdrop
  exact hdrop

/-- Reading one of several words off the start of a text that begins with the letters of one. -/
theorem findSome?_keywordStart? {wordList : List Text} {word u rest : Text}
    (hwords : ∀ w ∈ wordList, ∀ v, Spells w v → ∀ c ∈ v, isWord c = true) (hword : word ∈ wordList)
    (hu : Spells word u) (hrest : beginsOutsideWord rest = true) :
    (wordList.findSome? fun w => keywordStart? w (u ++ rest)) = some rest := by
  have hstart : keywordStart? word (u ++ rest) = some rest :=
    keywordStart?_eq_some_iff.2 ⟨u, rfl, hu, hrest⟩
  obtain ⟨after, hafter⟩ :
      ∃ after, (wordList.findSome? fun w => keywordStart? w (u ++ rest)) = some after := by
    rw [← Option.isSome_iff_exists, List.findSome?_isSome_iff]
    exact ⟨word, hword, by rw [hstart]; rfl⟩
  obtain ⟨w, hw, hread⟩ := List.exists_of_findSome?_eq_some hafter
  rw [hafter, eq_of_keywordStart? (hwords w hw) (hwords word hword u hu) hrest hread]

theorem afterLeading?_of_head? {t : Text} (h : t.head? ≠ some ',') :
    afterLeading? t = (joining.findSome? fun word => keywordStart? word t).map stripStart := by
  unfold afterLeading?
  split
  · exact absurd rfl h
  · rfl

/-- A text that begins with the letters of a word does not begin with a comma. -/
theorem head?_ne_comma {u : Text} (hne : u ≠ []) (hu : ∀ c ∈ u, isWord c = true) (t : Text) :
    (u ++ t).head? ≠ some ',' := by
  obtain ⟨c, v, rfl⟩ := List.exists_cons_of_ne_nil hne
  rintro hc
  cases hc
  exact absurd (hu ',' List.mem_cons_self) (by decide)

/-- A text of `k` connectives that join conditions, and of blanks. -/
inductive Only : Nat → Text → Prop
  | nil : Only 0 []
  | blank {k : Nat} {c : Char} {t : Text} (hc : isBlank c = true) (ht : Only k t) : Only k (c :: t)
  | comma {k : Nat} {t : Text} (ht : Only k t) : Only (k + 1) (',' :: t)
  | word {k : Nat} {word u t : Text} (hword : word ∈ joining) (hu : Spells word u)
      (hends : beginsOutsideWord t = true) (ht : Only k t) : Only (k + 1) (u ++ t)

namespace Only

variable {j k : Nat} {c : Char} {t u gap rest : Text}

theorem of_isBlankText (h : isBlankText gap = true) : Only 0 gap := by
  induction gap with
  | nil => exact .nil
  | cons c gap ih =>
    obtain ⟨hc, hgap⟩ := Bool.and_eq_true_iff.1 h
    exact .blank hc (ih hgap)

/-- The characters of such a text are blanks, commas and letters. -/
theorem isBlank_or (h : Only k t) : ∀ c ∈ t, isBlank c = true ∨ c = ',' ∨ isWord c = true := by
  induction h with
  | nil => simp
  | blank hc _ ih => exact List.forall_mem_cons.2 ⟨.inl hc, ih⟩
  | comma _ ih => exact List.forall_mem_cons.2 ⟨.inr (.inl rfl), ih⟩
  | word hword hu _ _ ih =>
    have hletters := isWord_of_spells (mem_introducing_of_mem_joining hword) hu
    exact List.forall_mem_append.2 ⟨fun c hc => .inr (.inr (hletters c hc)), ih⟩

theorem not_mem_opening (h : Only k t) : '(' ∉ t := by
  intro hmem
  rcases h.isBlank_or _ hmem with hblank | hcomma | hword
  · exact absurd hblank (by decide)
  · exact absurd hcomma (by decide)
  · exact absurd hword (by decide)

/-- A text of blanks holds no connective. -/
theorem eq_zero_iff (h : Only k t) : k = 0 ↔ isBlankText t = true := by
  induction h with
  | nil => simp
  | blank hc _ ih => rw [ih, isBlankText_cons, hc, Bool.true_and]
  | comma => simp [show isBlank ',' = false by decide]
  | @word k word u t hword hu _ _ _ =>
    have hblank : isBlankText (u ++ t) = false := by
      obtain ⟨c, u, rfl⟩ := List.exists_cons_of_ne_nil
        (ne_nil_of_spells (mem_introducing_of_mem_joining hword) hu)
      have hc : isWord c = true :=
        isWord_of_spells (mem_introducing_of_mem_joining hword) hu c List.mem_cons_self
      have hnot : isBlank c = false := by
        by_cases hblank : isBlank c = true
        · rw [isWord_eq_false_of_isBlank hblank] at hc
          cases hc
        · simpa using hblank
      rw [List.cons_append, isBlankText_cons, hnot, Bool.false_and]
    simp [hblank]

/-- Two such texts are one, unless a word runs from one into the other. -/
theorem append (hu : Only j u) (ht : Only k t) (hparted : Parted u t) : Only (j + k) (u ++ t) := by
  induction hu with
  | nil => simpa using ht
  | blank hc _ ih => exact .blank hc (ih hparted.tail)
  | comma _ ih =>
    rw [Nat.add_right_comm]
    exact .comma (ih hparted.tail)
  | @word i word v w hword hv hends _ ih =>
    have hne := ne_nil_of_spells (mem_introducing_of_mem_joining hword) hv
    have hletters := isWord_of_spells (mem_introducing_of_mem_joining hword) hv
    rw [Nat.add_right_comm, List.append_assoc]
    refine .word hword hv (beginsOutsideWord_append hends fun hw => ?_) (ih hparted.of_append)
    rw [hw, List.append_nil] at hparted
    exact beginsOutsideWord_of_parted hne hletters hparted

/-- Such a text is taken apart at a blank. -/
theorem split (h : Only k (u ++ c :: t)) (hc : isBlank c = true) :
    ∃ i j, i + j = k ∧ Only i u ∧ Only j t := by
  generalize hs : u ++ c :: t = s at h
  induction h generalizing u with
  | nil => simp at hs
  | @blank k d s hd hrest ih =>
    cases u with
    | nil =>
      obtain ⟨rfl, rfl⟩ := List.cons.inj hs
      exact ⟨0, k, Nat.zero_add k, .nil, hrest⟩
    | cons x u =>
      obtain ⟨rfl, htail⟩ := List.cons.inj hs
      obtain ⟨i, j, hij, hu, ht⟩ := ih htail
      exact ⟨i, j, hij, .blank hd hu, ht⟩
  | comma _ ih =>
    cases u with
    | nil =>
      obtain ⟨rfl, -⟩ := List.cons.inj hs
      exact absurd hc (by decide)
    | cons x u =>
      obtain ⟨rfl, htail⟩ := List.cons.inj hs
      obtain ⟨i, j, rfl, hu, ht⟩ := ih htail
      exact ⟨i + 1, j, Nat.add_right_comm i 1 j, .comma hu, ht⟩
  | @word k word v w hword hv hends _ ih =>
    have hletters := isWord_of_spells (mem_introducing_of_mem_joining hword) hv
    have hsplit : ∃ u', u = v ++ u' ∧ u' ++ c :: t = w := by
      rcases List.append_eq_append_iff.1 hs with ⟨a, rfl, ha⟩ | ⟨u', hu', hw⟩
      · cases a with
        | nil => exact ⟨[], by simp, by simpa using ha⟩
        | cons x a =>
          obtain ⟨rfl, -⟩ := List.cons.inj ha
          have hword := hletters c (by simp)
          rw [isWord_eq_false_of_isBlank hc] at hword
          cases hword
      · exact ⟨u', hu', hw.symm⟩
    obtain ⟨u', rfl, hw⟩ := hsplit
    obtain ⟨i, j, rfl, hu, ht⟩ := ih hw
    rw [← hw] at hends
    exact ⟨i + 1, j, Nat.add_right_comm i 1 j,
      .word hword hv (beginsOutsideWord_of_append hends) hu, ht⟩

theorem append_gap_iff (hgap : isBlankText gap = true) : Only k (t ++ gap) ↔ Only k t := by
  constructor
  · intro h
    cases gap with
    | nil => rwa [List.append_nil] at h
    | cons c gap =>
      obtain ⟨hc, hgap⟩ := Bool.and_eq_true_iff.1 hgap
      obtain ⟨i, j, rfl, ht, hj⟩ := h.split hc
      rwa [hj.eq_zero_iff.2 hgap]
  · intro h
    exact h.append (of_isBlankText hgap) (parted_of_isBlankText hgap t).2

theorem gap_append_iff (hgap : isBlankText gap = true) : Only k (gap ++ t) ↔ Only k t := by
  induction gap with
  | nil => rfl
  | cons c gap ih =>
    obtain ⟨hc, hgap⟩ := Bool.and_eq_true_iff.1 hgap
    rw [← ih hgap]
    constructor
    · intro h
      obtain ⟨i, j, rfl, hi, hj⟩ := Only.split (u := []) h hc
      rwa [hi.eq_zero_iff.2 rfl, Nat.zero_add]
    · exact .blank hc

theorem stripStart_iff : Only k (stripStart t) ↔ Only k t := by
  obtain ⟨gap, hgap, ht⟩ := exists_append_stripStart t
  rw [← gap_append_iff hgap, ← ht]

theorem stripEnd_iff : Only k (stripEnd t) ↔ Only k t := by
  obtain ⟨gap, hgap, ht⟩ := exists_stripEnd_append t
  rw [← append_gap_iff hgap, ← ht]

theorem strip_iff : Only k (strip t) ↔ Only k t := by
  rw [strip, stripEnd_iff, stripStart_iff]

/-! ### The connective at the start -/

theorem exists_afterLeading? (h : Only k t) (hne : t ≠ []) (hstart : stripStart t = t) :
    ∃ rest j, afterLeading? t = some rest ∧ j + 1 = k ∧ Only j rest := by
  cases h with
  | nil => exact absurd rfl hne
  | blank hc _ =>
    rw [stripStart_eq_self_iff.1 hstart _ rfl] at hc
    cases hc
  | comma ht => exact ⟨_, _, rfl, rfl, stripStart_iff.2 ht⟩
  | word hword hu hends ht =>
    have hwords : ∀ w ∈ joining, ∀ v, Spells w v → ∀ c ∈ v, isWord c = true :=
      fun w hw v => isWord_of_spells (mem_introducing_of_mem_joining hw)
    have hne := ne_nil_of_spells (mem_introducing_of_mem_joining hword) hu
    refine ⟨_, _, ?_, rfl, stripStart_iff.2 ht⟩
    rw [afterLeading?_of_head? (head?_ne_comma hne (hwords _ hword _ hu) _),
      findSome?_keywordStart? hwords hword hu hends]
    rfl

theorem of_afterLeading? (h : Only k rest) (hrest : afterLeading? t = some rest) :
    Only (k + 1) t := by
  by_cases hcomma : t.head? = some ','
  · obtain ⟨t, rfl⟩ := List.head?_eq_some_iff.1 hcomma
    obtain rfl := Option.some.inj hrest
    exact .comma (stripStart_iff.1 h)
  · rw [afterLeading?_of_head? hcomma] at hrest
    obtain ⟨after, hafter, rfl⟩ := Option.map_eq_some_iff.1 hrest
    obtain ⟨word, hword, hstart⟩ := List.exists_of_findSome?_eq_some hafter
    obtain ⟨u, rfl, hu, hends⟩ := keywordStart?_eq_some_iff.1 hstart
    exact .word hword hu hends (stripStart_iff.1 h)

/-- A connective is removed in front. -/
theorem dropLeading (h : Only k t) (hne : t ≠ []) (hstrip : strip t = t) :
    ∃ j, j + 1 = k ∧ Only j (dropLeading t) := by
  have hstart : stripStart t = t := stripStart_eq_self_iff.2 (strip_eq_self_iff.1 hstrip).1
  obtain ⟨rest, j, hrest, hj, honly⟩ := h.exists_afterLeading? hne hstart
  refine ⟨j, hj, ?_⟩
  rwa [Connective.dropLeading, hrest]

theorem of_dropLeading (h : Only k (Connective.dropLeading t)) : ∃ j, j ≤ k + 1 ∧ Only j t := by
  unfold Connective.dropLeading at h
  cases hrest : afterLeading? t with
  | none =>
    rw [hrest] at h
    exact ⟨k, Nat.le_succ k, h⟩
  | some rest =>
    rw [hrest] at h
    exact ⟨k + 1, le_rfl, of_afterLeading? h hrest⟩

/-! ### The connective at the end -/

/-- The last connective of such a text, and what stands before and behind it. -/
theorem exists_last (h : Only k t) : k = 0 ∨ ∃ front last gap j,
    t = front ++ (last ++ gap) ∧ isBlankText gap = true ∧ j + 1 = k ∧ Only j front ∧
      (last = [','] ∨
        beginsOutsideWord front.reverse = true ∧ ∃ word ∈ joining, Spells word last) := by
  have hcons {c : Char} {front : Text} (hc : isWord c = false)
      (h : beginsOutsideWord front.reverse = true) :
      beginsOutsideWord (c :: front).reverse = true := by
    rw [List.reverse_cons]
    exact beginsOutsideWord_append h fun _ => by rw [beginsOutsideWord_cons, hc]; rfl
  induction h with
  | nil => exact .inl rfl
  | @blank k c t hc ht ih =>
    refine ih.imp_right ?_
    rintro ⟨front, last, gap, j, rfl, hgap, hj, hfront, hlast⟩
    refine ⟨c :: front, last, gap, j, rfl, hgap, hj, .blank hc hfront, ?_⟩
    exact hlast.imp_right (And.imp_left (hcons (isWord_eq_false_of_isBlank hc)))
  | @comma k t ht ih =>
    right
    rcases ih with hzero | ⟨front, last, gap, j, rfl, hgap, hj, hfront, hlast⟩
    · exact ⟨[], [','], t, k, rfl, ht.eq_zero_iff.1 hzero, rfl, by rw [hzero]; exact .nil, .inl rfl⟩
    · refine ⟨',' :: front, last, gap, j + 1, rfl, hgap, by rw [hj], .comma hfront, ?_⟩
      exact hlast.imp_right (And.imp_left (hcons (by decide)))
  | @word k word u t hword hu hends ht ih =>
    right
    rcases ih with hzero | ⟨front, last, gap, j, rfl, hgap, hj, hfront, hlast⟩
    · exact ⟨[], u, t, k, rfl, ht.eq_zero_iff.1 hzero, rfl, by rw [hzero]; exact .nil,
        .inr ⟨rfl, word, hword, hu⟩⟩
    · refine ⟨u ++ front, last, gap, j + 1, (List.append_assoc _ _ _).symm, hgap, by rw [hj],
        .word hword hu (beginsOutsideWord_of_append hends) hfront, ?_⟩
      refine hlast.imp_right ?_
      rintro ⟨houtside, last', hmem, hlast⟩
      refine ⟨?_, last', hmem, hlast⟩
      rw [List.reverse_append]
      refine beginsOutsideWord_append houtside fun hnil => ?_
      -- Two words do not touch, so something stands between this one and the last one.
      rw [List.reverse_eq_nil_iff.1 hnil, List.nil_append] at hends
      have hletters := isWord_of_spells (mem_introducing_of_mem_joining hmem) hlast
      obtain ⟨c, v, rfl⟩ := List.exists_cons_of_ne_nil
        (ne_nil_of_spells (mem_introducing_of_mem_joining hmem) hlast)
      rw [List.cons_append, beginsOutsideWord_cons, hletters c List.mem_cons_self] at hends
      cases hends

theorem exists_beforeTrailing? {wordList : List Text} (hjoining : ∀ w ∈ joining, w ∈ wordList)
    (hintroducing : ∀ w ∈ wordList, w ∈ introducing) (h : Only k t) (hne : t ≠ [])
    (hend : stripEnd t = t) :
    ∃ rest j, beforeTrailing? wordList t = some rest ∧ j + 1 = k ∧ Only j rest := by
  have hnotBlank {u gap : Text} (ht : t = u ++ gap) (hgap : isBlankText gap = true) : gap = [] := by
    rcases List.eq_nil_or_concat gap with hnil | ⟨front, c, rfl⟩
    · exact hnil
    · have hc : isBlank c = true := List.all_eq_true.1 hgap c (by simp)
      rw [stripEnd_eq_self_iff.1 hend c (by rw [ht]; simp)] at hc
      cases hc
  rcases h.exists_last with hzero | ⟨front, last, gap, j, ht, hgap, hj, hfront, hlast⟩
  · exact absurd (hnotBlank (List.nil_append t).symm (h.eq_zero_iff.1 hzero)) hne
  · have hnil : gap = [] := hnotBlank (by rw [ht, List.append_assoc]) hgap
    rw [hnil, List.append_nil] at ht
    refine ⟨stripEnd front, j, ?_, hj, stripEnd_iff.2 hfront⟩
    rcases hlast with rfl | ⟨hends, word, hword, hspells⟩
    · rw [beforeTrailing?, ht, List.reverse_append]
      rfl
    · have hbackwards : ∀ w ∈ wordList.map List.reverse, ∀ v, Spells w v →
          ∀ c ∈ v, isWord c = true := by
        intro w hw v hv c hc
        obtain ⟨w', hw', rfl⟩ := List.mem_map.1 hw
        have hreverse : Spells w' v.reverse := by simpa using hv.reverse
        exact isWord_of_spells (hintroducing w' hw') hreverse c (List.mem_reverse.2 hc)
      have hmem : word.reverse ∈ wordList.map List.reverse := List.mem_map_of_mem (hjoining word hword)
      have hfound := findSome?_keywordStart? hbackwards hmem hspells.reverse hends
      rw [List.findSome?_map, Function.comp_def] at hfound
      have hhead : (last.reverse ++ front.reverse).head? ≠ some ',' := by
        refine head?_ne_comma ?_ (hbackwards _ hmem _ hspells.reverse) _
        exact mt List.reverse_eq_nil_iff.1
          (ne_nil_of_spells (mem_introducing_of_mem_joining hword) hspells)
      have hread := beforeTrailing?_reverse wordList (last.reverse ++ front.reverse) hhead
      rw [← List.reverse_append, List.reverse_reverse, ← ht] at hread
      rw [hread, ht, List.reverse_append, hfound]
      rfl

theorem of_beforeTrailing? (h : Only k rest) (hrest : beforeTrailing? joining t = some rest) :
    Only (k + 1) t := by
  have hfront {before : Text} (hbefore : (stripStart before).reverse = rest) :
      Only k before.reverse := by
    rw [← stripEnd_iff, stripEnd, List.reverse_reverse, hbefore]
    exact h
  by_cases hcomma : t.reverse.head? = some ','
  · obtain ⟨before, hbefore⟩ := List.head?_eq_some_iff.1 hcomma
    rw [beforeTrailing?, hbefore] at hrest
    have ht : t = before.reverse ++ [','] := by rw [← List.reverse_reverse t, hbefore]; simp
    rw [ht]
    exact (hfront (Option.some.inj hrest)).append (.comma .nil) (.inr (by decide))
  · have hread := beforeTrailing?_reverse joining t.reverse hcomma
    rw [List.reverse_reverse, hrest] at hread
    obtain ⟨before, hfound, hbefore⟩ := Option.map_eq_some_iff.1 hread.symm
    obtain ⟨word, hword, hstart⟩ := List.exists_of_findSome?_eq_some hfound
    obtain ⟨u, hu, hspells, hends⟩ := keywordStart?_eq_some_iff.1 hstart
    have ht : t = before.reverse ++ u.reverse := by
      rw [← List.reverse_reverse t, hu, List.reverse_append]
    have hlast : Only 1 (u.reverse ++ []) :=
      .word hword (by simpa using hspells.reverse) rfl .nil
    rw [List.append_nil] at hlast
    rw [ht]
    exact (hfront hbefore).append hlast (.inl (by rwa [List.reverse_reverse]))

/-- A connective is removed behind. -/
theorem dropTrailing (h : Only k t) (hne : t ≠ []) (hstrip : strip t = t) :
    ∃ j, j + 1 = k ∧ Only j (dropTrailing t) := by
  obtain ⟨rest, j, hrest, hj, honly⟩ := h.exists_beforeTrailing? (fun _ hw => hw)
    (fun _ => mem_introducing_of_mem_joining) hne
    (stripEnd_eq_self_iff.2 (strip_eq_self_iff.1 hstrip).2)
  refine ⟨j, hj, ?_⟩
  rwa [Connective.dropTrailing, hrest]

theorem of_dropTrailing (h : Only k (Connective.dropTrailing t)) : ∃ j, j ≤ k + 1 ∧ Only j t := by
  unfold Connective.dropTrailing at h
  cases hrest : beforeTrailing? joining t with
  | none =>
    rw [hrest] at h
    exact ⟨k, Nat.le_succ k, h⟩
  | some rest =>
    rw [hrest] at h
    exact ⟨k + 1, le_rfl, of_beforeTrailing? h hrest⟩

theorem dropIntroduction (h : Only k t) (hne : t ≠ []) (hstrip : strip t = t) :
    ∃ j, j + 1 = k ∧ Only j (dropIntroduction t) := by
  obtain ⟨rest, j, hrest, hj, honly⟩ := h.exists_beforeTrailing?
    (fun _ => mem_introducing_of_mem_joining) (fun _ hw => hw) hne
    (stripEnd_eq_self_iff.2 (strip_eq_self_iff.1 hstrip).2)
  refine ⟨j, hj, ?_⟩
  rwa [Connective.dropIntroduction, hrest]

end Only

end Connective

end SqlTemplate
