import SqlTemplate.Proofs.Text.Trimming

/-!
# Connectives at both ends of a text

A text may begin and end with a connective. `Parted` says that no word runs from one text into the
next, as where a connective is taken off in front. What is taken off behind is then the same before
and after (`beforeTrailing?_append`), unless the two ends are one and the same connective.
-/

namespace SqlTemplate

/-- No word runs from one text into the next. -/
def Parted (u t : Text) : Prop :=
  beginsOutsideWord u.reverse = true ∨ beginsOutsideWord t = true

theorem Parted.reverse {u t : Text} (h : Parted u t) : Parted t.reverse u.reverse := by
  rw [Parted, List.reverse_reverse]
  exact h.symm

theorem parted_of_getLast {u t : Text} {c : Char} (h : isWord c = false) :
    Parted (u ++ [c]) t := by
  left
  rw [List.reverse_append, List.reverse_singleton, List.singleton_append, beginsOutsideWord_cons, h]
  rfl

def blankCodes : List Nat :=
  [9, 10, 11, 12, 13, 28, 29, 30, 31, 32, 0x85, 0xA0, 0x1680, 0x2000, 0x2001, 0x2002, 0x2003, 0x2004,
    0x2005, 0x2006, 0x2007, 0x2008, 0x2009, 0x200A, 0x2028, 0x2029, 0x202F, 0x205F, 0x3000]

theorem isWord_eq_false_of_isBlank {c : Char} (h : isBlank c = true) : isWord c = false := by
  have hcode : c.toNat ∈ blankCodes := by
    simp only [isBlank, Bool.or_eq_true, Bool.and_eq_true, decide_eq_true_eq, beq_iff_eq] at h
    simp only [blankCodes, List.mem_cons, List.not_mem_nil, or_false]
    omega
  have hall : blankCodes.all fun code => !isWord (Char.ofNat code) := by decide +kernel
  have hword := List.all_eq_true.1 hall c.toNat hcode
  rw [Char.ofNat_toNat] at hword
  simpa using hword

theorem isWord_of_isLetter {word : Text} (hword : word ∈ Connective.joining) {l c : Char}
    (hl : l ∈ word) (h : isLetter l c = true) : isWord c = true := by
  have hletters : Connective.joining.all fun w =>
      w.all fun l => isWord l && isWord l.toLower && l != 'I' && l != 'K' := by decide
  have hletter := List.all_eq_true.1 (List.all_eq_true.1 hletters word hword) l hl
  simp only [Bool.and_eq_true, bne_iff_ne] at hletter
  obtain ⟨⟨⟨hupper, hlower⟩, hi⟩, hk⟩ := hletter
  simp only [isLetter, Bool.or_eq_true, Bool.and_eq_true, beq_iff_eq, hi, hk, false_and, or_false]
    at h
  rcases h with rfl | rfl
  · exact hupper
  · exact hlower

theorem stripStart_append_of_ne_nil {t u : Text} (h : stripStart t ≠ []) :
    stripStart (t ++ u) = stripStart t ++ u := by
  rw [stripStart, List.dropWhile_append, if_neg]
  · rfl
  · exact mt List.isEmpty_iff.1 h

theorem keywordStart?_nil (t : Text) :
    keywordStart? [] t = if beginsOutsideWord t then some t else none := by
  rw [keywordStart?, afterLetters?_nil, Option.filter_some]

theorem keywordStart?_cons_cons (l c : Char) (word t : Text) :
    keywordStart? (l :: word) (c :: t) = if isLetter l c then keywordStart? word t else none := by
  rw [keywordStart?, afterLetters?_cons_cons]
  split <;> rfl

/-- No keyword begins where no word does. -/
theorem keywordStart?_eq_none {l : Char} {word t : Text}
    (hl : ∀ c, isLetter l c = true → isWord c = true) (ht : beginsOutsideWord t = true) :
    keywordStart? (l :: word) t = none := by
  cases t with
  | nil => rfl
  | cons c t =>
      rw [keywordStart?_cons_cons, if_neg]
      intro hc
      rw [beginsOutsideWord_cons, hl c hc] at ht
      simp at ht

theorem Parted.tail {c : Char} {u t : Text} (h : Parted (c :: u) t) : Parted u t := by
  rcases h with hu | ht
  · left
    rw [List.reverse_cons] at hu
    cases hreverse : u.reverse with
    | nil => rfl
    | cons d v =>
        rw [hreverse] at hu
        exact hu
  · exact .inr ht

/-- A keyword is read off a text as it is read off the text in front of a part, if that part is not
empty and no word runs out of it. -/
theorem keywordStart?_append {word front back : Text}
    (hword : ∀ l ∈ word, ∀ c, isLetter l c = true → isWord c = true)
    (hnil : front = [] → beginsOutsideWord back = true) (hparted : Parted front back) :
    keywordStart? word (front ++ back) = (keywordStart? word front).map (· ++ back) := by
  induction word generalizing front with
  | nil =>
      rw [keywordStart?_nil, keywordStart?_nil]
      cases front with
      | nil =>
          rw [List.nil_append, if_pos (hnil rfl)]
          rfl
      | cons c front =>
          rw [List.cons_append, beginsOutsideWord_cons, beginsOutsideWord_cons]
          split <;> rfl
  | cons l word ih =>
      obtain ⟨hl, hword⟩ := List.forall_mem_cons.1 hword
      cases front with
      | nil =>
          rw [List.nil_append, keywordStart?_eq_none hl (hnil rfl)]
          rfl
      | cons c front =>
          rw [List.cons_append, keywordStart?_cons_cons, keywordStart?_cons_cons]
          by_cases hc : isLetter l c = true
          · rw [if_pos hc, if_pos hc]
            refine ih hword ?_ hparted.tail
            intro hfront
            rw [hfront] at hparted
            refine hparted.resolve_left ?_
            simp [hl c hc]
          · rw [if_neg hc, if_neg hc]
            rfl

theorem findSome?_congr_of_mem {α β : Type} {f g : α → Option β} {xs : List α}
    (h : ∀ a ∈ xs, f a = g a) : xs.findSome? f = xs.findSome? g := by
  rw [← Function.id_comp f, ← List.findSome?_map, List.map_congr_left h, List.findSome?_map,
    Function.id_comp]

namespace Connective

variable {t u rest : Text}

/-- What a connective at the start is taken off together with the blanks behind it. -/
theorem exists_parted_of_afterLeading? (h : afterLeading? t = some rest) :
    ∃ u, t = u ++ rest ∧ u ≠ [] ∧ Parted u rest := by
  unfold afterLeading? at h
  split at h
  · rename_i t
    obtain rfl := Option.some.inj h
    obtain ⟨u, hu, ht⟩ := exists_append_stripStart t
    refine ⟨',' :: u, by rw [List.cons_append, ← ht], by simp, ?_⟩
    rcases List.eq_nil_or_concat u with rfl | ⟨v, c, rfl⟩
    · exact parted_of_getLast (u := []) (by decide)
    · rw [List.concat_eq_append] at hu ⊢
      have hc : isBlank c = true := List.all_eq_true.1 hu c (by simp)
      exact parted_of_getLast (u := ',' :: v) (isWord_eq_false_of_isBlank hc)
  · obtain ⟨after, hafter, rfl⟩ := Option.map_eq_some_iff.1 h
    obtain ⟨word, hword, hstart⟩ := List.exists_of_findSome?_eq_some hafter
    have hends : beginsOutsideWord after = true := (Option.filter_eq_some_iff.1 hstart).2
    obtain ⟨v, rfl, hlength, -⟩ := exists_append_of_keywordStart? hstart
    obtain ⟨u, hu, hr⟩ := exists_append_stripStart after
    refine ⟨v ++ u, by rw [List.append_assoc, ← hr], ?_, ?_⟩
    · have hwords : ∀ w ∈ joining, w.length ≠ 0 := by decide
      intro hnil
      apply hwords word hword
      rw [← hlength, (List.append_eq_nil_iff.1 hnil).1]
      rfl
    · rcases List.eq_nil_or_concat u with rfl | ⟨w, c, rfl⟩
      · right
        rw [List.nil_append] at hr
        rwa [← hr]
      · rw [List.concat_eq_append] at hu ⊢
        have hc : isBlank c = true := List.all_eq_true.1 hu c (by simp)
        rw [← List.append_assoc]
        exact parted_of_getLast (isWord_eq_false_of_isBlank hc)

/-- Taking a connective off the end is reading the text backwards. -/
theorem beforeTrailing?_reverse (wordList : List Text) (t : Text) (ht : t.head? ≠ some ',') :
    beforeTrailing? wordList t.reverse =
      (wordList.findSome? fun word => keywordStart? word.reverse t).map
        fun before => (stripStart before).reverse := by
  have hcomma : ∀ before, t ≠ ',' :: before := by
    rintro before rfl
    exact ht rfl
  have hend : (wordList.findSome? fun word => keywordEnd? word t).map (·.1) =
      wordList.findSome? fun word => keywordStart? word.reverse t := by
    rw [List.map_findSome?]
    congr 1
    funext word
    rw [Function.comp_apply, keywordEnd?, Option.map_map]
    exact Option.map_id'
  rw [beforeTrailing?, List.reverse_reverse, ← hend, Option.map_map]
  split
  · rename_i before
    exact absurd rfl (hcomma before)
  · rfl

/-- What is found at the end of a text is found at the end of its last part, with the first part
still in front. -/
theorem beforeTrailing?_append (hne : rest ≠ []) (hparted : Parted u rest) :
    ∃ found : Option Text,
      beforeTrailing? joining rest = found.map (fun before => (stripStart before).reverse) ∧
        beforeTrailing? joining (u ++ rest) =
          found.map fun before => (stripStart (before ++ u.reverse)).reverse := by
  obtain ⟨c, back, hback⟩ := List.exists_cons_of_ne_nil (mt List.reverse_eq_nil_iff.1 hne)
  obtain rfl : rest = (c :: back).reverse := by rw [← hback, List.reverse_reverse]
  have hsplit : u ++ (c :: back).reverse = (c :: (back ++ u.reverse)).reverse := by simp
  rw [hsplit]
  by_cases hc : c = ','
  · rw [hc]
    refine ⟨some back, ?_, ?_⟩
    · rw [beforeTrailing?, List.reverse_reverse]
      rfl
    · rw [beforeTrailing?, List.reverse_reverse]
      rfl
  · have hhead : ∀ t : Text, (c :: t).head? ≠ some ',' := by
      intro t h
      exact hc (Option.some.inj h)
    have hstart : ∀ word ∈ joining, keywordStart? word.reverse ((c :: back) ++ u.reverse) =
        (keywordStart? word.reverse (c :: back)).map (· ++ u.reverse) := by
      intro word hword
      refine keywordStart?_append ?_ (by simp) ?_
      · intro l hl d hd
        exact isWord_of_isLetter hword (List.mem_reverse.1 hl) hd
      · have hbackwards := hparted.reverse
        rwa [List.reverse_reverse] at hbackwards
    refine ⟨_, beforeTrailing?_reverse joining _ (hhead back), ?_⟩
    rw [beforeTrailing?_reverse joining _ (hhead _), ← List.cons_append,
      findSome?_congr_of_mem hstart]
    rw [← Function.comp_def (Option.map (· ++ u.reverse)), ← List.map_findSome?, Option.map_map]
    rfl

/-- A connective in front does not hide the one behind it. -/
theorem isSome_beforeTrailing?_append (hne : rest ≠ []) (hparted : Parted u rest) :
    (beforeTrailing? joining (u ++ rest)).isSome = (beforeTrailing? joining rest).isSome := by
  obtain ⟨found, hrest, hall⟩ := beforeTrailing?_append hne hparted
  rw [hrest, hall, Option.isSome_map, Option.isSome_map]

/-- Whether a text starts with a connective does not depend on what follows, unless a word goes
on. -/
theorem isSome_afterLeading?_append (ht : t ≠ []) (hu : beginsOutsideWord u = true) :
    (afterLeading? (t ++ u)).isSome = (afterLeading? t).isSome := by
  obtain ⟨c, t, rfl⟩ := List.exists_cons_of_ne_nil ht
  by_cases hc : c = ','
  · rw [hc]
    rfl
  · have hread : ∀ v, afterLeading? (c :: v) =
        (joining.findSome? fun word => keywordStart? word (c :: v)).map stripStart := by
      intro v
      unfold afterLeading?
      split
      · rename_i heq
        exact absurd (List.cons.inj heq).1 hc
      · rfl
    have hstart : ∀ word ∈ joining, keywordStart? word (c :: (t ++ u)) =
        (keywordStart? word (c :: t)).map (· ++ u) := fun word hword =>
      keywordStart?_append (fun l hl d hd => isWord_of_isLetter hword hl hd)
        (fun hnil => absurd hnil (List.cons_ne_nil _ _)) (.inr hu)
    rw [List.cons_append, hread, hread, Option.isSome_map, Option.isSome_map,
      findSome?_congr_of_mem hstart, ← Function.comp_def (Option.map (· ++ u)),
      ← List.map_findSome?, Option.isSome_map]

theorem length_lt_of_beforeTrailing? (h : beforeTrailing? joining t = some rest) :
    rest.length < t.length := by
  have hstrip : ∀ before : Text, (stripStart before).length ≤ before.length := by
    intro before
    obtain ⟨u, -, hbefore⟩ := exists_append_stripStart before
    have := congrArg List.length hbefore
    rw [List.length_append] at this
    omega
  by_cases hcomma : t.reverse.head? = some ','
  · obtain ⟨before, hbefore⟩ := List.head?_eq_some_iff.1 hcomma
    rw [beforeTrailing?, hbefore] at h
    obtain rfl := Option.some.inj h
    have hlength := congrArg List.length hbefore
    rw [List.length_reverse, List.length_cons] at hlength
    have := hstrip before
    rw [List.length_reverse]
    omega
  · have hread := beforeTrailing?_reverse joining t.reverse hcomma
    rw [List.reverse_reverse, h] at hread
    obtain ⟨before, hfound, rfl⟩ := Option.map_eq_some_iff.1 hread.symm
    obtain ⟨word, hword, hstart⟩ := List.exists_of_findSome?_eq_some hfound
    obtain ⟨v, hv, hlength, -⟩ := exists_append_of_keywordStart? hstart
    have hwords : ∀ w ∈ joining, 0 < w.length := by decide
    have hpos := hwords word hword
    have htotal := congrArg List.length hv
    rw [List.length_reverse, List.length_append, hlength, List.length_reverse] at htotal
    have := hstrip before
    rw [List.length_reverse]
    omega

/-- A connective in front is lost behind only together with the whole text. -/
theorem length_dropTrailing_lt (hu : u ≠ []) (hparted : Parted u rest)
    (hne : dropTrailing (u ++ rest) ≠ []) :
    (dropTrailing rest).length < (dropTrailing (u ++ rest)).length := by
  by_cases hrest : rest = []
  · rw [hrest] at hne ⊢
    exact List.length_pos_iff.2 hne
  · obtain ⟨found, hfound, hall⟩ := beforeTrailing?_append hrest hparted
    have hpos := List.length_pos_iff.2 hu
    rw [dropTrailing, hall] at hne
    rw [dropTrailing, dropTrailing, hfound, hall]
    cases found with
    | none =>
        change rest.length < (u ++ rest).length
        rw [List.length_append]
        omega
    | some before =>
        change (stripStart (before ++ u.reverse)).reverse ≠ [] at hne
        change (stripStart before).reverse.length <
          (stripStart (before ++ u.reverse)).reverse.length
        rw [List.length_reverse, List.length_reverse]
        by_cases hblank : stripStart before = []
        · rw [hblank]
          exact List.length_pos_iff.2 (mt List.reverse_eq_nil_iff.2 hne)
        · rw [stripStart_append_of_ne_nil hblank, List.length_append, List.length_reverse]
          omega

/-- What is lost behind together with a connective in front of it is lost without it. -/
theorem dropTrailing_eq_nil_of_append (hu : u ≠ []) (hparted : Parted u rest)
    (h : dropTrailing (u ++ rest) = []) : dropTrailing rest = [] := by
  by_cases hrest : rest = []
  · rw [hrest]
    rfl
  · obtain ⟨found, hfound, hall⟩ := beforeTrailing?_append hrest hparted
    rw [dropTrailing, hall] at h
    rw [dropTrailing, hfound]
    cases found with
    | none => exact absurd (List.append_eq_nil_iff.1 h).1 hu
    | some before =>
        have hstrip : stripStart (before ++ u.reverse) = [] := List.reverse_eq_nil_iff.1 h
        by_cases hblank : stripStart before = []
        · exact List.reverse_eq_nil_iff.2 hblank
        · rw [stripStart_append_of_ne_nil hblank] at hstrip
          exact absurd (List.append_eq_nil_iff.1 hstrip).1 hblank

/-- A text that ends without a connective loses nothing at its end, whatever stands in front. -/
theorem dropTrailing_append_eq_self (hne : rest ≠ []) (hstrip : strip rest = rest)
    (hends : endsWith rest = false) (hparted : Parted u rest) :
    dropTrailing (u ++ rest) = u ++ rest := by
  rw [endsWith, hstrip, ← isSome_beforeTrailing?_append hne hparted] at hends
  have hnone := Option.isNone_iff_eq_none.1 (by simpa using hends)
  rw [dropTrailing, hnone]
  rfl

/-- What stands before a connective at the end of a stripped text is stripped. -/
theorem strip_of_beforeTrailing? {wordList : List Text} {r : Text}
    (hwords : ∀ word ∈ wordList, word ∈ introducing) (h : strip t = t)
    (hread : beforeTrailing? wordList t = some r) : strip r = r := by
  obtain ⟨w, ht, -⟩ := exists_append_of_beforeTrailing? hwords hread
  obtain ⟨before, hbefore⟩ : ∃ before : Text, r = (stripStart before).reverse := by
    unfold beforeTrailing? at hread
    split at hread
    · exact ⟨_, (Option.some.inj hread).symm⟩
    · obtain ⟨⟨before, piece⟩, -, heq⟩ := Option.map_eq_some_iff.1 hread
      exact ⟨before, heq.symm⟩
  rw [strip_eq_self_iff]
  constructor
  · intro x hx
    refine (strip_eq_self_iff.1 h).1 x ?_
    rw [ht, List.head?_append, hx]
    rfl
  · intro x hx
    rw [hbefore, List.getLast?_reverse] at hx
    exact stripStart_eq_self_iff.1 (stripStart_stripStart before) x hx

/-- What follows a connective at the start of a stripped text is stripped. -/
theorem strip_of_afterLeading? {r : Text} (h : strip t = t) (hread : afterLeading? t = some r) :
    strip r = r := by
  obtain ⟨w, ht, -⟩ := exists_append_of_afterLeading? hread
  obtain ⟨after, hafter⟩ : ∃ after : Text, r = stripStart after := by
    unfold afterLeading? at hread
    split at hread
    · exact ⟨_, (Option.some.inj hread).symm⟩
    · obtain ⟨after, -, heq⟩ := Option.map_eq_some_iff.1 hread
      exact ⟨after, heq.symm⟩
  rw [strip_eq_self_iff]
  constructor
  · intro x hx
    rw [hafter] at hx
    exact stripStart_eq_self_iff.1 (stripStart_stripStart after) x hx
  · intro x hx
    refine (strip_eq_self_iff.1 h).2 x ?_
    rw [ht, List.getLast?_append, hx]
    rfl

theorem strip_dropLeading (h : strip t = t) : strip (dropLeading t) = dropLeading t := by
  cases hread : afterLeading? t with
  | none =>
      rw [dropLeading, hread]
      exact h
  | some r =>
      rw [dropLeading, hread]
      exact strip_of_afterLeading? h hread

theorem strip_dropTrailing (h : strip t = t) : strip (dropTrailing t) = dropTrailing t := by
  cases hread : beforeTrailing? joining t with
  | none =>
      rw [dropTrailing, hread]
      exact h
  | some r =>
      rw [dropTrailing, hread]
      exact strip_of_beforeTrailing? (fun _ => mem_introducing_of_mem_joining) h hread

/-- What is left of a stripped text when it loses an introducing word is stripped. -/
theorem strip_dropIntroduction (h : strip t = t) :
    strip (dropIntroduction t) = dropIntroduction t := by
  cases hread : beforeTrailing? introducing t with
  | none =>
      rw [dropIntroduction, hread]
      exact h
  | some r =>
      rw [dropIntroduction, hread]
      exact strip_of_beforeTrailing? (fun _ hword => hword) h hread

end Connective

end SqlTemplate
