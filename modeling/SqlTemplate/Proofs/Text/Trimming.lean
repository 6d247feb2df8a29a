import SqlTemplate.Rendering.Connective

/-!
# What is taken off the ends of a text

Stripping takes blanks off a text, and cleaning takes a connective or an introducing word with the
blanks around it. `Connective.IsChar` says which characters these are, so that what is left is the
text between two pieces of such characters only.
-/

namespace SqlTemplate

theorem exists_append_stripStart (t : Text) :
    ∃ u, isBlankText u = true ∧ t = u ++ stripStart t := by
  refine ⟨t.takeWhile isBlank, ?_, List.takeWhile_append_dropWhile.symm⟩
  exact List.all_takeWhile

theorem exists_stripEnd_append (t : Text) :
    ∃ u, isBlankText u = true ∧ t = stripEnd t ++ u := by
  obtain ⟨u, hu, ht⟩ := exists_append_stripStart t.reverse
  refine ⟨u.reverse, ?_, ?_⟩
  · rw [isBlankText, List.all_reverse]
    exact hu
  · rw [stripEnd, ← List.reverse_append, ← ht, List.reverse_reverse]

theorem exists_append_strip_append (t : Text) :
    ∃ u v, isBlankText u = true ∧ isBlankText v = true ∧ t = u ++ strip t ++ v := by
  obtain ⟨u, hu, ht⟩ := exists_append_stripStart t
  obtain ⟨v, hv, hs⟩ := exists_stripEnd_append (stripStart t)
  refine ⟨u, v, hu, hv, ?_⟩
  rw [strip, List.append_assoc, ← hs, ← ht]

theorem mem_strip {c : Char} {t : Text} (hc : isBlank c = false) (h : c ∈ t) : c ∈ strip t := by
  obtain ⟨u, v, hu, hv, ht⟩ := exists_append_strip_append t
  have hnot {gap : Text} (hgap : isBlankText gap = true) : c ∉ gap := by
    intro hmem
    rw [List.all_eq_true.1 hgap c hmem] at hc
    cases hc
  rw [ht] at h
  rcases List.mem_append.1 h with h | h
  · exact (List.mem_append.1 h).resolve_left (hnot hu)
  · exact absurd h (hnot hv)

theorem stripStart_append_of_isBlankText {u : Text} (hu : isBlankText u = true) (t : Text) :
    stripStart (u ++ t) = stripStart t :=
  List.dropWhile_append_of_pos (List.all_eq_true.1 hu)

theorem stripStart_stripStart (t : Text) : stripStart (stripStart t) = stripStart t := by
  induction t with
  | nil => rfl
  | cons c t ih =>
      rw [stripStart_cons]
      by_cases hc : isBlank c = true
      · rw [if_pos hc, ih]
      · rw [if_neg hc, stripStart_cons, if_neg hc]

/-- Nothing is stripped from a text just where its first character is no blank. -/
theorem stripStart_eq_self_iff {t : Text} :
    stripStart t = t ↔ ∀ c ∈ t.head?, isBlank c = false := by
  cases t with
  | nil => simp
  | cons c t =>
      rw [stripStart_cons]
      constructor
      · intro h d hd
        obtain rfl := Option.some.inj hd
        cases hblank : isBlank c with
        | false => rfl
        | true =>
            rw [if_pos hblank] at h
            have hlength := (List.dropWhile_sublist isBlank (l := t)).length_le
            rw [← stripStart, h, List.length_cons] at hlength
            exact absurd hlength (Nat.not_succ_le_self _)
      · intro h
        rw [h c rfl]
        rfl

theorem stripEnd_eq_self_iff {t : Text} :
    stripEnd t = t ↔ ∀ c ∈ t.getLast?, isBlank c = false := by
  rw [stripEnd, List.reverse_eq_iff, stripStart_eq_self_iff, List.head?_reverse]

theorem strip_eq_self_iff {t : Text} :
    strip t = t ↔
      (∀ c ∈ t.head?, isBlank c = false) ∧ ∀ c ∈ t.getLast?, isBlank c = false := by
  rw [← stripStart_eq_self_iff, ← stripEnd_eq_self_iff]
  constructor
  · intro h
    obtain ⟨u, -, hu⟩ := exists_append_stripStart t
    obtain ⟨v, -, hv⟩ := exists_stripEnd_append (stripStart t)
    rw [← strip, h] at hv
    have hlength := congrArg List.length hu
    rw [hv, List.length_append, List.length_append] at hlength
    have hnil : v = [] := List.eq_nil_of_length_eq_zero (by omega)
    rw [hnil, List.append_nil] at hv
    refine ⟨hv, ?_⟩
    rwa [strip, hv] at h
  · rintro ⟨hstart, hend⟩
    rw [strip, hstart, hend]

theorem strip_strip (t : Text) : strip (strip t) = strip t := by
  refine strip_eq_self_iff.2 ⟨fun x hx => ?_, fun x hx => ?_⟩
  · obtain ⟨u, -, hu⟩ := exists_stripEnd_append (stripStart t)
    refine stripStart_eq_self_iff.1 (stripStart_stripStart t) x ?_
    rw [hu, ← strip, List.head?_append, hx]
    rfl
  · rw [strip, stripEnd, List.getLast?_reverse] at hx
    exact stripStart_eq_self_iff.1 (stripStart_stripStart _) x hx

/-- Stripping removes blanks that surround a text, and nothing of the text. -/
theorem strip_append_append {t u v : Text} (hu : isBlankText u = true) (hv : isBlankText v = true)
    (ht : strip t = t) : strip (u ++ (t ++ v)) = t := by
  have hends := strip_eq_self_iff.1 ht
  rw [strip, stripStart_append_of_isBlankText hu]
  by_cases hnil : t = []
  · rw [hnil, List.nil_append]
    have hblank : stripStart v = [] := by
      rw [← List.append_nil v, stripStart_append_of_isBlankText hv]
      rfl
    rw [hblank]
    rfl
  · have hfront : stripStart (t ++ v) = t ++ v := by
      obtain ⟨c, t, rfl⟩ := List.exists_cons_of_ne_nil hnil
      exact stripStart_eq_self_iff.2 hends.1
    have hback : isBlankText v.reverse = true := by
      rw [isBlankText, List.all_reverse]
      exact hv
    rw [hfront, stripEnd, List.reverse_append, stripStart_append_of_isBlankText hback]
    exact stripEnd_eq_self_iff.2 hends.2

/-- The characters of a keyword spell its letters. -/
theorem exists_append_of_afterLetters? {word t r : Text} (h : afterLetters? word t = some r) :
    ∃ u, t = u ++ r ∧ u.length = word.length ∧ ∀ c ∈ u, ∃ l ∈ word, isLetter l c = true := by
  induction word generalizing t with
  | nil =>
      obtain rfl := Option.some.inj h
      exact ⟨[], rfl, rfl, by simp⟩
  | cons l word ih =>
      cases t with
      | nil => simp [afterLetters?] at h
      | cons c t =>
          rw [afterLetters?_cons_cons] at h
          split at h
          · rename_i hc
            obtain ⟨u, rfl, hlength, hu⟩ := ih h
            refine ⟨c :: u, rfl, by simp [hlength], ?_⟩
            intro x hx
            rcases List.mem_cons.1 hx with rfl | hx
            · exact ⟨l, List.mem_cons_self .., hc⟩
            · obtain ⟨k, hk, hx⟩ := hu x hx
              exact ⟨k, List.mem_cons_of_mem _ hk, hx⟩
          · simp at h

theorem exists_append_of_keywordStart? {word t r : Text} (h : keywordStart? word t = some r) :
    ∃ u, t = u ++ r ∧ u.length = word.length ∧ ∀ c ∈ u, ∃ l ∈ word, isLetter l c = true :=
  exists_append_of_afterLetters? (Option.filter_eq_some_iff.1 h).1

theorem eq_append_of_keywordEnd? {word t r piece : Text}
    (h : keywordEnd? word t = some (r, piece)) :
    t = piece.reverse ++ r ∧ ∀ c ∈ piece, ∃ l ∈ word, isLetter l c = true := by
  obtain ⟨before, hbefore, hpiece⟩ := Option.map_eq_some_iff.1 h
  obtain ⟨rfl, rfl⟩ := Prod.mk.inj hpiece
  obtain ⟨u, rfl, hlength, hspells⟩ := exists_append_of_keywordStart? hbefore
  rw [List.length_reverse] at hlength
  rw [List.take_left' hlength, List.reverse_reverse]
  refine ⟨rfl, ?_⟩
  intro c hc
  obtain ⟨l, hl, hlc⟩ := hspells c (List.mem_reverse.1 hc)
  exact ⟨l, List.mem_reverse.1 hl, hlc⟩

namespace Connective

/-- The characters of connectives and introducing words, and of the blanks around them. -/
def IsChar (c : Char) : Prop :=
  c = ',' ∨ isBlank c = true ∨ ∃ word ∈ introducing, ∃ l ∈ word, isLetter l c = true

instance (c : Char) : Decidable (IsChar c) :=
  decidable_of_iff (c = ',' ∨ isBlank c = true ∨
    (introducing.any fun word => word.any fun l => isLetter l c) = true)
    (by simp only [IsChar, List.any_eq_true])

theorem isChar_of_isBlankText {t : Text} (h : isBlankText t = true) : ∀ c ∈ t, IsChar c := by
  intro c hc
  exact .inr (.inl (List.all_eq_true.1 h c hc))

theorem mem_introducing_of_mem_joining {word : Text} (h : word ∈ joining) :
    word ∈ introducing :=
  List.mem_append_right _ h

theorem exists_append_of_afterLeading? {t r : Text} (h : afterLeading? t = some r) :
    ∃ u, t = u ++ r ∧ ∀ c ∈ u, IsChar c := by
  unfold afterLeading? at h
  split at h
  · rename_i t
    obtain rfl := Option.some.inj h
    obtain ⟨u, hu, ht⟩ := exists_append_stripStart t
    refine ⟨',' :: u, by rw [List.cons_append, ← ht], ?_⟩
    intro c hc
    rcases List.mem_cons.1 hc with rfl | hc
    · exact .inl rfl
    · exact isChar_of_isBlankText hu c hc
  · obtain ⟨rest, hrest, rfl⟩ := Option.map_eq_some_iff.1 h
    obtain ⟨word, hword, hstart⟩ := List.exists_of_findSome?_eq_some hrest
    obtain ⟨v, rfl, -, hv⟩ := exists_append_of_keywordStart? hstart
    obtain ⟨u, hu, hr⟩ := exists_append_stripStart rest
    refine ⟨v ++ u, by rw [List.append_assoc, ← hr], ?_⟩
    intro c hc
    rcases List.mem_append.1 hc with hc | hc
    · exact .inr (.inr ⟨word, mem_introducing_of_mem_joining hword, hv c hc⟩)
    · exact isChar_of_isBlankText hu c hc

theorem exists_append_of_beforeTrailing? {wordList : List Text} {t r : Text}
    (hwords : ∀ word ∈ wordList, word ∈ introducing) (h : beforeTrailing? wordList t = some r) :
    ∃ u, t = r ++ u ∧ ∀ c ∈ u, IsChar c := by
  have key : ∃ u before, t.reverse = u ++ before ∧ (∀ c ∈ u, IsChar c) ∧
      r = (stripStart before).reverse := by
    unfold beforeTrailing? at h
    split at h
    · rename_i before ht
      refine ⟨[','], before, ht, ?_, (Option.some.inj h).symm⟩
      intro c hc
      exact .inl (List.mem_singleton.1 hc)
    · obtain ⟨⟨before, piece⟩, hfound, hr⟩ := Option.map_eq_some_iff.1 h
      obtain ⟨word, hword, hend⟩ := List.exists_of_findSome?_eq_some hfound
      obtain ⟨ht, hspells⟩ := eq_append_of_keywordEnd? hend
      refine ⟨piece.reverse, before, ht, ?_, hr.symm⟩
      intro c hc
      exact .inr (.inr ⟨word, hwords word hword, hspells c (List.mem_reverse.1 hc)⟩)
  obtain ⟨u, before, ht, hu, rfl⟩ := key
  obtain ⟨v, hv, hbefore⟩ := exists_append_stripStart before
  refine ⟨v.reverse ++ u.reverse, ?_, ?_⟩
  · rw [← List.append_assoc, ← List.reverse_append, ← hbefore, ← List.reverse_append, ← ht,
      List.reverse_reverse]
  · intro c hc
    rcases List.mem_append.1 hc with hc | hc
    · exact isChar_of_isBlankText hv c (List.mem_reverse.1 hc)
    · exact hu c (List.mem_reverse.1 hc)

theorem exists_append_dropLeading (t : Text) :
    ∃ u, t = u ++ dropLeading t ∧ ∀ c ∈ u, IsChar c := by
  unfold dropLeading
  cases h : afterLeading? t with
  | none => exact ⟨[], rfl, by simp⟩
  | some r => exact exists_append_of_afterLeading? h

theorem exists_dropTrailing_append (t : Text) :
    ∃ u, t = dropTrailing t ++ u ∧ ∀ c ∈ u, IsChar c := by
  unfold dropTrailing
  cases h : beforeTrailing? joining t with
  | none => exact ⟨[], (List.append_nil t).symm, by simp⟩
  | some r => exact exists_append_of_beforeTrailing? (fun _ => mem_introducing_of_mem_joining) h

theorem exists_dropIntroduction_append (t : Text) :
    ∃ u, t = dropIntroduction t ++ u ∧ ∀ c ∈ u, IsChar c := by
  unfold dropIntroduction
  cases h : beforeTrailing? introducing t with
  | none => exact ⟨[], (List.append_nil t).symm, by simp⟩
  | some r => exact exists_append_of_beforeTrailing? (fun _ hw => hw) h

theorem mem_dropIntroduction {c : Char} {t : Text} (hc : ¬ IsChar c) (h : c ∈ t) :
    c ∈ dropIntroduction t := by
  obtain ⟨u, ht, hu⟩ := exists_dropIntroduction_append t
  rw [ht] at h
  exact (List.mem_append.1 h).resolve_right (mt (hu c) hc)

end Connective

end SqlTemplate
