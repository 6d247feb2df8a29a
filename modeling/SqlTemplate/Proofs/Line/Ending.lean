import SqlTemplate.Line.Comparison
import SqlTemplate.Proofs.Text.Trimming
import SqlTemplate.Proofs.Text.Unspaced

/-!
# What is found at the end of a text

A mark, a subject or a comparison that is found at the end of a text is cut off there: the text is
what stands before it, the piece, and blanks. Of a comparison the blanks inside of it may be written
differently, so the two agree up to blanks only. Operators are made of signs, of the letters of their
words and of the characters of a `NOT` before them.
-/

namespace SqlTemplate

namespace Ending

variable {reversed : Text}

theorem exists_of_mark? {e : Ending Text} (h : mark? reversed = some e) :
    (∃ gap, isBlankText gap = true ∧ reversed = gap ++ (e.piece.reverse ++ e.before)) ∧
      '?' ∈ e.piece := by
  obtain ⟨gap, hgap, hreversed⟩ := exists_append_stripStart reversed
  unfold mark? at h
  split at h
  · rename_i before ht
    obtain rfl := Option.some.inj h
    exact ⟨⟨gap, hgap, by rw [hreversed, ht]; rfl⟩, List.mem_singleton_self _⟩
  · rename_i inner ht
    dsimp only at h
    split at h
    · rename_i t hleft
      split at h
      · rename_i before hright
        obtain rfl := Option.some.inj h
        have hinner : inner = inner.takeWhile isBlank ++ '?' :: t := by
          rw [← hleft]
          exact List.takeWhile_append_dropWhile.symm
        have houter : t = t.takeWhile isBlank ++ '(' :: before := by
          rw [← hright]
          exact List.takeWhile_append_dropWhile.symm
        refine ⟨⟨gap, hgap, ?_⟩, by simp⟩
        have hpiece : ')' :: inner =
            ('(' :: ((t.takeWhile isBlank).reverse ++ '?' :: (inner.takeWhile isBlank).reverse ++
              [')'])).reverse ++ before := by
          simp only [List.reverse_cons, List.reverse_append, List.reverse_nil, List.nil_append,
            List.reverse_reverse, List.cons_append, List.append_assoc]
          rw [← houter]
          exact congrArg _ hinner
        rw [hreversed, ht, hpiece]
      · simp at h
    · simp at h
  · simp at h

/-- A mark is a question mark alone or one between parentheses. -/
theorem ends_of_mark? {e : Ending Text} (h : mark? reversed = some e) :
    (∃ c, e.piece.head? = some c ∧ c ≠ ')') ∧ ∃ c, e.piece.getLast? = some c ∧ c ≠ '(' := by
  unfold mark? at h
  split at h
  · obtain rfl := Option.some.inj h
    exact ⟨⟨'?', rfl, by decide⟩, ⟨'?', rfl, by decide⟩⟩
  · dsimp only at h
    split at h
    · split at h
      · obtain rfl := Option.some.inj h
        refine ⟨⟨'(', rfl, by decide⟩, ⟨')', ?_, by decide⟩⟩
        rw [← List.cons_append, List.getLast?_concat]
      · simp at h
    · simp at h
  · simp at h

theorem exists_of_subject? {e : Ending Text} (h : subject? reversed = some e) :
    (∃ gap, isBlankText gap = true ∧ reversed = gap ++ (e.piece.reverse ++ e.before)) ∧
      ∀ c ∈ e.piece, isSubjectChar c = true := by
  obtain ⟨gap, hgap, hreversed⟩ := exists_append_stripStart reversed
  unfold subject? at h
  dsimp only at h
  split at h
  · simp at h
  · obtain rfl := Option.some.inj h
    refine ⟨⟨gap, hgap, ?_⟩, ?_⟩
    · rw [List.reverse_reverse, List.takeWhile_append_dropWhile, ← hreversed]
    · intro c hc
      exact List.all_eq_true.1 List.all_takeWhile c (List.mem_reverse.1 hc)

/-- A mark is made of question marks, parentheses and blanks. -/
theorem mem_of_mark? {e : Ending Text} (h : mark? reversed = some e) :
    ∀ c ∈ e.piece, c ∈ "(?)".toList ∨ isBlank c = true := by
  have hblanks (t : Text) : ∀ c ∈ (t.takeWhile isBlank).reverse, isBlank c = true :=
    fun c hc => List.all_eq_true.1 List.all_takeWhile c (List.mem_reverse.1 hc)
  unfold mark? at h
  split at h
  · obtain rfl := Option.some.inj h
    simp
  · dsimp only at h
    split at h
    · split at h
      · rename_i inner _ _ t _ _ _ _
        obtain rfl := Option.some.inj h
        intro c hc
        simp only [List.mem_cons, List.mem_append, List.not_mem_nil, or_false] at hc
        rcases hc with rfl | (hc | rfl | hc) | rfl
        · simp
        · exact .inr (hblanks t c hc)
        · simp
        · exact .inr (hblanks inner c hc)
        · simp
      · simp at h
    · simp at h
  · simp at h

/-- A comparison cut off a text, with an operator of which `tail` is written behind the text. -/
structure Cut (reversed tail : Text) (e : Ending Comparison) : Prop where
  written : ∃ w, reversed = w ++ (e.piece.subject.reverse ++ e.before) ∧
    unspaced w.reverse ++ unspaced tail = unspaced e.piece.operator
  subject : ∀ c ∈ e.piece.subject, isSubjectChar c = true
  operator : ∀ c ∈ e.piece.operator, c ∈ tail ∨ c = ' ' ∨ isSubjectChar c = true

theorem cut_of_subject? {e : Ending Text} (h : subject? reversed = some e) (operator : Text) :
    Cut reversed operator ⟨e.before, ⟨e.piece, operator⟩⟩ := by
  obtain ⟨⟨gap, hgap, hreversed⟩, hpiece⟩ := exists_of_subject? h
  refine ⟨⟨gap, hreversed, ?_⟩, hpiece, fun c hc => .inl hc⟩
  rw [unspaced_reverse, unspaced_eq_nil_iff.2 hgap]
  rfl

theorem cut_of_withOperator? {operator : Text} {e : Ending Comparison}
    (h : withOperator? operator reversed = some e) : Cut reversed operator e := by
  obtain ⟨s, hs, rfl⟩ := Option.map_eq_some_iff.1 h
  exact cut_of_subject? hs operator

theorem cut_of_withWord? {word : Text} {e : Ending Comparison}
    (h : withWord? word reversed = some e) : Cut reversed word e := by
  unfold withWord? at h
  split at h
  · simp at h
  · rename_i s hs
    dsimp only at h
    split at h
    · split at h
      · -- What seemed to be the subject is `NOT`.
        rename_i comparison hnot
        obtain rfl := Option.some.inj h
        obtain ⟨s', hs', rfl⟩ := Option.map_eq_some_iff.1 hnot
        obtain ⟨⟨gap, hgap, hreversed⟩, hpiece⟩ := exists_of_subject? hs
        obtain ⟨⟨inner, hinner, hbefore⟩, hsubject⟩ := exists_of_subject? hs'
        refine ⟨⟨gap ++ (s.piece.reverse ++ inner), ?_, ?_⟩, hsubject, ?_⟩
        · rw [hreversed, hbefore]
          simp only [List.append_assoc]
        · simp only [List.reverse_append, unspaced_append, unspaced_reverse,
            unspaced_eq_nil_iff.2 hgap, unspaced_eq_nil_iff.2 hinner, unspaced_cons]
          simp [isBlank]
        · intro c hc
          rcases List.mem_append.1 hc with hc | hc
          · exact .inr (.inr (hpiece c hc))
          · rcases List.mem_cons.1 hc with rfl | hc
            · exact .inr (.inl rfl)
            · exact .inl hc
      · obtain rfl := Option.some.inj h
        exact cut_of_subject? hs word
    · obtain rfl := Option.some.inj h
      exact cut_of_subject? hs word

theorem eq_append_of_sign? {e : Ending Text} (h : sign? reversed = some e) :
    reversed = e.piece.reverse ++ e.before ∧ ∀ c ∈ e.piece, c ∈ "<>=!".toList := by
  unfold sign? at h
  split at h
  case h_8 => simp at h
  all_goals
    obtain rfl := Option.some.inj h
    exact ⟨rfl, by simp⟩

def IsOperatorChar (c : Char) : Prop :=
  c ∈ "<>=!".toList ∨ (∃ word ∈ ["IN".toList, "LIKE".toList], ∃ l ∈ word, isLetter l c = true) ∨
    c = ' ' ∨ isSubjectChar c = true

instance : DecidablePred IsOperatorChar := fun c =>
  have (word : Text) : Decidable (∃ l ∈ word, isLetter l c = true) := List.decidableBEx _ word
  inferInstanceAs (Decidable (_ ∨ _))

/-- A comparison cut off the end of a text. -/
structure Found (reversed : Text) (e : Ending Comparison) : Prop where
  written : ∃ w, reversed = w ++ e.before ∧
    unspaced w.reverse = unspaced e.piece.subject ++ unspaced e.piece.operator
  subject : ∀ c ∈ e.piece.subject, isSubjectChar c = true
  operator : ∀ c ∈ e.piece.operator, IsOperatorChar c

theorem Found.not_mem {e : Ending Comparison} (h : Found reversed e) {c : Char}
    (hc : ¬IsOperatorChar c) : c ∉ e.piece.subject ∧ c ∉ e.piece.operator :=
  ⟨fun hmem => hc (.inr (.inr (.inr (h.subject c hmem)))), fun hmem => hc (h.operator c hmem)⟩

theorem Cut.found {before tail : Text} {e : Ending Comparison} (h : Cut before tail e)
    {gap : Text} (hgap : isBlankText gap = true)
    (hreversed : reversed = gap ++ (tail.reverse ++ before))
    (htail : ∀ c ∈ tail, c ∈ "<>=!".toList ∨
      ∃ word ∈ ["IN".toList, "LIKE".toList], ∃ l ∈ word, isLetter l c = true) :
    Found reversed e := by
  obtain ⟨⟨w, hbefore, hw⟩, hsubject, hoperator⟩ := h
  refine ⟨⟨gap ++ (tail.reverse ++ (w ++ e.piece.subject.reverse)), ?_, ?_⟩, hsubject, ?_⟩
  · rw [hreversed, hbefore]
    simp only [List.append_assoc]
  · rw [← hw]
    simp only [List.reverse_append, unspaced_append, unspaced_reverse, List.reverse_reverse,
      unspaced_eq_nil_iff.2 hgap, List.reverse_nil, List.append_nil, List.append_assoc]
  · intro c hc
    rcases hoperator c hc with hc | rfl | hc
    · rcases htail c hc with hc | hc
      · exact .inl hc
      · exact .inr (.inl hc)
    · exact .inr (.inr (.inl rfl))
    · exact .inr (.inr (.inr hc))

theorem found_of_comparison? {e : Ending Comparison} (h : comparison? reversed = some e) :
    Found reversed e := by
  obtain ⟨gap, hgap, hreversed⟩ := exists_append_stripStart reversed
  unfold comparison? at h
  dsimp only at h
  split at h
  · rename_i sign hsign
    obtain ⟨ht, hchars⟩ := eq_append_of_sign? hsign
    refine (cut_of_withOperator? h).found hgap (by rw [← ht]; exact hreversed) ?_
    intro c hc
    exact .inl (hchars c hc)
  · split at h
    · rename_i before word hend
      obtain ⟨ht, hchars⟩ := eq_append_of_keywordEnd? hend
      refine (cut_of_withWord? h).found hgap (by rw [← ht]; exact hreversed) ?_
      intro c hc
      exact .inr ⟨"IN".toList, by simp, hchars c hc⟩
    · split at h
      · rename_i before word hend
        obtain ⟨ht, hchars⟩ := eq_append_of_keywordEnd? hend
        refine (cut_of_withWord? h).found hgap (by rw [← ht]; exact hreversed) ?_
        intro c hc
        exact .inr ⟨"LIKE".toList, by simp, hchars c hc⟩
      · simp at h

/-- What is cut off holds no characters but those of a comparison and blanks. -/
theorem Found.not_mem_written {e : Ending Comparison} (h : Found reversed e) {w : Text}
    (hreversed : reversed = w ++ e.before) {c : Char} (hblank : isBlank c = false)
    (hc : ¬IsOperatorChar c) : c ∉ w := by
  obtain ⟨v, hv, hunspaced⟩ := h.written
  obtain rfl := List.append_cancel_right (hreversed.symm.trans hv)
  obtain ⟨hsubject, hoperator⟩ := h.not_mem hc
  intro hmem
  have hkept : c ∈ unspaced w.reverse :=
    List.mem_filter.2 ⟨List.mem_reverse.2 hmem, by rw [hblank]; rfl⟩
  rw [hunspaced] at hkept
  rcases List.mem_append.1 hkept with hkept | hkept
  · exact hsubject (List.mem_filter.1 hkept).1
  · exact hoperator (List.mem_filter.1 hkept).1

/-- A comparison cut off a text where its subject begins: no subject reaches further to the front, and
no double quote stands behind the subject. -/
structure Bounded (reversed : Text) (e : Ending Comparison) : Prop where
  written : ∃ w, reversed = w ++ (e.piece.subject.reverse ++ e.before) ∧ '"' ∉ w
  before : ∀ c ∈ e.before.head?, isSubjectChar c = false

theorem not_mem_of_isBlankText {c : Char} (hc : isBlank c = false) {gap : Text}
    (h : isBlankText gap = true) : c ∉ gap := by
  intro hmem
  rw [List.all_eq_true.1 h c hmem] at hc
  cases hc

theorem not_mem_of_isLetter {c : Char} {word t : Text}
    (hc : (word.any fun l => isLetter l c) = false)
    (h : ∀ d ∈ t, ∃ l ∈ word, isLetter l d = true) : c ∉ t := by
  intro hmem
  obtain ⟨l, hl, hletter⟩ := h c hmem
  exact List.any_eq_false.1 hc l hl hletter

theorem Bounded.append {e : Ending Comparison} (h : Bounded reversed e) {w : Text}
    (hw : '"' ∉ w) : Bounded (w ++ reversed) e := by
  obtain ⟨⟨u, rfl, hu⟩, hbefore⟩ := h
  refine ⟨⟨w ++ u, by simp, ?_⟩, hbefore⟩
  exact fun hmem => (List.mem_append.1 hmem).elim hw hu

theorem head?_before_of_subject? {e : Ending Text} (h : subject? reversed = some e) :
    ∀ c ∈ e.before.head?, isSubjectChar c = false := by
  unfold subject? at h
  dsimp only at h
  split at h
  · simp at h
  · obtain rfl := Option.some.inj h
    intro c hc
    have hhead := List.head?_dropWhile_not isSubjectChar (stripStart reversed)
    rw [Option.mem_def.1 hc] at hhead
    simpa using hhead

theorem bounded_of_subject? {e : Ending Text} (h : subject? reversed = some e) (operator : Text) :
    Bounded reversed ⟨e.before, ⟨e.piece, operator⟩⟩ := by
  obtain ⟨⟨gap, hgap, hreversed⟩, -⟩ := exists_of_subject? h
  exact ⟨⟨gap, hreversed, not_mem_of_isBlankText (by decide) hgap⟩, head?_before_of_subject? h⟩

theorem bounded_of_withOperator? {operator : Text} {e : Ending Comparison}
    (h : withOperator? operator reversed = some e) : Bounded reversed e := by
  obtain ⟨s, hs, rfl⟩ := Option.map_eq_some_iff.1 h
  exact bounded_of_subject? hs operator

theorem bounded_of_withWord? {word : Text} {e : Ending Comparison}
    (h : withWord? word reversed = some e) : Bounded reversed e := by
  unfold withWord? at h
  split at h
  · simp at h
  · rename_i s hs
    dsimp only at h
    split at h
    · rename_i happlies
      split at h
      · -- What seemed to be the subject is `NOT`, which holds no quote.
        rename_i comparison hnot
        obtain rfl := Option.some.inj h
        obtain ⟨⟨gap, hgap, rfl⟩, -⟩ := exists_of_subject? hs
        have hkeyword : isKeyword "NOT".toList s.piece = true := by
          simp only [Bool.and_eq_true] at happlies
          exact happlies.1.1
        obtain ⟨u, hu, -, hletters⟩ := exists_append_of_afterLetters? (beq_iff_eq.1 hkeyword)
        rw [List.append_nil] at hu
        have hpiece : '"' ∉ s.piece := by
          rw [hu]
          exact not_mem_of_isLetter (by decide) hletters
        rw [← List.append_assoc]
        refine (bounded_of_withOperator? hnot).append fun hmem => ?_
        rcases List.mem_append.1 hmem with hmem | hmem
        · exact not_mem_of_isBlankText (by decide) hgap hmem
        · exact hpiece (List.mem_reverse.1 hmem)
      · obtain rfl := Option.some.inj h
        exact bounded_of_subject? hs word
    · obtain rfl := Option.some.inj h
      exact bounded_of_subject? hs word

theorem bounded_of_comparison? {e : Ending Comparison} (h : comparison? reversed = some e) :
    Bounded reversed e := by
  obtain ⟨gap, hgap, hreversed⟩ := exists_append_stripStart reversed
  have hquote : '"' ∉ gap := not_mem_of_isBlankText (by decide) hgap
  unfold comparison? at h
  dsimp only at h
  rw [hreversed]
  refine Bounded.append ?_ hquote
  have hword {word before piece : Text} (hletters : (word.any fun l => isLetter l '"') = false)
      (hend : keywordEnd? word (stripStart reversed) = some (before, piece))
      (hfound : withWord? piece before = some e) : Bounded (stripStart reversed) e := by
    obtain ⟨ht, hchars⟩ := eq_append_of_keywordEnd? hend
    rw [ht]
    refine (bounded_of_withWord? hfound).append ?_
    exact mt List.mem_reverse.1 (not_mem_of_isLetter hletters hchars)
  split at h
  · rename_i sign hsign
    obtain ⟨ht, hchars⟩ := eq_append_of_sign? hsign
    rw [ht]
    refine (bounded_of_withOperator? h).append fun hmem => ?_
    exact absurd (hchars _ (List.mem_reverse.1 hmem)) (by decide)
  · split at h
    · rename_i before word hend
      exact hword (by decide) hend h
    · split at h
      · rename_i before word hend
        exact hword (by decide) hend h
      · simp at h

end Ending

end SqlTemplate
