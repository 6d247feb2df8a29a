import SqlTemplate.Proofs.Directive.Signs
import SqlTemplate.Proofs.Line.Drafting
import SqlTemplate.Proofs.Text.Parted
import SqlTemplate.Rendering.Marks

/-!
# Lines alike but for plain references

A condition alone in a directive may be written as a plain reference. The comparison that it would
have taken then stays in the text of its line. `Splice.Alike` says that two lines are the same but for
conditions of the first one that are plain references in the second one. Behind its last directive the
text of both lines is the same (`Alike.exists_tail`), so what is written to both lines and what is taken
off their ends keeps them alike, as long as the same comparison is taken off both.
-/

namespace SqlTemplate

/-- Whether a comparison is a test of membership. -/
def Comparison.isMembership (c : Comparison) : Bool :=
  decide (Marks.Membership.normalize c.operator = "IN".toList ∨
    Marks.Membership.normalize c.operator = "NOT IN".toList)

namespace Directive

/-- Whether a directive is a condition alone, whose sample is not in parentheses and whose comparison
is no test of membership. -/
def isLoneCondition (x : Directive) : Bool :=
  match x.expression with
  | [.reference .condition _ _] =>
    (x.sample.getD []).head? != some '(' && x.comparison.all fun c => !c.isMembership
  | _ => false

theorem isLoneCondition_iff {x : Directive} :
    x.isLoneCondition = true ↔ ∃ key negated, x.expression = [.reference .condition key negated] ∧
      (x.sample.getD []).head? ≠ some '(' ∧ ∀ c, x.comparison = some c → c.isMembership = false := by
  unfold isLoneCondition
  split
  · rename_i key negated he
    cases x.comparison <;> simp [he]
  · rename_i hother
    refine iff_of_false Bool.false_ne_true ?_
    rintro ⟨key, negated, he, -⟩
    exact hother key negated he

/-- Two directives with the same terms, the same sample and the same comparison. -/
structure Same (x x' : Directive) : Prop where
  expression : x'.expression = x.expression
  sample : x'.sample = x.sample
  comparison : x'.comparison = x.comparison

/-- A lone condition and the plain reference that is written in its place. -/
structure PlainIn (x x' : Directive) : Prop where
  lone : x.isLoneCondition = true
  expression : x'.expression = Term.plainSignedAll x.expression
  sample : x'.sample = x.sample
  comparison : x'.comparison = none
  sampled : ∀ c, x.comparison = some c → x.sample.isSome = true

end Directive

namespace Splice

/-- Two lines, put together from left to right, that are the same but for lone conditions of the first
one that are plain references in the second one. What they compare stands in the text there. -/
inductive Alike : Text → List Splice → Text → List Splice → Prop
  | nil : Alike [] [] [] []
  | text {t t' : Text} {ss ss' : List Splice} (h : Alike t ss t' ss') (p : Text) :
      Alike (t ++ p) ss (t' ++ p) ss'
  | same {t t' : Text} {ss ss' : List Splice} (h : Alike t ss t' ss') {x x' : Directive}
      (hx : x.Same x') :
      Alike t (ss ++ [.directive t.length x]) t' (ss' ++ [.directive t'.length x'])
  | plain {t t' : Text} {ss ss' : List Splice} (h : Alike t ss t' ss') {x x' : Directive}
      (hx : x.PlainIn x') {w : Text}
      (hw : unspaced w = unspaced (Draft.comparisonText x.comparison)) :
      Alike t (ss ++ [.directive t.length x]) (t' ++ w) (ss' ++ [.directive (t' ++ w).length x'])

namespace Alike

variable {t t' u u' : Text} {ss ss' us us' : List Splice}

theorem append (h : Alike t ss t' ss') (hu : Alike u us u' us') :
    Alike (t ++ u) (ss ++ us.map (shift t.length)) (t' ++ u') (ss' ++ us'.map (shift t'.length)) := by
  induction hu with
  | nil => simpa using h
  | text _ p ih =>
    rw [← List.append_assoc, ← List.append_assoc]
    exact ih.text p
  | same _ hx ih =>
    have hadded := ih.same hx
    rw [List.append_assoc, List.append_assoc] at hadded
    simpa [shift, Nat.add_comm] using hadded
  | plain _ hx hw ih =>
    have hadded := ih.plain hx hw
    rw [List.append_assoc, List.append_assoc, List.append_assoc] at hadded
    simpa [shift, Nat.add_comm, Nat.add_left_comm] using hadded

theorem eq_nil_iff (h : Alike t ss t' ss') : ss' = [] ↔ ss = [] := by
  induction h with
  | nil => exact Iff.rfl
  | text _ _ ih => exact ih
  | same _ _ _ => simp
  | plain _ _ _ _ => simp

/-- Lines without directives are alike only if they are the same. -/
theorem eq_of_nil (h : Alike t [] t' ss') : t' = t := by
  generalize hss : [] = ss at h
  induction h with
  | nil => rfl
  | text _ _ ih => rw [ih hss]
  | same _ _ _ => simp at hss
  | plain _ _ _ _ => simp at hss

/-- Lines alike have the same text behind their last directives, which can be taken off both. -/
theorem exists_tail (h : Alike t ss t' ss') :
    ∃ b b' w, t = b ++ w ∧ t' = b' ++ w ∧ (ss.getLast?.map offset).getD 0 = b.length ∧
      (ss'.getLast?.map offset).getD 0 = b'.length ∧
      ∀ u, u <+: w → Alike (b ++ u) ss (b' ++ u) ss' := by
  induction h with
  | nil =>
    refine ⟨[], [], [], rfl, rfl, rfl, rfl, fun u hu => ?_⟩
    rw [List.prefix_nil.1 hu]
    exact .nil
  | text h p ih =>
    obtain ⟨b, b', w, rfl, rfl, hb, hb', hcut⟩ := ih
    refine ⟨b, b', w ++ p, List.append_assoc .., List.append_assoc .., hb, hb', ?_⟩
    rintro u ⟨v, huv⟩
    rcases List.append_eq_append_iff.1 huv with ⟨x, rfl, -⟩ | ⟨x, rfl, -⟩
    · exact hcut u (List.prefix_append u x)
    · rw [← List.append_assoc, ← List.append_assoc]
      exact h.text x
  | same h hx _ =>
    refine ⟨_, _, [], (List.append_nil _).symm, (List.append_nil _).symm, by simp [offset],
      by simp [offset], fun u hu => ?_⟩
    rw [List.prefix_nil.1 hu, List.append_nil, List.append_nil]
    exact h.same hx
  | plain h hx hw _ =>
    refine ⟨_, _, [], (List.append_nil _).symm, (List.append_nil _).symm, by simp [offset],
      by simp [offset], fun u hu => ?_⟩
    rw [List.prefix_nil.1 hu, List.append_nil, List.append_nil]
    exact h.plain hx hw

end Alike

end Splice

namespace Ending

variable {reversed p before : Text}

theorem mark?_question {gap : Text} (hgap : isBlankText gap = true) (before : Text) :
    mark? (gap ++ '?' :: before) = some ⟨before, ['?']⟩ := by
  have hstrip : stripStart (gap ++ '?' :: before) = '?' :: before := by
    rw [stripStart_append_of_isBlankText hgap]
    rfl
  unfold mark?
  rw [hstrip]
  rfl

theorem mark?_parenthesised {gap stop start : Text} (hgap : isBlankText gap = true)
    (hstop : isBlankText stop = true) (hstart : isBlankText start = true) (before : Text) :
    mark? (gap ++ ')' :: (stop ++ '?' :: (start ++ '(' :: before))) =
      some ⟨before, '(' :: (start.reverse ++ '?' :: stop.reverse ++ [')'])⟩ := by
  have hcut {u v : Text} {c : Char} (hu : isBlankText u = true) (hc : isBlank c = false) :
      (u ++ c :: v).takeWhile isBlank = u ∧ stripStart (u ++ c :: v) = c :: v := by
    refine takeWhile_append_of_head? (List.all_eq_true.1 hu) fun d hd => ?_
    obtain rfl := Option.some.inj hd
    exact hc
  have hinner := hcut (v := start ++ '(' :: before) hstop (by decide : isBlank '?' = false)
  have houter := hcut (v := before) hstart (by decide : isBlank '(' = false)
  unfold mark?
  rw [(hcut hgap (by decide : isBlank ')' = false)).2]
  simp only [hinner, houter]

/-- A mark is found at the end of a text whatever stands in front of it. -/
theorem mark?_append {e : Ending Text} (h : mark? reversed = some e)
    (hreversed : reversed = p ++ e.before) (before : Text) :
    mark? (p ++ before) = some ⟨before, e.piece⟩ := by
  have hblank (t : Text) : isBlankText (t.takeWhile isBlank) = true := List.all_takeWhile
  have hsplit (t : Text) : t = t.takeWhile isBlank ++ stripStart t :=
    List.takeWhile_append_dropWhile.symm
  have htext := hsplit reversed
  unfold mark? at h
  split at h
  · rename_i rest ht
    obtain rfl := Option.some.inj h
    rw [ht, hreversed] at htext
    have hp : p = (p ++ rest).takeWhile isBlank ++ ['?'] := by
      refine (List.append_left_inj rest).1 ?_
      rw [List.append_assoc]
      exact htext
    rw [hp, List.append_assoc]
    exact mark?_question (hblank _) before
  · rename_i inner ht
    dsimp only at h
    split at h
    · rename_i t hleft
      split at h
      · rename_i rest hright
        obtain rfl := Option.some.inj h
        have hinner := hsplit inner
        have houter := hsplit t
        rw [hleft] at hinner
        rw [hright] at houter
        have hp : p = reversed.takeWhile isBlank ++ ')' :: (inner.takeWhile isBlank ++
            '?' :: (t.takeWhile isBlank ++ ['('])) := by
          refine (List.append_left_inj rest).1 ?_
          rw [← hreversed]
          simp only [List.append_assoc, List.cons_append, List.nil_append]
          rw [← houter, ← hinner, ← ht]
          exact htext
        rw [hp]
        simpa only [List.append_assoc, List.cons_append, List.nil_append] using
          mark?_parenthesised (hblank _) (hblank _) (hblank _) before
      · cases h
    · cases h
  · cases h

theorem piece_ne_nil_of_subject? {e : Ending Text} (h : subject? reversed = some e) :
    e.piece ≠ [] := by
  unfold subject? at h
  dsimp only at h
  split at h
  · cases h
  · rename_i hne
    obtain rfl := Option.some.inj h
    exact List.reverse_ne_nil_iff.2 hne

theorem subject_ne_nil_of_withOperator? {operator : Text} {e : Ending Comparison}
    (h : withOperator? operator reversed = some e) : e.piece.subject ≠ [] := by
  obtain ⟨s, hs, rfl⟩ := Option.map_eq_some_iff.1 h
  exact piece_ne_nil_of_subject? hs

theorem subject_ne_nil_of_withWord? {word : Text} {e : Ending Comparison}
    (h : withWord? word reversed = some e) : e.piece.subject ≠ [] := by
  unfold withWord? at h
  split at h
  · cases h
  · rename_i s hs
    have hpiece := piece_ne_nil_of_subject? hs
    dsimp only at h
    split at h
    · split at h
      · rename_i comparison hnot
        obtain rfl := Option.some.inj h
        exact subject_ne_nil_of_withOperator? hnot
      · obtain rfl := Option.some.inj h
        exact hpiece
    · obtain rfl := Option.some.inj h
      exact hpiece

/-- A comparison has a subject. -/
theorem subject_ne_nil_of_comparison? {e : Ending Comparison} (h : comparison? reversed = some e) :
    e.piece.subject ≠ [] := by
  unfold comparison? at h
  dsimp only at h
  split at h
  · exact subject_ne_nil_of_withOperator? h
  · split at h
    · exact subject_ne_nil_of_withWord? h
    · split at h
      · exact subject_ne_nil_of_withWord? h
      · cases h

theorem isBlank_of_isSubjectChar {c : Char} (h : isSubjectChar c = true) : isBlank c = false := by
  cases hblank : isBlank c with
  | false => rfl
  | true =>
    rw [isSubjectChar, isWord_eq_false_of_isBlank hblank, Bool.false_or, List.contains_iff_mem] at h
    have hall : (".\"`[]".toList.any isBlank) = false := by decide
    exact absurd hblank (List.any_eq_false.1 hall c h)

/-- What is taken off the end of a text with a comparison begins with a character of the subject. -/
theorem exists_of_comparison? {e : Ending Comparison} (h : comparison? reversed = some e) :
    ∃ p, reversed = p ++ e.before ∧
      unspaced p.reverse = unspaced e.piece.subject ++ unspaced e.piece.operator ∧
      ∃ c ∈ p.getLast?, isBlank c = false := by
  have hfound := found_of_comparison? h
  obtain ⟨w, hw, hunspaced⟩ := hfound.written
  obtain ⟨u, hu, -⟩ := (bounded_of_comparison? h).written
  obtain ⟨c, subject, hsubject⟩ := List.exists_cons_of_ne_nil (subject_ne_nil_of_comparison? h)
  refine ⟨w, hw, hunspaced, c, ?_, isBlank_of_isSubjectChar (hfound.subject c (by simp [hsubject]))⟩
  rw [← List.append_assoc] at hu
  rw [List.append_cancel_right (hw.symm.trans hu), hsubject]
  simp

/-- Texts that differ in blanks only and do not begin with one are cut off in the same place. -/
theorem eq_of_append_eq {p' before' : Text} (h : p ++ before = p' ++ before')
    (hunspaced : unspaced p = unspaced p') (hp : ∃ c ∈ p.getLast?, isBlank c = false)
    (hp' : ∃ c ∈ p'.getLast?, isBlank c = false) : p = p' ∧ before = before' := by
  have hend {q x : Text} (hx : unspaced (q ++ x) = unspaced q)
      (hlast : ∃ c ∈ (q ++ x).getLast?, isBlank c = false) : x = [] := by
    rw [unspaced_append] at hx
    have hblank := unspaced_eq_nil_iff.1 (List.append_cancel_left (hx.trans (List.append_nil _).symm))
    obtain ⟨c, hc, hsolid⟩ := hlast
    rcases x.eq_nil_or_concat with rfl | ⟨init, d, rfl⟩
    · rfl
    · rw [List.concat_eq_append, ← List.append_assoc, List.getLast?_concat] at hc
      obtain rfl := Option.some.inj hc
      rw [List.all_eq_true.1 hblank d (by simp)] at hsolid
      cases hsolid
  rcases List.append_eq_append_iff.1 h with ⟨x, rfl, rfl⟩ | ⟨x, rfl, rfl⟩
  · obtain rfl := hend hunspaced.symm hp'
    simp
  · obtain rfl := hend hunspaced hp
    simp

end Ending

namespace Draft

/-- Two lines that are being read and are the same but for lone conditions of the first one. -/
def Alike (d d' : Draft) : Prop := Splice.Alike d.text d.splices d'.text d'.splices

variable {d d' : Draft}

theorem alike_start (n n' : Nat) : (start n).Alike (start n') := .nil

theorem Alike.write (h : d.Alike d') (t : Text) : (d.write t).Alike (d'.write t) := by
  rw [Alike, text_write, text_write]
  exact Splice.Alike.text h t

theorem Alike.merge (h : d.Alike d') {l l' : Line}
    (hl : Splice.Alike l.sql l.splices l'.sql l'.splices) : (d.merge l).Alike (d'.merge l') := by
  have hfilled := Splice.Alike.append (h.write ['(']) hl
  have hclosed := hfilled.text [')']
  rw [length_text, length_text] at hclosed
  simpa [Alike, Draft.merge, text] using hclosed

theorem Alike.exists_tail (h : d.Alike d') :
    ∃ b b' w, d.reversed = w ++ b ∧ d'.reversed = w ++ b' ∧ d.settled = b.length ∧
      d'.settled = b'.length ∧ ∀ p u, w = p ++ u →
        Alike { d with reversed := u ++ b } { d' with reversed := u ++ b' } := by
  obtain ⟨b, b', w, ht, ht', hb, hb', hcut⟩ := Splice.Alike.exists_tail h
  refine ⟨b.reverse, b'.reverse, w.reverse, ?_, ?_, ?_, ?_, ?_⟩
  · rw [← List.reverse_append, ← ht, text, List.reverse_reverse]
  · rw [← List.reverse_append, ← ht', text, List.reverse_reverse]
  · rw [List.length_reverse]
    exact hb
  · rw [List.length_reverse]
    exact hb'
  · intro p u hw
    have hcut := hcut u.reverse ⟨p.reverse, by rw [← List.reverse_append, ← hw, List.reverse_reverse]⟩
    simpa [Alike, text] using hcut

/-- What is taken off a text does not reach into what is settled. -/
theorem exists_of_append_eq {w b p before : Text} (h : w ++ b = p ++ before)
    (hle : b.length ≤ before.length) : ∃ u, w = p ++ u ∧ before = u ++ b := by
  rcases List.append_eq_append_iff.1 h with ⟨x, rfl, hb⟩ | ⟨x, hw, hbefore⟩
  · have hx : x = [] := by
      rw [hb, List.length_append] at hle
      exact List.length_eq_zero_iff.1 (by omega)
    rw [hx, List.nil_append] at hb
    exact ⟨[], by simp [hx], hb.symm⟩
  · exact ⟨x, hw, hbefore⟩

/-- What is taken off the end of one line can be taken off the other. -/
theorem Alike.cut (h : d.Alike d') {p before : Text} (hreversed : d.reversed = p ++ before)
    (hsettled : d.settled ≤ before.length) :
    ∃ before', d'.reversed = p ++ before' ∧ d'.settled ≤ before'.length ∧
      Alike { d with reversed := before } { d' with reversed := before' } := by
  obtain ⟨b, b', w, hd, hd', hb, hb', hcut⟩ := h.exists_tail
  obtain ⟨u, hw, rfl⟩ := exists_of_append_eq (hd.symm.trans hreversed) (hb ▸ hsettled)
  refine ⟨u ++ b', by rw [hd', hw, List.append_assoc], ?_, hcut p u hw⟩
  rw [hb', List.length_append]
  exact Nat.le_add_left ..

theorem Alike.cut_symm (h : d.Alike d') {p before' : Text} (hreversed : d'.reversed = p ++ before')
    (hsettled : d'.settled ≤ before'.length) :
    ∃ before, d.reversed = p ++ before ∧ d.settled ≤ before.length := by
  obtain ⟨b, b', w, hd, hd', hb, hb', -⟩ := h.exists_tail
  obtain ⟨u, hw, rfl⟩ := exists_of_append_eq (hd'.symm.trans hreversed) (hb' ▸ hsettled)
  refine ⟨u ++ b, by rw [hd, hw, List.append_assoc], ?_⟩
  rw [hb, List.length_append]
  exact Nat.le_add_left ..

theorem takeMark_of_mark? {e : Ending Text} (h : Ending.mark? d.reversed = some e)
    (hsettled : d.settled ≤ e.before.length) :
    d.takeMark = (some e.piece, { d with reversed := e.before }) := by
  have htake : d.take? (Ending.mark? d.reversed) = some (e.piece, { d with reversed := e.before }) := by
    rw [h]
    exact if_pos hsettled
  rw [takeMark, htake]

/-- The same mark is taken off both lines. -/
theorem Alike.takeMark (h : d.Alike d') :
    d'.takeMark.1 = d.takeMark.1 ∧ d.takeMark.2.Alike d'.takeMark.2 := by
  rcases d.takeMark_cases with htake | ⟨e, hending, hsettled, htake⟩
  · rcases d'.takeMark_cases with htake' | ⟨e', hending', hsettled', htake'⟩
    · rw [htake, htake']
      exact ⟨rfl, h⟩
    · -- What is taken off the second line could be taken off the first one.
      obtain ⟨⟨gap, -, hreversed⟩, -⟩ := Ending.exists_of_mark? hending'
      rw [← List.append_assoc] at hreversed
      obtain ⟨before, hbefore, hle⟩ := h.cut_symm hreversed hsettled'
      have hmark := Ending.mark?_append hending' hreversed before
      rw [← hbefore] at hmark
      rw [takeMark_of_mark? hmark hle] at htake
      cases htake
  · obtain ⟨⟨gap, -, hreversed⟩, -⟩ := Ending.exists_of_mark? hending
    rw [← List.append_assoc] at hreversed
    obtain ⟨before, hbefore, hle, halike⟩ := h.cut hreversed hsettled
    have hmark := Ending.mark?_append hending hreversed before
    rw [← hbefore] at hmark
    rw [htake, takeMark_of_mark? hmark hle]
    exact ⟨rfl, halike⟩

/-- Lines stay alike if the same comparison is taken off both. -/
theorem Alike.takeComparison (h : d.Alike d') (hsame : d'.takeComparison.1 = d.takeComparison.1) :
    d.takeComparison.2.Alike d'.takeComparison.2 := by
  rcases d.takeComparison_cases with htake | ⟨e, hending, hsettled, htake⟩ <;>
    rcases d'.takeComparison_cases with htake' | ⟨e', hending', hsettled', htake'⟩ <;>
      rw [htake, htake'] at hsame ⊢
  · exact h
  · cases hsame
  · cases hsame
  · obtain ⟨p, hreversed, hunspaced, hsolid⟩ := Ending.exists_of_comparison? hending
    obtain ⟨p', hreversed', hunspaced', hsolid'⟩ := Ending.exists_of_comparison? hending'
    obtain ⟨before, hbefore, -, halike⟩ := h.cut hreversed hsettled
    have hpiece := Option.some.inj hsame
    rw [hpiece, ← hunspaced, unspaced_reverse, unspaced_reverse, List.reverse_inj] at hunspaced'
    obtain ⟨-, hrest⟩ :=
      Ending.eq_of_append_eq (hbefore.symm.trans hreversed') hunspaced'.symm hsolid hsolid'
    rw [← hrest]
    exact halike

theorem Alike.spliceSame (h : d.Alike d') {x x' : Directive} (hx : x.Same x') :
    (d.splice fun offset => .directive offset x).Alike
      (d'.splice fun offset => .directive offset x') := by
  have hadded := Splice.Alike.same h hx
  rwa [length_text, length_text] at hadded

/-- Lines stay alike if the same directive is added to both and takes the same comparison. -/
theorem Alike.addCompiled (h : d.Alike d') {e : Expression} {sample : Option Text}
    (hsame : e.isCondition = true → (d'.takeFor e sample).1 = (d.takeFor e sample).1)
    (n n' : Nat) (source : Text) :
    (d.addCompiled n source e sample).Alike (d'.addCompiled n' source e sample) := by
  rw [addCompiled_eq, addCompiled_eq]
  unfold takeFor at hsame ⊢
  split
  · rename_i htakes
    rw [if_pos htakes, if_pos htakes] at hsame
    have hcomparison := hsame (Bool.and_eq_true_iff.1 htakes).1
    exact (h.takeComparison hcomparison).spliceSame ⟨rfl, rfl, hcomparison⟩
  · exact h.spliceSame ⟨rfl, rfl, rfl⟩

/-- A condition takes nothing off the end of its line, or the comparison that the line ends with. -/
theorem takeFor_cases (e : Expression) (sample : Option Text) (d : Draft) :
    d.takeFor e sample = (none, d) ∨
      ∃ found, Ending.comparison? d.reversed = some found ∧ d.settled ≤ found.before.length ∧
        d.takeFor e sample = (some found.piece, { d with reversed := found.before }) := by
  unfold takeFor
  split
  · exact d.takeComparison_cases
  · exact .inl rfl

/-- Lines stay alike if the first one takes a comparison that the second one keeps in its text. -/
theorem Alike.splicePlain (h : d.Alike d') {e : Expression} {sample : Option Text} {x x' : Directive}
    (hx : x.PlainIn x') (hcomparison : x.comparison = (d.takeFor e sample).1) :
    ((d.takeFor e sample).2.splice fun offset => .directive offset x).Alike
      (d'.splice fun offset => .directive offset x') := by
  rcases d.takeFor_cases e sample with htake | ⟨found, hending, hsettled, htake⟩ <;>
    rw [htake] at hcomparison ⊢
  · have hadded := Splice.Alike.plain h hx (w := []) (by rw [hcomparison]; rfl)
    rw [List.append_nil, length_text, length_text] at hadded
    exact hadded
  · obtain ⟨p, hreversed, hunspaced, -⟩ := Ending.exists_of_comparison? hending
    obtain ⟨before, hbefore, -, halike⟩ := h.cut hreversed hsettled
    have hadded := Splice.Alike.plain halike hx (w := p.reverse)
      (by rw [hcomparison, hunspaced, comparisonText, unspaced_append])
    have htext : before.reverse ++ p.reverse = d'.text := by
      rw [text, hbefore, List.reverse_append]
    rw [show text { d' with reversed := before } = before.reverse from rfl, htext, length_text,
      length_text] at hadded
    exact hadded

end Draft

end SqlTemplate
