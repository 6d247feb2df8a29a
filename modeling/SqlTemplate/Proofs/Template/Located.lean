import SqlTemplate.Proofs.Source.Plain
import SqlTemplate.Proofs.Source.Seams
import SqlTemplate.Proofs.Template.Reading

/-!
# Where flaws are found

A reader counts the line ends that it passes, and every line number that it keeps is one that it was
on. So a flaw of a text is found on one of the lines of the text (`Template.place_of_parse`).
-/

namespace SqlTemplate

/-- The comments that are open at the end of a text were opened on lines of it, if those were that
are open where it begins. -/
theorem Comment.le_of_mem_openLines {first line : Nat} {stack : List Nat} {t : Text}
    (hstack : ∀ k ∈ stack, first ≤ k ∧ k ≤ line) (hline : first ≤ line) :
    ∀ k ∈ openLines stack line t, first ≤ k ∧ k ≤ line + lineEnds t := by
  fun_induction openLines stack line t with
  | case1 stack line => exact hstack
  | case2 stack line t ih =>
      have hends : lineEnds ('*' :: '/' :: t) = lineEnds t := rfl
      rw [hends]
      exact ih (fun k hk => hstack k (List.mem_of_mem_drop hk)) hline
  | case3 stack line t ih =>
      have hends : lineEnds ('/' :: '*' :: t) = lineEnds t := rfl
      rw [hends]
      exact ih (List.forall_mem_cons.2 ⟨⟨hline, Nat.le_refl _⟩, hstack⟩) hline
  | case4 stack line t ih =>
      have hends : lineEnds ('\r' :: '\n' :: t) = lineEnds t + 1 := rfl
      intro k hk
      have hmem := ih (fun k hk => ⟨(hstack k hk).1, Nat.le_succ_of_le (hstack k hk).2⟩)
        (Nat.le_succ_of_le hline) k hk
      omega
  | case5 stack line c t _ _ hcrlf ih =>
      have hends : lineEnds (c :: t) = (if isLineBreak c then 1 else 0) + lineEnds t := by
        refine lineEnds_cons fun hc hhead => ?_
        obtain ⟨u, hu⟩ := List.head?_eq_some_iff.1 hhead
        exact hcrlf u hc hu
      have hnext : line ≤ if isLineBreak c then line + 1 else line := by split <;> omega
      intro k hk
      have hmem := ih (fun k hk => ⟨(hstack k hk).1, (hstack k hk).2.trans hnext⟩)
        (hline.trans hnext) k hk
      have hsum : (if isLineBreak c then line + 1 else line) =
          line + if isLineBreak c then 1 else 0 := by split <;> rfl
      rw [hsum, Nat.add_assoc, ← hends] at hmem
      exact hmem

namespace Reader

/-- The lines that a reader knows of are lines up to the one it is on. -/
structure Located (r : Reader) : Prop where
  line : 1 ≤ r.line
  opened : ∀ s ∈ r.inner :: r.outer, 1 ≤ s.openedAt ∧ s.openedAt ≤ r.line

variable {registry : Registry} {r next : Reader} {l : Lexeme} {m : Misfit}

theorem Located.mono (h : r.Located) (hline : r.line ≤ next.line)
    (hopened : ∀ s ∈ next.inner :: next.outer,
      (∃ s' ∈ r.inner :: r.outer, s.openedAt = s'.openedAt) ∨ s.openedAt = r.line) :
    next.Located := by
  refine ⟨h.line.trans hline, fun s hs => ?_⟩
  rcases hopened s hs with ⟨s', hs', heq⟩ | heq
  · rw [heq]
    exact ⟨(h.opened s' hs').1, (h.opened s' hs').2.trans hline⟩
  · rw [heq]
    exact ⟨h.line, hline⟩

/-- Spans are opened on the line that the reader is on, and keep the line that they were opened
on. -/
theorem openedAt_of_readContent (hr : r.readContent registry l = .ok next) :
    ∀ s ∈ next.inner :: next.outer,
      (∃ s' ∈ r.inner :: r.outer, s.openedAt = s'.openedAt) ∨ s.openedAt = r.line := by
  have hedited : ∀ inner : Span, inner.openedAt = r.inner.openedAt →
      ∀ s ∈ inner :: r.outer,
        (∃ s' ∈ r.inner :: r.outer, s.openedAt = s'.openedAt) ∨ s.openedAt = r.line := by
    intro inner hinner s hs
    rcases List.mem_cons.1 hs with rfl | hs
    · exact .inl ⟨r.inner, List.mem_cons_self .., hinner⟩
    · exact .inl ⟨s, List.mem_cons_of_mem _ hs, rfl⟩
  have hdirective : ∀ source add, r.addDirective source add = .ok next →
      ∀ s ∈ next.inner :: next.outer,
        (∃ s' ∈ r.inner :: r.outer, s.openedAt = s'.openedAt) ∨ s.openedAt = r.line := by
    intro source add hadd
    obtain ⟨d, -, rfl⟩ := addDirective_eq_ok hadd
    exact hedited _ rfl
  cases l with
  | plain c =>
      obtain rfl := Except.ok.inj hr
      exact hedited _ rfl
  | quoted q body =>
      obtain rfl := Except.ok.inj hr
      exact hedited _ rfl
  | hint body =>
      obtain rfl := Except.ok.inj hr
      exact hedited _ rfl
  | remark body =>
      obtain rfl := Except.ok.inj hr
      exact hedited _ rfl
  | comment body =>
      obtain rfl := Except.ok.inj hr
      exact hedited _ rfl
  | lineEnd e =>
      obtain rfl := Except.ok.inj hr
      exact hedited _ rfl
  | opening =>
      obtain rfl := Except.ok.inj hr
      intro s hs
      rcases List.mem_cons.1 hs with rfl | hs
      · exact .inr rfl
      · exact hedited _ rfl s hs
  | closing =>
      obtain ⟨s', outer, houter, rfl⟩ := readContent_closing_eq_ok hr
      have henclosed : ∀ lines, (s'.enclose lines).openedAt = s'.openedAt := by
        intro lines
        unfold Span.enclose
        split <;> rfl
      intro s hs
      rw [houter]
      rcases List.mem_cons.1 hs with rfl | hs
      · exact .inl ⟨s', by simp, henclosed _⟩
      · exact .inl ⟨s, by simp [hs], rfl⟩
  | lineDirective body => exact hdirective _ _ hr
  | blockDirective body sample => exact hdirective _ _ hr
  | strayClose => simp [Reader.readContent] at hr
  | openQuote q rest => simp [Reader.readContent] at hr
  | openComment rest => simp [Reader.readContent] at hr
  | openSample body rest => simp [Reader.readContent] at hr

theorem first_of_addDirective {source : Text} {add : Draft → Except Problem Draft}
    (hr : r.addDirective source add = .error m) : m.first = r.line := by
  unfold addDirective at hr
  split at hr
  · simp at hr
  · obtain rfl := Except.error.inj hr
    rfl

/-- A flaw is found on a line of the lexeme that has it. -/
theorem first_of_readContent (hr : r.readContent registry l = .error m) :
    r.line ≤ m.first ∧ m.first ≤ r.line + lineEnds l.source := by
  have hhere : m.first = r.line →
      r.line ≤ m.first ∧ m.first ≤ r.line + lineEnds l.source := by
    intro hfirst
    rw [hfirst]
    exact ⟨Nat.le_refl _, Nat.le_add_right ..⟩
  cases l with
  | closing =>
      simp only [readContent] at hr
      split at hr
      · obtain rfl := Except.error.inj hr
        exact hhere rfl
      · simp at hr
  | lineDirective body => exact hhere (first_of_addDirective hr)
  | blockDirective body sample => exact hhere (first_of_addDirective hr)
  | strayClose =>
      obtain rfl := Except.error.inj hr
      exact hhere rfl
  | openQuote q rest =>
      obtain rfl := Except.error.inj hr
      exact hhere rfl
  | openComment rest =>
      obtain rfl := Except.error.inj hr
      have hends : lineEnds (Lexeme.openComment rest).source = lineEnds rest := rfl
      rw [hends]
      have hall := Comment.le_of_mem_openLines (t := rest)
        (List.forall_mem_singleton.2 ⟨Nat.le_refl r.line, Nat.le_refl r.line⟩) (Nat.le_refl r.line)
      cases hlines : Comment.openLines [r.line] r.line rest with
      | nil => exact ⟨Nat.le_refl _, Nat.le_add_right ..⟩
      | cons k ks => exact hall k (by rw [hlines]; exact List.mem_cons_self ..)
  | openSample body rest =>
      obtain rfl := Except.error.inj hr
      have hends : lineEnds (Lexeme.openSample body rest).source =
          lineEnds body + lineEnds ('*' :: '/' :: rest) :=
        lineEnds_append (sealed_of_head? rfl (by decide : isLineBreak '*' = false) body)
      rw [hends]
      dsimp only
      omega
  | _ => simp [readContent] at hr

/-- A flaw is found behind the place where reading begins, and not behind the end of the text. -/
theorem Located.first_of_linesAfter {t : Text} (h : r.Located)
    (hr : r.linesAfter registry (lexemes t) = .error m) :
    1 ≤ m.first ∧ m.first ≤ r.line + lineEnds t := by
  fun_induction lexemes t generalizing r with
  | case1 =>
      rw [linesAfter_nil, finish] at hr
      split at hr
      · simp at hr
      · obtain rfl := Except.error.inj hr
        exact h.opened r.inner (List.mem_cons_self ..)
  | case2 c t ih =>
      rw [Lexeme.lineEnds_first]
      rw [linesAfter_cons] at hr
      split at hr
      · rename_i next hnext
        have hopened := openedAt_of_readContent hnext
        have hlocated : Located { next with line := r.line + lineEnds (Lexeme.first c t).1.source } :=
          h.mono (Nat.le_add_right ..) hopened
        have hmem := ih hlocated hr
        dsimp only at hmem
        omega
      · rename_i hflaw
        obtain rfl := Except.error.inj hr
        have hmem := first_of_readContent hflaw
        have hline := h.line
        omega

end Reader

/-- What is wrong with a text is said with the name of the template and a line of the text. -/
theorem Template.place_of_parse {registry : Registry} {resource : Option Text} {text : Text}
    {e : FormatError} (h : parse registry resource text = .error e) :
    e.place.resource = resource ∧
      ∃ n, e.place.first = some n ∧ 1 ≤ n ∧ n ≤ 1 + lineEnds text := by
  have hstart : Reader.start.Located := by
    refine ⟨Nat.le_refl 1, ?_⟩
    intro s hs
    rw [List.mem_singleton.1 hs]
    exact ⟨Nat.le_refl 1, Nat.le_refl 1⟩
  unfold parse at h
  split at h
  · simp at h
  · rename_i m hm
    obtain rfl := Except.error.inj h
    exact ⟨rfl, m.first, rfl, hstart.first_of_linesAfter hm⟩

end SqlTemplate
