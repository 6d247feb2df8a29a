import Mathlib.Data.List.Forall2
import SqlTemplate.Proofs.Line.Alike

/-!
# Plain references in place of lone conditions

`plainText` is a template text in which every block directive that is a lone condition is written as a
plain reference. Which directives these are depends on the comparisons that they take, so the text is
read along (`Reader.plainReferences`). Both texts are read side by side: the second one is a template
if the first one is, and the line of a text without line ends is like that of the first one as long as
the conditions that are left take the same comparisons (`alike_of_parse`).
-/

namespace SqlTemplate

/-- A block directive with plain references in place of its conditions. -/
def Lexeme.plainReference : Lexeme → Lexeme
  | blockDirective body sample => blockDirective (plainSigns body) sample
  | l => l

theorem Lexeme.plainSigned_plainReference (l : Lexeme) :
    l.plainReference.plainSigned = l.plainSigned := by
  cases l with
  | blockDirective body sample => simp only [plainReference, plainSigned, plainSigns_plainSigns]
  | _ => rfl

namespace Reader

/-- Whether a lexeme that was read is a block directive and has added a lone condition. -/
def addsLoneCondition (next : Reader) : Lexeme → Bool
  | .blockDirective _ _ =>
    match next.inner.draft.splices.getLast? with
    | some (.directive _ x) => x.isLoneCondition
    | _ => false
  | _ => false

/-- The lexeme to read in place of one that was read. -/
def plainReference (next : Reader) (l : Lexeme) : Lexeme :=
  if next.addsLoneCondition l then l.plainReference else l

/-- Lexemes with plain references in place of the lone conditions that are read. -/
def plainReferences (registry : Registry) (r : Reader) : List Lexeme → List Lexeme
  | [] => []
  | l :: ls =>
    match r.read registry l with
    | .ok next => next.plainReference l :: next.plainReferences registry ls
    | .error _ => l :: ls

theorem map_plainSigned_plainReferences (registry : Registry) (r : Reader) (ls : List Lexeme) :
    (r.plainReferences registry ls).map Lexeme.plainSigned = ls.map Lexeme.plainSigned := by
  induction ls generalizing r with
  | nil => rfl
  | cons l ls ih =>
    rw [plainReferences]
    split
    · rename_i next _
      have hfirst : (next.plainReference l).plainSigned = l.plainSigned := by
        unfold plainReference
        split
        · exact l.plainSigned_plainReference
        · rfl
      rw [List.map_cons, List.map_cons, hfirst, ih]
    · rfl

end Reader

/-- A text with plain references in place of the lone conditions in its block comments. -/
def plainText (registry : Registry) (text : Text) : Text :=
  (Reader.start.plainReferences registry (lexemes text)).flatMap Lexeme.source

theorem lexemes_plainText (registry : Registry) (text : Text) :
    lexemes (plainText registry text) = Reader.start.plainReferences registry (lexemes text) :=
  lexemes_flatMap_source (Reader.start.map_plainSigned_plainReferences registry (lexemes text))

/-- The directives among splices. -/
def Splice.directives (splices : List Splice) : List Directive :=
  splices.filterMap Splice.directive?

/-- Where the second one of two directives in the same place is a condition, it has taken the same
comparison as the first one. -/
def SameCaptures (xs xs' : List Directive) : Prop :=
  ∀ p ∈ xs.zip xs', p.2.expression.isCondition = true → p.2.comparison = p.1.comparison

theorem mem_zip_of_initial {α β : Type} {xs ys : List α} {us vs : List β} (h : xs <+: ys)
    (h' : us <+: vs) {p : α × β} (hp : p ∈ xs.zip us) : p ∈ ys.zip vs := by
  obtain ⟨a, rfl⟩ := h
  obtain ⟨b, rfl⟩ := h'
  induction xs generalizing us with
  | nil => cases hp
  | cons x xs ih =>
    cases us with
    | nil => cases hp
    | cons u us =>
      rcases List.mem_cons.1 hp with rfl | hp
      · exact List.mem_cons_self
      · exact List.mem_cons_of_mem _ (ih hp)

theorem SameCaptures.of_initial {xs ys xs' ys' : List Directive} (h : SameCaptures ys ys')
    (hx : xs <+: ys) (hx' : xs' <+: ys') : SameCaptures xs xs' :=
  fun _ hp => h _ (mem_zip_of_initial hx hx' hp)

theorem Splice.directives_map_shift (delta : Nat) (splices : List Splice) :
    directives (splices.map (shift delta)) = directives splices := by
  have hshift : directive? ∘ shift delta = directive? := by
    funext s
    cases s <;> rfl
  rw [directives, List.filterMap_map, hshift, directives]

theorem Splice.Alike.length_directives {t t' : Text} {ss ss' : List Splice} (h : Alike t ss t' ss') :
    (directives ss).length = (directives ss').length := by
  induction h with
  | nil => rfl
  | text _ _ ih => exact ih
  | same _ _ ih => simpa [directives, directive?] using ih
  | plain _ _ _ ih => simpa [directives, directive?] using ih

namespace Span

/-- The directives on the line that is being read in a span. -/
def lineDirectives (s : Span) : List Directive := Splice.directives s.draft.splices

theorem lines_of_finished {s : Span} (h : s.finished = []) (n : Nat) :
    s.lines n = [s.draft.finish n] := by
  rw [lines, h]
  rfl

theorem lineDirectives_enclose (l : Line) (s : Span) :
    (s.enclose [l]).lineDirectives = s.lineDirectives ++ Splice.directives l.splices := by
  rw [← Splice.directives_map_shift (s.draft.write ['(']).offset l.splices]
  exact List.filterMap_append ..

/-- Two spans of one line each, and the lines are alike. -/
structure Alike (s s' : Span) : Prop where
  finished : s.finished = []
  finished' : s'.finished = []
  draft : s.draft.Alike s'.draft

end Span

namespace Reader

/-- The directives on the line that is being read, in the order of the text. -/
def lineDirectives (r : Reader) : List Directive :=
  r.outer.reverse.flatMap Span.lineDirectives ++ r.inner.lineDirectives

/-- No line is finished. -/
def IsFirstLine (r : Reader) : Prop := r.inner.finished = [] ∧ ∀ s ∈ r.outer, s.finished = []

theorem IsFirstLine.withLine {r : Reader} (h : r.IsFirstLine) (n : Nat) :
    IsFirstLine { r with line := n } := h

/-- Two readers of one line each, and the lines are alike. -/
structure Alike (r r' : Reader) : Prop where
  inner : r.inner.Alike r'.inner
  outer : List.Forall₂ Span.Alike r.outer r'.outer

variable {registry : Registry} {r r' next next' : Reader} {l : Lexeme}

theorem lineDirectives_of_splices {d : Draft} {x : Directive} {n : Nat}
    (h : d.splices = r.inner.draft.splices ++ [.directive n x]) :
    lineDirectives { r with inner := { r.inner with draft := d } } = r.lineDirectives ++ [x] := by
  rw [lineDirectives, lineDirectives, Span.lineDirectives, Span.lineDirectives, h, Splice.directives,
    List.filterMap_append, List.append_assoc]
  rfl

theorem lineDirectives_addLine (r : Reader) (source : Text) (e : Expression) :
    lineDirectives { r with inner := { r.inner with
        draft := r.inner.draft.takeMark.2.addCompiled r.line source e r.inner.draft.takeMark.1 } } =
      r.lineDirectives ++ [⟨source, e, r.inner.draft.takeMark.1,
        (r.inner.draft.takeMark.2.takeFor e r.inner.draft.takeMark.1).1, some r.line⟩] := by
  have hsplices := Draft.splices_addCompiled r.line source e r.inner.draft.takeMark.1
    r.inner.draft.takeMark.2
  rw [(Draft.splices_takeMark _).1] at hsplices
  exact lineDirectives_of_splices hsplices

theorem lineDirectives_addBlock (r : Reader) (source : Text) (e : Expression) (sample : Option Text) :
    lineDirectives { r with inner := { r.inner with
        draft := r.inner.draft.addCompiled r.line source e sample } } =
      r.lineDirectives ++ [⟨source, e, sample, (r.inner.draft.takeFor e sample).1, some r.line⟩] :=
  lineDirectives_of_splices (Draft.splices_addCompiled ..)

theorem addsLoneCondition_addBlock (r : Reader) (body source : Text) (e : Expression)
    (sample sample' : Option Text) :
    addsLoneCondition { r with inner := { r.inner with
        draft := r.inner.draft.addCompiled r.line source e sample } } (.blockDirective body sample') =
      Directive.isLoneCondition
        ⟨source, e, sample, (r.inner.draft.takeFor e sample).1, some r.line⟩ := by
  simp only [addsLoneCondition, Draft.splices_addCompiled, List.getLast?_concat]

/-- Reading a lexeme that is no line end adds to the directives of the line. -/
theorem readContent_extends (h : r.IsFirstLine) (hl : ∀ e, l ≠ .lineEnd e)
    (hr : r.readContent registry l = .ok next) :
    next.IsFirstLine ∧ r.lineDirectives <+: next.lineDirectives := by
  cases l with
  | lineEnd e => exact absurd rfl (hl e)
  | opening =>
    obtain rfl := Except.ok.inj hr
    refine ⟨⟨rfl, List.forall_mem_cons.2 h⟩, ?_⟩
    simp [lineDirectives, Span.lineDirectives, Span.start, Draft.start, Splice.directives]
  | closing =>
    obtain ⟨s, outer, ho, rfl⟩ := readContent_closing_eq_ok hr
    have houter := h.2
    rw [ho, List.forall_mem_cons] at houter
    rw [Span.lines_of_finished h.1]
    refine ⟨houter, ?_⟩
    rw [lineDirectives, lineDirectives, ho, Span.lineDirectives_enclose, List.reverse_cons,
      List.flatMap_append, List.append_assoc]
    simp [Span.lineDirectives]
  | lineDirective body =>
    obtain ⟨d, hd, rfl⟩ := addDirective_eq_ok hr
    obtain ⟨e, -, rfl⟩ := Draft.addLine_eq_ok hd
    refine ⟨h, ?_⟩
    rw [lineDirectives_addLine]
    exact List.prefix_append ..
  | blockDirective body sample =>
    obtain ⟨d, hd, rfl⟩ := addDirective_eq_ok hr
    obtain ⟨e, -, rfl⟩ := Draft.addBlock_eq_ok hd
    refine ⟨h, ?_⟩
    rw [lineDirectives_addBlock]
    exact List.prefix_append ..
  | strayClose => cases hr
  | openQuote q rest => cases hr
  | openComment rest => cases hr
  | openSample body rest => cases hr
  | _ =>
    obtain rfl := Except.ok.inj hr
    exact ⟨h, List.prefix_rfl⟩

theorem readAll_extends {ls : List Lexeme} (h : r.IsFirstLine) (hl : ∀ e, .lineEnd e ∉ ls)
    (hr : r.readAll registry ls = .ok next) :
    next.IsFirstLine ∧ r.lineDirectives <+: next.lineDirectives := by
  induction ls generalizing r with
  | nil =>
    obtain rfl := Except.ok.inj hr
    exact ⟨h, List.prefix_rfl⟩
  | cons l ls ih =>
    simp only [List.mem_cons, not_or] at hl
    obtain ⟨content, hc, hrest⟩ := readAll_cons_eq_ok hr
    obtain ⟨hfirst, hstep⟩ := readContent_extends h (fun e heq => (hl e).1 heq.symm) hc
    obtain ⟨hlast, hprefix⟩ := ih (hfirst.withLine _) (fun e => (hl e).2) hrest
    exact ⟨hlast, hstep.trans hprefix⟩

theorem Alike.length_lineDirectives (h : r.Alike r') :
    r'.lineDirectives.length = r.lineDirectives.length := by
  have hinner := Splice.Alike.length_directives h.inner.draft
  have houter {ss ss' : List Span} (hss : List.Forall₂ Span.Alike ss ss') :
      (ss'.reverse.flatMap Span.lineDirectives).length =
        (ss.reverse.flatMap Span.lineDirectives).length := by
    induction hss with
    | nil => rfl
    | cons hs _ ih =>
      have hs := Splice.Alike.length_directives hs.draft
      simp only [List.reverse_cons, List.flatMap_append, List.flatMap_singleton, List.length_append]
      rw [ih]
      exact congrArg _ hs.symm
  rw [lineDirectives, lineDirectives, List.length_append, List.length_append, houter h.outer]
  exact congrArg _ hinner.symm

theorem Alike.comparison_eq (h : r.Alike r') {x x' : Directive}
    (hx : next.lineDirectives = r.lineDirectives ++ [x])
    (hx' : next'.lineDirectives = r'.lineDirectives ++ [x'])
    (hsame : SameCaptures next.lineDirectives next'.lineDirectives)
    (hcondition : x'.expression.isCondition = true) :
    x'.comparison = x.comparison := by
  refine hsame (x, x') ?_ hcondition
  rw [hx, hx', List.zip_append h.length_lineDirectives.symm]
  exact List.mem_append_right _ List.mem_cons_self

theorem Alike.withDraft (h : r.Alike r') {d d' : Draft} (hd : d.Alike d') :
    Alike { r with inner := { r.inner with draft := d } }
      { r' with inner := { r'.inner with draft := d' } } :=
  ⟨⟨h.inner.finished, h.inner.finished', hd⟩, h.outer⟩

theorem Alike.write (h : r.Alike r') (t : Text) : (r.write t).Alike (r'.write t) :=
  h.withDraft (h.inner.draft.write t)

/-- Two readers stay alike if the conditions that both have read take the same comparisons. -/
theorem Alike.readContent (h : r.Alike r') (hl : ∀ e, l ≠ .lineEnd e)
    (hr : r.readContent registry l = .ok next)
    (hr' : r'.readContent registry (next.plainReference l) = .ok next')
    (hsame : SameCaptures next.lineDirectives next'.lineDirectives) : next.Alike next' := by
  cases l with
  | lineEnd e => exact absurd rfl (hl e)
  | opening =>
    obtain rfl := Except.ok.inj hr
    obtain rfl := Except.ok.inj hr'
    exact ⟨⟨rfl, rfl, Draft.alike_start _ _⟩, .cons h.inner h.outer⟩
  | closing =>
    obtain ⟨s, outer, ho, rfl⟩ := readContent_closing_eq_ok hr
    obtain ⟨s', outer', ho', rfl⟩ := readContent_closing_eq_ok hr'
    have houter := h.outer
    rw [ho, ho', List.forall₂_cons] at houter
    obtain ⟨hs, houter⟩ := houter
    rw [Span.lines_of_finished h.inner.finished, Span.lines_of_finished h.inner.finished']
    exact ⟨⟨hs.finished, hs.finished', hs.draft.merge h.inner.draft⟩, houter⟩
  | lineDirective body =>
    obtain ⟨d, hd, rfl⟩ := addDirective_eq_ok hr
    obtain ⟨d', hd', rfl⟩ := addDirective_eq_ok hr'
    obtain ⟨e, he, rfl⟩ := Draft.addLine_eq_ok hd
    obtain ⟨e', he', rfl⟩ := Draft.addLine_eq_ok hd'
    obtain rfl := Except.ok.inj (he.symm.trans he')
    obtain ⟨hmark, htaken⟩ := h.inner.draft.takeMark
    have hcomparison := h.comparison_eq (lineDirectives_addLine ..) (lineDirectives_addLine ..) hsame
    rw [hmark] at hcomparison ⊢
    exact h.withDraft (htaken.addCompiled hcomparison _ _ _)
  | blockDirective body sample =>
    obtain ⟨d, hd, rfl⟩ := addDirective_eq_ok hr
    obtain ⟨e, he, rfl⟩ := Draft.addBlock_eq_ok hd
    rw [plainReference, addsLoneCondition_addBlock] at hr'
    split at hr'
    · -- A lone condition: its comparison is taken off the first line alone.
      rename_i hlone
      obtain ⟨d', hd', rfl⟩ := addDirective_eq_ok hr'
      obtain ⟨e', he', rfl⟩ := Draft.addBlock_eq_ok hd'
      rw [strip_plainSigns, Expression.compile_plainSigns he] at he'
      obtain rfl := Except.ok.inj he'
      obtain ⟨key, negated, hexpression, -⟩ := Directive.isLoneCondition_iff.1 hlone
      obtain rfl : e = [.reference .condition key negated] := hexpression
      have hsampled c hc :=
        (r.inner.draft.isCondition_of_takeFor [.reference .condition key negated] sample c hc).2
      exact h.withDraft (h.inner.draft.splicePlain ⟨hlone, rfl, rfl, rfl, hsampled⟩ rfl)
    · obtain ⟨d', hd', rfl⟩ := addDirective_eq_ok hr'
      obtain ⟨e', he', rfl⟩ := Draft.addBlock_eq_ok hd'
      obtain rfl := Except.ok.inj (he.symm.trans he')
      have hcomparison := h.comparison_eq (lineDirectives_addBlock ..) (lineDirectives_addBlock ..) hsame
      exact h.withDraft (h.inner.draft.addCompiled hcomparison _ _ _)
  | strayClose => cases hr
  | openQuote q rest => cases hr
  | openComment rest => cases hr
  | openSample body rest => cases hr
  | plain c =>
    obtain rfl := Except.ok.inj hr
    obtain rfl := Except.ok.inj hr'
    exact h.write _
  | quoted q body =>
    obtain rfl := Except.ok.inj hr
    obtain rfl := Except.ok.inj hr'
    exact h.write _
  | hint body =>
    obtain rfl := Except.ok.inj hr
    obtain rfl := Except.ok.inj hr'
    exact h.write _
  | remark body =>
    obtain rfl := Except.ok.inj hr
    obtain rfl := Except.ok.inj hr'
    exact h
  | comment body =>
    obtain rfl := Except.ok.inj hr
    obtain rfl := Except.ok.inj hr'
    exact h

theorem exists_addDirective (r : Reader) (source : Text) {add : Draft → Except Problem Draft}
    {d : Draft} (hadd : add r.inner.draft = .ok d) :
    ∃ next, r.addDirective source add = .ok next ∧ next.outer = r.outer := by
  refine ⟨{ r with inner := { r.inner with draft := d } }, ?_, rfl⟩
  rw [addDirective, hadd]

theorem exists_addLine (r : Reader) {source : Text} {e : Expression}
    (he : Expression.compile registry source = .ok e) :
    ∃ next, r.addDirective source (Draft.addLine registry r.line source) = .ok next ∧
      next.outer = r.outer := by
  have hadd : r.inner.draft.addLine registry r.line source =
      .ok (r.inner.draft.takeMark.2.addCompiled r.line source e r.inner.draft.takeMark.1) := by
    rw [Draft.addLine, he]
  exact r.exists_addDirective source hadd

theorem exists_addBlock (r : Reader) {source : Text} {e : Expression}
    (he : Expression.compile registry source = .ok e) (sample : Option Text) :
    ∃ next, r.addDirective source (Draft.addBlock registry r.line source sample) = .ok next ∧
      next.outer = r.outer := by
  have hadd : r.inner.draft.addBlock registry r.line source sample =
      .ok (r.inner.draft.addCompiled r.line source e sample) := by
    rw [Draft.addBlock, he]
  exact r.exists_addDirective source hadd

/-- What is read in place of a lexeme that was read can be read. -/
theorem exists_readContent (h : r'.outer.length = r.outer.length)
    (hr : r.readContent registry l = .ok next) :
    ∃ next', r'.readContent registry (next.plainReference l) = .ok next' ∧
      next'.outer.length = next.outer.length := by
  cases l with
  | opening =>
    obtain rfl := Except.ok.inj hr
    exact ⟨_, rfl, congrArg (· + 1) h⟩
  | closing =>
    obtain ⟨s, outer, ho, rfl⟩ := readContent_closing_eq_ok hr
    rw [ho] at h
    obtain ⟨s', outer', ho'⟩ := List.exists_cons_of_length_eq_add_one h
    have hclosed : r'.readContent registry .closing =
        .ok { r' with inner := s'.enclose (r'.inner.lines r'.line), outer := outer' } := by
      simp only [readContent, ho']
    rw [ho'] at h
    exact ⟨_, hclosed, Nat.succ.inj h⟩
  | lineDirective body =>
    obtain ⟨d, hd, rfl⟩ := addDirective_eq_ok hr
    obtain ⟨e, he, rfl⟩ := Draft.addLine_eq_ok hd
    obtain ⟨next', hnext', houter⟩ := exists_addLine r' he
    exact ⟨next', hnext', houter ▸ h⟩
  | blockDirective body sample =>
    obtain ⟨d, hd, rfl⟩ := addDirective_eq_ok hr
    obtain ⟨e, he, rfl⟩ := Draft.addBlock_eq_ok hd
    rw [plainReference]
    split
    · have he' := Expression.compile_plainSigns he
      rw [← strip_plainSigns] at he'
      obtain ⟨next', hnext', houter⟩ := exists_addBlock r' he' sample
      exact ⟨next', hnext', houter ▸ h⟩
    · obtain ⟨next', hnext', houter⟩ := exists_addBlock (r := r') he sample
      exact ⟨next', hnext', houter ▸ h⟩
  | strayClose => cases hr
  | openQuote q rest => cases hr
  | openComment rest => cases hr
  | openSample body rest => cases hr
  | _ =>
    obtain rfl := Except.ok.inj hr
    exact ⟨_, rfl, h⟩

theorem plainReferences_cons (hr : r.readContent registry l = .ok next) (ls : List Lexeme) :
    r.plainReferences registry (l :: ls) = next.plainReference l ::
      plainReferences registry { next with line := r.line + lineEnds l.source } ls := by
  have hread : r.read registry l = .ok { next with line := r.line + lineEnds l.source } := by
    rw [read, hr]
  rw [plainReferences, hread]
  rfl

theorem readAll_cons (hr : r.readContent registry l = .ok next) (ls : List Lexeme) :
    r.readAll registry (l :: ls) =
      readAll registry { next with line := r.line + lineEnds l.source } ls := by
  rw [readAll, read, hr]

theorem not_lineEnd_plainReference (hl : ∀ e, l ≠ .lineEnd e) (next : Reader) (e : LineEnd) :
    next.plainReference l ≠ .lineEnd e := by
  unfold plainReference
  split
  · cases l with
    | lineEnd e => exact absurd rfl (hl e)
    | _ => exact Lexeme.noConfusion
  · exact hl e

theorem lineEnd_not_mem_plainReferences {ls : List Lexeme} {e : LineEnd} (hl : .lineEnd e ∉ ls) :
    .lineEnd e ∉ r.plainReferences registry ls := by
  intro hmem
  have hplain : Lexeme.plainSigned (.lineEnd e) ∈ _ := List.mem_map_of_mem hmem
  rw [map_plainSigned_plainReferences] at hplain
  obtain ⟨l, hmem, heq⟩ := List.mem_map.1 hplain
  cases l with
  | lineEnd e' =>
    rw [Lexeme.lineEnd.inj heq] at hmem
    exact hl hmem
  | _ => cases heq

theorem Alike.isFirstLine (h : r.Alike r') : r.IsFirstLine ∧ r'.IsFirstLine := by
  have houter {ss ss' : List Span} (hss : List.Forall₂ Span.Alike ss ss') :
      (∀ s ∈ ss, s.finished = []) ∧ ∀ s ∈ ss', s.finished = [] := by
    induction hss with
    | nil => exact ⟨List.forall_mem_nil _, List.forall_mem_nil _⟩
    | cons hs _ ih =>
      exact ⟨List.forall_mem_cons.2 ⟨hs.finished, ih.1⟩, List.forall_mem_cons.2 ⟨hs.finished', ih.2⟩⟩
  exact ⟨⟨h.inner.finished, (houter h.outer).1⟩, h.inner.finished', (houter h.outer).2⟩

/-- What is read in place of lexemes that were read can be read, and readers that are alike stay alike
if the conditions that both have read take the same comparisons. -/
theorem exists_readAll {ls : List Lexeme} (h : r'.outer.length = r.outer.length)
    (hl : ∀ e, .lineEnd e ∉ ls) (hr : r.readAll registry ls = .ok next) :
    ∃ next', r'.readAll registry (r.plainReferences registry ls) = .ok next' ∧
      next'.outer.length = next.outer.length ∧
      (r.Alike r' → SameCaptures next.lineDirectives next'.lineDirectives → next.Alike next') := by
  induction ls generalizing r r' with
  | nil =>
    obtain rfl := Except.ok.inj hr
    exact ⟨r', rfl, h, fun halike _ => halike⟩
  | cons l ls ih =>
    simp only [List.mem_cons, not_or] at hl
    obtain ⟨content, hc, hrest⟩ := readAll_cons_eq_ok hr
    obtain ⟨content', hc', houter⟩ := exists_readContent h hc
    have hmoved : List.length (outer { content' with
        line := r'.line + lineEnds (content.plainReference l).source }) =
          List.length (outer { content with line := r.line + lineEnds l.source }) := houter
    obtain ⟨next', hnext', hlength, hkeeps⟩ := ih hmoved (fun e => (hl e).2) hrest
    have hl' : ∀ e, l ≠ .lineEnd e := fun e heq => (hl e).1 heq.symm
    rw [plainReferences_cons hc, readAll_cons hc']
    refine ⟨next', hnext', hlength, fun halike hsame => ?_⟩
    have hfirst := (readContent_extends halike.isFirstLine.1 hl' hc).1
    have hfirst' := (readContent_extends halike.isFirstLine.2 (not_lineEnd_plainReference hl' _) hc').1
    have hprefix : content.lineDirectives <+: next.lineDirectives :=
      (readAll_extends (hfirst.withLine _) (fun e => (hl e).2) hrest).2
    have hprefix' : content'.lineDirectives <+: next'.lineDirectives :=
      (readAll_extends (hfirst'.withLine _) (fun e => lineEnd_not_mem_plainReferences (hl e).2) hnext').2
    have hcontent := halike.readContent hl' hc hc' (hsame.of_initial hprefix hprefix')
    exact hkeeps ⟨hcontent.inner, hcontent.outer⟩ hsame

end Reader

/-! ### Templates of one line -/

namespace Line

theorem nest_singleton (l : Line) :
    nest [l] = if l.isBlank then [] else [l.withChildren []] := by
  cases hl : l.isBlank <;> simp [nest, hl, depths, place]

/-- The directives of a line alone come first among those of the lines that it is the first one of. -/
theorem directives_initial (l : Line) (ls : List Line) :
    Splice.directives l.splices <+: deepDirectives (l :: ls) := by
  rw [deepDirectives, deepAll, deep_eq_cons, List.cons_append, List.flatMap_cons]
  exact List.prefix_append ..

theorem directives_initial_nest (l : Line) :
    Splice.directives l.splices <+: deepDirectives (nest [l]) := by
  rw [nest_singleton]
  split
  · rename_i hblank
    rw [List.isEmpty_iff.1 (Bool.and_eq_true_iff.1 hblank).2]
    exact List.nil_prefix
  · rw [← splices_withChildren [] l]
    exact directives_initial (l.withChildren []) []

end Line

/-- A text without line ends is read to a draft, which is finished to its only line. -/
theorem exists_readAll_of_flatLines {registry : Registry} {text : Text} {lines : List Line}
    (hline : ∀ e, .lineEnd e ∉ lexemes text) (h : flatLines registry text = .ok lines) :
    ∃ s, Reader.start.readAll registry (lexemes text) = .ok s ∧ s.outer = [] ∧
      lines = [s.inner.draft.finish s.line] := by
  unfold flatLines at h
  split at h
  · rename_i s hs
    have hfirst : Reader.start.IsFirstLine := ⟨rfl, List.forall_mem_nil _⟩
    have hlast := (Reader.readAll_extends hfirst hline hs).1
    unfold Reader.finish at h
    split at h
    · rename_i houter
      obtain rfl := Except.ok.inj h
      exact ⟨s, hs, houter, Span.lines_of_finished hlast.1 _⟩
    · cases h
  · cases h

/-- Two templates of at most one line, and their lines are alike. -/
structure Template.Alike (t t' : Template) : Prop where
  resource : t'.resource = t.resource
  lines : (t.lines = [] ∧ t'.lines = []) ∨ ∃ l l', t.lines = [l] ∧ t'.lines = [l'] ∧
    l.block? = none ∧ l'.block? = none ∧ Splice.Alike l.sql l.splices l'.sql l'.splices

/-- Directives of two templates in the same place take the same comparison if they are conditions in
the second one. -/
def Template.SameCaptures (t t' : Template) : Prop :=
  SqlTemplate.SameCaptures t.deepDirectives t'.deepDirectives

theorem Template.alike_nest {l l' : Line} (hl : l.block? = none) (hl' : l'.block? = none)
    (h : Splice.Alike l.sql l.splices l'.sql l'.splices) (resource : Option Text) :
    Alike ⟨Line.nest [l], resource⟩ ⟨Line.nest [l'], resource⟩ := by
  have hblank : l'.isBlank = l.isBlank := by
    unfold Line.isBlank
    cases hss : l.splices with
    | nil =>
      rw [hss] at h
      rw [h.eq_nil_iff.2 rfl, h.eq_of_nil]
    | cons s ss =>
      have hne : l'.splices ≠ [] := mt h.eq_nil_iff.1 (by rw [hss]; exact List.cons_ne_nil s ss)
      simp [hne]
  refine ⟨rfl, ?_⟩
  simp only [Line.nest_singleton, hblank, Line.withChildren_nil hl, Line.withChildren_nil hl']
  cases l.isBlank with
  | true => exact .inl ⟨rfl, rfl⟩
  | false => exact .inr ⟨l, l', rfl, rfl, hl, hl', h⟩

/-- A text without line ends is a template with plain references in place of its lone conditions if it
is one with them, and the lines of both are alike if the conditions that are left take the same
comparisons. -/
theorem alike_of_parse {registry : Registry} {resource : Option Text} {text : Text} {t : Template}
    (hline : ∀ e, .lineEnd e ∉ lexemes text) (ht : Template.parse registry resource text = .ok t) :
    ∃ t', Template.parse registry resource (plainText registry text) = .ok t' ∧
      (t.SameCaptures t' → t.Alike t') := by
  obtain ⟨lines, hlines, rfl⟩ := Template.exists_flatLines_of_parse ht
  obtain ⟨s, hs, houter, rfl⟩ := exists_readAll_of_flatLines hline hlines
  have hdepth : Reader.start.outer.length = Reader.start.outer.length := rfl
  obtain ⟨s', hs', hlength, hkeeps⟩ := Reader.exists_readAll hdepth hline hs
  rw [houter, List.length_nil, List.length_eq_zero_iff] at hlength
  have hplain : flatLines registry (plainText registry text) =
      .ok [s'.inner.draft.finish s'.line] := by
    have hfirst : Reader.start.IsFirstLine := ⟨rfl, List.forall_mem_nil _⟩
    have hlast := (Reader.readAll_extends hfirst
      (fun e => Reader.lineEnd_not_mem_plainReferences (hline e)) hs').1
    rw [flatLines, lexemes_plainText, hs']
    simp only [Reader.finish, hlength, Span.lines_of_finished hlast.1]
  refine ⟨_, by rw [Template.parse, hplain], fun hsame => ?_⟩
  have hstart : Reader.start.Alike Reader.start := ⟨⟨rfl, rfl, Draft.alike_start 1 1⟩, .nil⟩
  have hdirectives (s : Reader) (h : s.outer = []) :
      s.lineDirectives <+: Line.deepDirectives (Line.nest [s.inner.draft.finish s.line]) := by
    rw [Reader.lineDirectives, h]
    exact Line.directives_initial_nest (s.inner.draft.finish s.line)
  have halike := hkeeps hstart (hsame.of_initial (hdirectives s houter) (hdirectives s' hlength))
  have hlines : Splice.Alike (s.inner.draft.finish s.line).sql (s.inner.draft.finish s.line).splices
      (s'.inner.draft.finish s'.line).sql (s'.inner.draft.finish s'.line).splices :=
    halike.inner.draft
  exact Template.alike_nest rfl rfl hlines resource

end SqlTemplate
