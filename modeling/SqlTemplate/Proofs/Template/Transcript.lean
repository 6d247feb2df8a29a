import SqlTemplate.Proofs.Line.Drafting
import SqlTemplate.Proofs.Source.Uncommented

/-!
# Reading loses nothing

`Reader.woven` is all that has been read so far with everything put back, the parentheses of the
open spans included. Every lexeme adds what it keeps of the text, blanks aside, so the lines of a
template are the text without its comments (`unspaced_written_of_parse`). In the same way no
directive gets lost (`exists_directive_of_parse`).
-/

namespace SqlTemplate

theorem unspaced_lineEnd (e : LineEnd) : unspaced e.chars = [] := by
  cases e <;> decide

theorem unspaced_parenthesised (t : Text) :
    unspaced ('(' :: (t ++ [')'])) = unspaced ['('] ++ (unspaced t ++ unspaced [')']) := by
  rw [← List.singleton_append, unspaced_append, unspaced_append]

namespace Span

/-- The finished lines and the draft of a span with everything put back. -/
def woven (s : Span) : Text := s.finished.reverse.flatMap Line.woven ++ s.draft.woven

theorem flatMap_woven_lines (last : Nat) (s : Span) :
    (s.lines last).flatMap Line.woven = s.woven := by
  rw [lines, List.reverse_cons, List.flatMap_append, woven]
  congr 1
  exact List.append_nil _

theorem flat_of_mem_lines {s : Span} (h : s.Holds Draft.Fit Line.Flat) (last : Nat) :
    ∀ l ∈ s.lines last, l.Flat :=
  (Reader.keeps_fit .empty).of_lines h last

/-- An inner span stands between parentheses, blanks aside. -/
theorem unspaced_woven_enclose {s : Span} (h : s.Holds Draft.Fit Line.Flat) {lines : List Line}
    (hlines : ∀ l ∈ lines, l.Flat) :
    unspaced (s.enclose lines).woven =
      unspaced s.woven ++ unspaced ('(' :: (lines.flatMap Line.woven ++ [')'])) := by
  have hdraft : unspaced (s.enclose lines).draft.woven =
      unspaced s.draft.woven ++ unspaced ('(' :: (lines.flatMap Line.woven ++ [')'])) := by
    unfold enclose
    split
    · rename_i l
      obtain ⟨-, hwoven⟩ := h.1.merge (hlines l (List.mem_singleton_self l)).fit
      refine (congrArg unspaced hwoven).trans ?_
      rw [unspaced_append, List.flatMap_singleton]
    · obtain ⟨-, hwoven⟩ := h.1.addGroup (Line.nest lines)
      refine (congrArg unspaced hwoven).trans ?_
      rw [unspaced_append, unspaced_parenthesised, unspaced_parenthesised,
        Line.unspaced_writtenAll_nest]
  have hfinished : (s.enclose lines).finished = s.finished := by
    unfold enclose
    split <;> rfl
  rw [woven, unspaced_append, hdraft, hfinished, woven, unspaced_append, List.append_assoc]

end Span

namespace Reader

/-- All that has been read with everything put back. -/
def woven (r : Reader) : Text := r.outer.reverse.flatMap (fun s => s.woven ++ ['(']) ++ r.inner.woven

variable {registry : Registry} {r next : Reader}

/-- What happens to the draft happens to the whole. -/
theorem unspaced_woven_edit {d : Draft} {t : Text}
    (h : unspaced d.woven = unspaced r.inner.draft.woven ++ unspaced t) :
    unspaced (woven { r with inner := { r.inner with draft := d } }) =
      unspaced r.woven ++ unspaced t := by
  simp only [woven, Span.woven, unspaced_append, h, List.append_assoc]

theorem unspaced_woven_addDirective {source t : Text} {add : Draft → Except Problem Draft}
    (h : ∀ d, add r.inner.draft = .ok d →
      unspaced d.woven = unspaced r.inner.draft.woven ++ unspaced t)
    (hr : r.addDirective source add = .ok next) :
    unspaced next.woven = unspaced r.woven ++ unspaced t := by
  obtain ⟨d, hd, rfl⟩ := addDirective_eq_ok hr
  exact unspaced_woven_edit (h d hd)

/-- A lexeme adds what it keeps of the text, blanks aside. -/
theorem unspaced_woven_readContent (h : r.Holds Draft.Fit Line.Flat) {l : Lexeme}
    (hr : r.readContent registry l = .ok next) :
    unspaced next.woven = unspaced r.woven ++ unspaced l.kept := by
  have hdraft : r.inner.draft.Fit := h.1.1
  have hwrite : ∀ t, unspaced (r.write t).woven = unspaced r.woven ++ unspaced t := by
    intro t
    refine unspaced_woven_edit ?_
    rw [(hdraft.write t).2, unspaced_append]
  cases l with
  | plain c =>
      obtain rfl := Except.ok.inj hr
      exact hwrite _
  | quoted q body =>
      obtain rfl := Except.ok.inj hr
      exact hwrite _
  | hint body =>
      obtain rfl := Except.ok.inj hr
      exact hwrite _
  | remark body =>
      obtain rfl := Except.ok.inj hr
      exact (List.append_nil _).symm
  | comment body =>
      obtain rfl := Except.ok.inj hr
      exact (List.append_nil _).symm
  | lineEnd e =>
      obtain rfl := Except.ok.inj hr
      have hline : (r.inner.nextLine r.line (r.line + 1)).woven = r.inner.woven := by
        refine Eq.trans ?_ (Span.flatMap_woven_lines r.line r.inner)
        exact List.append_nil _
      have hkept : unspaced (Lexeme.lineEnd e).kept = [] := unspaced_lineEnd e
      rw [hkept, List.append_nil]
      simp only [woven, hline]
  | opening =>
      obtain rfl := Except.ok.inj hr
      have hopened : (Span.start r.line).woven = [] := rfl
      simp only [woven, hopened, List.reverse_cons, List.flatMap_append, List.flatMap_singleton,
        List.append_nil, unspaced_append, List.append_assoc]
      rfl
  | closing =>
      obtain ⟨s, outer, ho, rfl⟩ := readContent_closing_eq_ok hr
      have hs : s.Holds Draft.Fit Line.Flat := h.2 s (by rw [ho]; exact List.mem_cons_self ..)
      have henclosed := Span.unspaced_woven_enclose hs (Span.flat_of_mem_lines h.1 r.line)
      rw [Span.flatMap_woven_lines, unspaced_parenthesised] at henclosed
      simp only [woven, ho, unspaced_append, henclosed, List.reverse_cons, List.flatMap_append,
        List.flatMap_singleton, List.append_assoc]
      rfl
  | lineDirective body =>
      refine unspaced_woven_addDirective (t := []) ?_ hr
      intro d hd
      rw [(hdraft.addLine hd).2]
      exact (List.append_nil _).symm
  | blockDirective body sample =>
      refine unspaced_woven_addDirective ?_ hr
      intro d hd
      exact (hdraft.addBlock hd).2
  | strayClose => simp [readContent] at hr
  | openQuote q rest => simp [readContent] at hr
  | openComment rest => simp [readContent] at hr
  | openSample body rest => simp [readContent] at hr

theorem unspaced_woven_readAll (h : r.Holds Draft.Fit Line.Flat) {ls : List Lexeme}
    (hl : ∀ l ∈ ls, l.HasSample) (hr : r.readAll registry ls = .ok next) :
    unspaced next.woven = unspaced r.woven ++ unspaced (ls.flatMap Lexeme.kept) := by
  induction ls generalizing r with
  | nil =>
      obtain rfl := Except.ok.inj hr
      exact (List.append_nil _).symm
  | cons l ls ih =>
      obtain ⟨hhead, htail⟩ := List.forall_mem_cons.1 hl
      obtain ⟨content, hc, hrest⟩ := readAll_cons_eq_ok hr
      have hcontent := (keeps_fit registry).readContent h hhead hc
      have hmoved : Reader.Holds Draft.Fit Line.Flat
          { content with line := r.line + lineEnds l.source } := hcontent
      have hsame : woven { content with line := r.line + lineEnds l.source } = content.woven := rfl
      rw [ih hmoved htail hrest, hsame, unspaced_woven_readContent h hc, List.flatMap_cons,
        unspaced_append, List.append_assoc]

theorem isFlawless_of_readContent {l : Lexeme} (hr : r.readContent registry l = .ok next) :
    l.IsFlawless := by
  cases l with
  | strayClose => simp [readContent] at hr
  | openQuote q rest => simp [readContent] at hr
  | openComment rest => simp [readContent] at hr
  | openSample body rest => simp [readContent] at hr
  | _ => trivial

theorem isFlawless_of_readAll {ls : List Lexeme} (hr : r.readAll registry ls = .ok next) :
    ∀ l ∈ ls, l.IsFlawless := by
  induction ls generalizing r with
  | nil => simp
  | cons l ls ih =>
      obtain ⟨content, hc, hrest⟩ := readAll_cons_eq_ok hr
      rw [List.forall_mem_cons]
      exact ⟨isFlawless_of_readContent hc, ih hrest⟩

end Reader

def Span.directives (s : Span) : List Directive :=
  Splice.deepDirectives s.draft.splices ++
    s.finished.flatMap fun l => Splice.deepDirectives l.splices

/-- The directives in all that has been read. -/
def Reader.directives (r : Reader) : List Directive := (r.inner :: r.outer).flatMap Span.directives

namespace Span

theorem mem_directives_iff {s : Span} (last : Nat) {x : Directive} :
    x ∈ s.directives ↔ ∃ l ∈ s.lines last, x ∈ Splice.deepDirectives l.splices := by
  simp only [directives, lines, List.mem_append, List.mem_flatMap, List.mem_reverse,
    List.mem_cons]
  constructor
  · rintro (hx | ⟨l, hl, hx⟩)
    · exact ⟨s.draft.finish last, .inl rfl, hx⟩
    · exact ⟨l, .inr hl, hx⟩
  · rintro ⟨l, rfl | hl, hx⟩
    · exact .inl hx
    · exact .inr ⟨l, hl, hx⟩

theorem mem_directives_of_draft {s : Span} {d : Draft} {more : List Splice}
    (hd : d.splices = s.draft.splices ++ more) {x : Directive}
    (hx : x ∈ s.directives ∨ x ∈ Splice.deepDirectives more) :
    x ∈ directives { s with draft := d } := by
  rw [directives, List.mem_append, hd, Splice.mem_deepDirectives_append]
  rcases hx with hx | hx
  · rcases List.mem_append.1 hx with hx | hx
    · exact .inl (.inl hx)
    · exact .inr hx
  · exact .inl (.inr hx)

theorem mem_directives_enclose {s : Span} {lines : List Line} {x : Directive}
    (hx : x ∈ s.directives ∨ ∃ l ∈ lines, x ∈ Splice.deepDirectives l.splices) :
    x ∈ (s.enclose lines).directives := by
  unfold enclose
  split
  · rename_i l
    refine mem_directives_of_draft rfl (hx.imp_right ?_)
    rintro ⟨k, hk, hkx⟩
    rw [List.mem_singleton.1 hk] at hkx
    rw [Splice.deepDirectives_map_shift]
    exact hkx
  · refine mem_directives_of_draft rfl (hx.imp_right ?_)
    intro hlines
    have hnested := Line.mem_deepDirectives_nest_iff.2 hlines
    simp only [Splice.deepDirectives, Splice.deepAll, List.append_nil]
    exact hnested

end Span

namespace Reader

variable {registry : Registry} {r next : Reader}

theorem mem_directives_addDirective {source : Text} {add : Draft → Except Problem Draft}
    {P : Directive → Prop}
    (h : ∀ d, add r.inner.draft = .ok d →
      ∃ offset y, d.splices = r.inner.draft.splices ++ [.directive offset y] ∧ P y)
    (hr : r.addDirective source add = .ok next) :
    (∀ x ∈ r.directives, x ∈ next.directives) ∧ ∃ y ∈ next.directives, P y := by
  obtain ⟨d, hd, rfl⟩ := addDirective_eq_ok hr
  obtain ⟨offset, y, hsplices, hy⟩ := h d hd
  constructor
  · intro x hx
    rw [directives, List.flatMap_cons, List.mem_append] at hx ⊢
    exact hx.imp_left fun hx => Span.mem_directives_of_draft hsplices (.inl hx)
  · refine ⟨y, ?_, hy⟩
    rw [directives, List.flatMap_cons, List.mem_append]
    exact .inl (Span.mem_directives_of_draft hsplices (.inr (List.mem_singleton_self y)))

/-- No lexeme makes a directive disappear, and a block directive adds one with its sample. -/
theorem directives_readContent {l : Lexeme} (hr : r.readContent registry l = .ok next) :
    (∀ x ∈ r.directives, x ∈ next.directives) ∧
      ∀ body sample, l = .blockDirective body sample → ∃ y ∈ next.directives, y.sample = sample := by
  cases l with
  | lineEnd e =>
      obtain rfl := Except.ok.inj hr
      exact ⟨fun _ hx => hx, by simp⟩
  | opening =>
      obtain rfl := Except.ok.inj hr
      exact ⟨fun _ hx => hx, by simp⟩
  | closing =>
      refine ⟨?_, by simp⟩
      obtain ⟨s, outer, ho, rfl⟩ := readContent_closing_eq_ok hr
      intro x hx
      rw [directives, ho, List.flatMap_cons, List.flatMap_cons, List.mem_append,
        List.mem_append] at hx
      rw [directives, List.flatMap_cons, List.mem_append]
      rcases hx with hx | hx | hx
      · exact .inl (Span.mem_directives_enclose
          (.inr ((Span.mem_directives_iff r.line).1 hx)))
      · exact .inl (Span.mem_directives_enclose (.inl hx))
      · exact .inr hx
  | lineDirective body =>
      refine ⟨(mem_directives_addDirective (P := fun _ => True) ?_ hr).1, by simp⟩
      intro d hd
      obtain ⟨e, -, rfl⟩ := Draft.addLine_eq_ok hd
      have hsplices := Draft.splices_addCompiled r.line (strip body) e
        r.inner.draft.takeMark.1 r.inner.draft.takeMark.2
      rw [(Draft.splices_takeMark r.inner.draft).1] at hsplices
      exact ⟨_, _, hsplices, trivial⟩
  | blockDirective body sample =>
      have hadded := mem_directives_addDirective (P := fun y => y.sample = sample) (by
        intro d hd
        obtain ⟨e, -, rfl⟩ := Draft.addBlock_eq_ok hd
        exact ⟨_, _, Draft.splices_addCompiled r.line (strip body) e sample r.inner.draft, rfl⟩) hr
      refine ⟨hadded.1, ?_⟩
      intro body' sample' h
      obtain ⟨-, rfl⟩ := Lexeme.blockDirective.inj h
      exact hadded.2
  | strayClose => simp [readContent] at hr
  | openQuote q rest => simp [readContent] at hr
  | openComment rest => simp [readContent] at hr
  | openSample body rest => simp [readContent] at hr
  | _ =>
      obtain rfl := Except.ok.inj hr
      exact ⟨fun _ hx => hx, by simp⟩

theorem directives_readAll {ls : List Lexeme} (hr : r.readAll registry ls = .ok next) :
    (∀ x ∈ r.directives, x ∈ next.directives) ∧
      ∀ body sample, .blockDirective body sample ∈ ls →
        ∃ y ∈ next.directives, y.sample = sample := by
  induction ls generalizing r with
  | nil =>
      obtain rfl := Except.ok.inj hr
      exact ⟨fun _ hx => hx, by simp⟩
  | cons l ls ih =>
      obtain ⟨content, hc, hrest⟩ := readAll_cons_eq_ok hr
      obtain ⟨hkeep, hadd⟩ := directives_readContent hc
      obtain ⟨hkeeps, hadds⟩ := ih hrest
      refine ⟨fun x hx => hkeeps x (hkeep x hx), ?_⟩
      intro body sample hmem
      rcases List.mem_cons.1 hmem with h | hmem
      · obtain ⟨y, hy, hsample⟩ := hadd body sample h.symm
        exact ⟨y, hkeeps y hy, hsample⟩
      · exact hadds body sample hmem

end Reader

section Parsing

variable {registry : Registry} {resource : Option Text} {text : Text} {t : Template}

theorem exists_reader_of_parse (h : Template.parse registry resource text = .ok t) :
    ∃ r, Reader.start.readAll registry (lexemes text) = .ok r ∧ r.outer = [] ∧
      t.lines = Line.nest (r.inner.lines r.line) := by
  obtain ⟨lines, hlines, rfl⟩ := Template.exists_flatLines_of_parse h
  unfold flatLines at hlines
  split at hlines
  · rename_i r hr
    unfold Reader.finish at hlines
    split at hlines
    · rename_i houter
      obtain rfl := Except.ok.inj hlines
      exact ⟨r, hr, houter, rfl⟩
    · simp at hlines
  · simp at hlines

theorem isFlawless_of_parse (h : Template.parse registry resource text = .ok t) :
    ∀ l ∈ lexemes text, l.IsFlawless := by
  obtain ⟨r, hr, -⟩ := exists_reader_of_parse h
  exact Reader.isFlawless_of_readAll hr

/-- The lines of a template are what its lexemes keep of the text, blanks aside. -/
theorem unspaced_written_of_parse (h : Template.parse registry resource text = .ok t) :
    unspaced (Line.writtenAll t.lines) = unspaced ((lexemes text).flatMap Lexeme.kept) := by
  obtain ⟨r, hr, houter, hlines⟩ := exists_reader_of_parse h
  have hstart : Reader.start.Holds Draft.Fit Line.Flat :=
    ⟨⟨Draft.fit_start 1, fun _ hl => absurd hl List.not_mem_nil⟩,
      fun _ hs => absurd hs List.not_mem_nil⟩
  have hread := Reader.unspaced_woven_readAll hstart (fun _ hl => hasSample_of_mem_lexemes hl) hr
  have hnothing : Reader.start.woven = [] := rfl
  have hwoven : r.woven = r.inner.woven := by
    rw [Reader.woven, houter]
    rfl
  rw [hwoven, hnothing, unspaced_nil, List.nil_append] at hread
  rw [hlines, Line.unspaced_writtenAll_nest, Span.flatMap_woven_lines, hread]

/-- The sample of a block directive is the sample of a directive of the template. -/
theorem exists_directive_of_parse (h : Template.parse registry resource text = .ok t)
    {body : Text} {sample : Option Text} (hl : .blockDirective body sample ∈ lexemes text) :
    ∃ d ∈ t.deepDirectives, d.sample = sample := by
  obtain ⟨r, hr, houter, hlines⟩ := exists_reader_of_parse h
  obtain ⟨d, hd, hsample⟩ := (Reader.directives_readAll hr).2 body sample hl
  refine ⟨d, ?_, hsample⟩
  rw [Reader.directives, houter, List.flatMap_singleton] at hd
  obtain ⟨l, hl, hd⟩ := (Span.mem_directives_iff r.line).1 hd
  rw [Template.deepDirectives, hlines]
  exact Line.mem_deepDirectives_nest_iff.2 ⟨l, hl, hd⟩

end Parsing

end SqlTemplate
