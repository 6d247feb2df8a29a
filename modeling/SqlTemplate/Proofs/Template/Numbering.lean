import SqlTemplate.Proofs.Line.Ranges
import SqlTemplate.Proofs.Source.Seams
import SqlTemplate.Proofs.Template.Transcript

/-!
# Line numbers

The reader counts line ends lexeme by lexeme. No line end runs from one lexeme into the next, so the
reader is always on the line of the source where the next lexeme begins (`Reader.Behind`), and every
line number in a template is the number of a line of its text: the lines of every list follow each
other from the line where the list starts to the one where it ends, every directive bears the line
where its comment begins, and what is spliced into a line stands where the line does
(`Template.numbered_of_parse`).
-/

namespace SqlTemplate

/-- The line of the source on which a text goes on behind `before`. -/
def lineBehind (before : Text) : Nat := 1 + lineEnds before

namespace Lexeme

/-- The text of the directive that a lexeme holds. -/
def directive? : Lexeme → Option Text
  | lineDirective body | blockDirective body _ => some (strip body)
  | _ => none

/-- The lines where the lists of lines start that are being read behind a lexeme on the given line,
the innermost one first, if `starts` are those in front of it. -/
def startsBehind (line : Nat) (starts : List Nat) : Lexeme → List Nat
  | opening => line :: starts
  | closing => starts.tail
  | _ => starts

/-- No line end runs from one of the lexemes into the next, or into the first one from the text
before them. -/
def SealedAll (before : Text) : List Lexeme → Prop
  | [] => True
  | l :: ls =>
      lineEnds (before ++ l.source) = lineEnds before + lineEnds l.source ∧
        SealedAll (before ++ l.source) ls

end Lexeme

/-- The lines where the lists of lines start that are being read behind lexemes, the innermost one
first: the lines of the parentheses that are still open. -/
def startsBehind (before : Text) (starts : List Nat) : List Lexeme → List Nat
  | [] => starts
  | l :: ls => startsBehind (before ++ l.source) (l.startsBehind (lineBehind before) starts) ls

/-- The texts of the directives in lexemes, each with the line where its comment begins. -/
def directiveComments (before : Text) : List Lexeme → List (Text × Option Nat)
  | [] => []
  | l :: ls =>
      (l.directive?.map fun source => (source, some (lineBehind before))).toList ++
        directiveComments (before ++ l.source) ls

mutual

/-- The directives of a line, of the lines in its spans and of the lines that belong to it, in the
order of their text. -/
def Line.inOrder : Line → List Directive
  | .mk _ _ _ splices block =>
      let below :=
        match block with
        | none => []
        | some children => Line.inOrderAll children
      Splice.inOrderAll splices ++ below

def Splice.inOrderAll : List Splice → List Directive
  | [] => []
  | .directive _ d :: splices => d :: Splice.inOrderAll splices
  | .group _ lines :: splices => Line.inOrderAll lines ++ Splice.inOrderAll splices

def Line.inOrderAll : List Line → List Directive
  | [] => []
  | l :: ls => Line.inOrder l ++ Line.inOrderAll ls

end

namespace Lexeme

theorem SealedAll.of_append {before : Text} {ls ms : List Lexeme}
    (h : SealedAll before (ls ++ ms)) : SealedAll before ls := by
  induction ls generalizing before with
  | nil => trivial
  | cons l ls ih => exact ⟨h.1, ih h.2⟩

/-- The lexemes of a text are sealed against each other. -/
theorem sealedAll_lexemes {before t : Text} (h : Sealed before t) :
    SealedAll before (lexemes t) := by
  fun_induction lexemes t generalizing before with
  | case1 => trivial
  | case2 c t ih =>
      have hfirst : Sealed before (first c t).1.source := by
        rw [← source_first c t] at h
        exact h.of_append_right
      exact ⟨lineEnds_append hfirst, ih ((sealed_first c t).append_right (source_ne_nil _))⟩

end Lexeme

namespace Line

theorem inOrder_eq (l : Line) :
    l.inOrder = Splice.inOrderAll l.splices ++ inOrderAll l.children := by
  cases l with
  | mk sql first last splices block => cases block <;> rfl

theorem inOrderAll_eq_flatMap (ls : List Line) : inOrderAll ls = ls.flatMap inOrder := by
  induction ls with
  | nil => rfl
  | cons l ls ih => rw [inOrderAll, ih, List.flatMap_cons]

/-- Nesting keeps the order of directives. -/
theorem inOrderAll_nest (lines : List Line) :
    inOrderAll (nest lines) = lines.flatMap fun l => Splice.inOrderAll l.splices := by
  have hg : ∀ l : Line, l.inOrder = Splice.inOrderAll l.splices ++ l.children.flatMap inOrder := by
    intro l
    rw [inOrder_eq, inOrderAll_eq_flatMap]
  rw [inOrderAll_eq_flatMap, flatMap_nest (fun l => Splice.inOrderAll l.splices) inOrder hg
    fun c l => by rw [splices_withChildren]]
  induction lines with
  | nil => rfl
  | cons l lines ih =>
      rw [List.filter_cons, List.flatMap_cons]
      cases hl : l.isBlank with
      | true =>
          rw [List.isEmpty_iff.1 (Bool.and_eq_true_iff.1 hl).2]
          exact ih
      | false =>
          rw [if_pos (by rfl), List.flatMap_cons, ih]

end Line

namespace Splice

theorem inOrderAll_append (splices others : List Splice) :
    inOrderAll (splices ++ others) = inOrderAll splices ++ inOrderAll others := by
  induction splices with
  | nil => rfl
  | cons s splices ih =>
      cases s with
      | directive offset d => exact congrArg (List.cons d) ih
      | group offset lines => rw [List.cons_append, inOrderAll, inOrderAll, ih, List.append_assoc]

theorem inOrderAll_map_shift (delta : Nat) (splices : List Splice) :
    inOrderAll (splices.map (shift delta)) = inOrderAll splices := by
  induction splices with
  | nil => rfl
  | cons s splices ih =>
      cases s with
      | directive offset d => exact congrArg (List.cons d) ih
      | group offset lines => rw [List.map_cons, shift, inOrderAll, inOrderAll, ih]

end Splice

namespace Span

/-- The directives in a span, in the order of their text. -/
def inOrder (s : Span) : List Directive :=
  s.finished.reverse.flatMap (fun l => Splice.inOrderAll l.splices) ++
    Splice.inOrderAll s.draft.splices

theorem flatMap_inOrder_lines (last : Nat) (s : Span) :
    ((s.lines last).flatMap fun l => Splice.inOrderAll l.splices) = s.inOrder := by
  rw [lines, List.reverse_cons, List.flatMap_append, inOrder]
  congr 1
  exact List.append_nil _

/-- The directives of an inner span come behind those that were read before it. -/
theorem inOrder_enclose (lines : List Line) (s : Span) :
    (s.enclose lines).inOrder =
      s.inOrder ++ lines.flatMap fun l => Splice.inOrderAll l.splices := by
  unfold enclose
  split
  · rename_i l
    simp only [inOrder, edit, Draft.splices_merge, Splice.inOrderAll_append,
      Splice.inOrderAll_map_shift, List.append_assoc, List.flatMap_singleton]
  · simp only [inOrder, edit, Draft.splices_addGroup, Splice.inOrderAll_append, List.append_assoc,
      Splice.inOrderAll, List.append_nil, Line.inOrderAll_nest]

theorem openedAt_enclose (lines : List Line) (s : Span) :
    (s.enclose lines).openedAt = s.openedAt := by
  unfold enclose
  split <;> rfl

/-- A span whose lines would follow each other from the line where it was opened, each ranged, if it
ended on `line`. -/
structure Ranged (line : Nat) (s : Span) : Prop where
  reach : Line.Reach s.openedAt s.draft.first s.finished.reverse
  finished : ∀ l ∈ s.finished, ∀ k ∈ l.deep, k.Ranged
  draft : s.draft.Ranged line

/-- Spans around each other, the innermost one first, each ranged up to where the one inside of it
was opened. -/
def RangedAll : Nat → List Span → Prop
  | _, [] => True
  | line, s :: ss => s.Ranged line ∧ RangedAll s.openedAt ss

variable {line : Nat} {s : Span}

theorem ranged_start (line : Nat) : (start line).Ranged line :=
  ⟨rfl, List.forall_mem_nil _, Draft.ranged_start line⟩

theorem Ranged.mono (h : s.Ranged line) {line' : Nat} (hline : line ≤ line') : s.Ranged line' :=
  ⟨h.reach, h.finished, h.draft.mono hline⟩

theorem RangedAll.mono {ss : List Span} (h : RangedAll line ss) {line' : Nat}
    (hline : line ≤ line') : RangedAll line' ss := by
  cases ss with
  | nil => trivial
  | cons s ss => exact ⟨h.1.mono hline, h.2⟩

/-- The lines of a ranged span follow each other from where it was opened to where it ends. -/
theorem Ranged.tile_lines (h : s.Ranged line) : Line.Tile s.openedAt line (s.lines line) := by
  rw [lines, List.reverse_cons]
  exact h.reach.tile_concat (l := s.draft.finish line) rfl

theorem Ranged.ranged_of_mem_lines (h : s.Ranged line) :
    ∀ l ∈ s.lines line, ∀ k ∈ l.deep, k.Ranged := by
  intro l hl
  rw [lines, List.mem_reverse] at hl
  rcases List.mem_cons.1 hl with rfl | hl
  · exact h.draft.finish
  · exact h.finished l hl

theorem Ranged.ordered_of_mem_finished (h : s.Ranged line) :
    ∀ l ∈ s.finished.reverse, l.first ≤ l.last := by
  intro l hl
  exact (h.finished l (List.mem_reverse.1 hl) l l.mem_deep_self).ordered

/-- The lines of a ranged span stand between where it was opened and where it ends. -/
theorem Ranged.bounds_of_mem_lines (h : s.Ranged line) :
    ∀ l ∈ s.lines line, s.openedAt ≤ l.first ∧ l.last ≤ line := by
  obtain ⟨hopened, hinside⟩ := h.reach.bounds h.ordered_of_mem_finished
  have hdraft := h.draft.ordered
  intro l hl
  rw [lines, List.mem_reverse] at hl
  rcases List.mem_cons.1 hl with rfl | hl
  · exact ⟨hopened, Nat.le_refl _⟩
  · obtain ⟨hge, hlt⟩ := hinside l (List.mem_reverse.2 hl)
    exact ⟨hge, by omega⟩

theorem Ranged.nextLine (h : s.Ranged line) : (s.nextLine line (line + 1)).Ranged (line + 1) := by
  refine ⟨?_, List.forall_mem_cons.2 ⟨h.draft.finish, h.finished⟩, Draft.ranged_start _⟩
  have hreach := h.reach.concat (l := s.draft.finish line) rfl
  rwa [← List.reverse_cons] at hreach

/-- A span takes the lines of the span inside of it. -/
theorem Ranged.enclose {inner : Span} (h : s.Ranged inner.openedAt) (hinner : inner.Ranged line) :
    (s.enclose (inner.lines line)).Ranged line := by
  obtain ⟨hopened, -⟩ := hinner.reach.bounds hinner.ordered_of_mem_finished
  have hline : inner.openedAt ≤ line := hopened.trans hinner.draft.ordered
  have hlines : ∀ l ∈ inner.lines line,
      (∀ k ∈ l.deep, k.Ranged) ∧ s.draft.first ≤ l.first ∧ l.last ≤ line := by
    intro l hl
    obtain ⟨hge, hle⟩ := hinner.bounds_of_mem_lines l hl
    exact ⟨hinner.ranged_of_mem_lines l hl, h.draft.ordered.trans hge, hle⟩
  unfold Span.enclose
  split
  · rename_i l hone
    obtain ⟨hdeep, hfirst, hlast⟩ := hlines l (by rw [hone]; exact List.mem_singleton_self l)
    exact ⟨h.reach, h.finished, (h.draft.mono hline).merge hdeep hfirst hlast⟩
  · exact ⟨h.reach, h.finished, (h.draft.mono hline).addGroup hlines⟩

end Span

/-- The text of a directive and the line that it bears. -/
def Directive.origin (d : Directive) : Text × Option Nat := (d.source, d.line)

namespace Reader

/-- The directives in all that has been read, in the order of their text. -/
def inOrder (r : Reader) : List Directive :=
  r.outer.reverse.flatMap Span.inOrder ++ r.inner.inOrder

variable {registry : Registry} {r next : Reader} {l : Lexeme}

/-- Parentheses open and close lists of lines. -/
theorem map_openedAt_readContent (hr : r.readContent registry l = .ok next) :
    (next.inner :: next.outer).map Span.openedAt =
      l.startsBehind r.line ((r.inner :: r.outer).map Span.openedAt) := by
  cases l with
  | closing =>
      obtain ⟨s, outer, houter, rfl⟩ := readContent_closing_eq_ok hr
      rw [houter, List.map_cons, Span.openedAt_enclose]
      rfl
  | lineDirective body =>
      obtain ⟨d, -, rfl⟩ := addDirective_eq_ok hr
      rfl
  | blockDirective body sample =>
      obtain ⟨d, -, rfl⟩ := addDirective_eq_ok hr
      rfl
  | strayClose => simp [readContent] at hr
  | openQuote q rest => simp [readContent] at hr
  | openComment rest => simp [readContent] at hr
  | openSample body rest => simp [readContent] at hr
  | _ =>
      obtain rfl := Except.ok.inj hr
      rfl

/-- A lexeme keeps the spans ranged up to the line where it ends. -/
theorem rangedAll_readContent (h : Span.RangedAll r.line (r.inner :: r.outer))
    (hr : r.readContent registry l = .ok next) :
    Span.RangedAll (r.line + lineEnds l.source) (next.inner :: next.outer) := by
  obtain ⟨hinner, houter⟩ := h
  have hdraft : ∀ {d : Draft}, d.first = r.inner.draft.first → d.Ranged r.line →
      Span.RangedAll (r.line + lineEnds l.source) ({ r.inner with draft := d } :: r.outer) := by
    intro d hfirst hd
    refine ⟨⟨?_, hinner.finished, hd.mono (Nat.le_add_right ..)⟩, houter⟩
    rw [hfirst]
    exact hinner.reach
  cases l with
  | plain c =>
      obtain rfl := Except.ok.inj hr
      exact hdraft rfl (hinner.draft.write _)
  | quoted q body =>
      obtain rfl := Except.ok.inj hr
      exact hdraft rfl (hinner.draft.write _)
  | hint body =>
      obtain rfl := Except.ok.inj hr
      exact hdraft rfl (hinner.draft.write _)
  | remark body =>
      obtain rfl := Except.ok.inj hr
      exact hdraft rfl hinner.draft
  | comment body =>
      obtain rfl := Except.ok.inj hr
      exact hdraft rfl hinner.draft
  | lineEnd e =>
      obtain rfl := Except.ok.inj hr
      have hone : lineEnds (Lexeme.lineEnd e).source = 1 := by cases e <;> rfl
      rw [hone]
      exact ⟨hinner.nextLine, houter⟩
  | opening =>
      obtain rfl := Except.ok.inj hr
      exact ⟨(Span.ranged_start r.line).mono (Nat.le_add_right ..), hinner, houter⟩
  | closing =>
      obtain ⟨s, outer, hspans, rfl⟩ := readContent_closing_eq_ok hr
      rw [hspans] at houter
      refine ⟨(houter.1.enclose hinner).mono (Nat.le_add_right ..), ?_⟩
      rw [Span.openedAt_enclose]
      exact houter.2
  | lineDirective body =>
      obtain ⟨d, hd, rfl⟩ := addDirective_eq_ok hr
      have hgains := Draft.gains_addLine hd
      exact hdraft hgains.first (hinner.draft.gains hgains)
  | blockDirective body sample =>
      obtain ⟨d, hd, rfl⟩ := addDirective_eq_ok hr
      have hgains := Draft.gains_addBlock hd
      exact hdraft hgains.first (hinner.draft.gains hgains)
  | strayClose => simp [readContent] at hr
  | openQuote q rest => simp [readContent] at hr
  | openComment rest => simp [readContent] at hr
  | openSample body rest => simp [readContent] at hr

/-- A directive that is added to the draft comes behind all others. -/
theorem map_origin_addDirective {source : Text} {add : Draft → Except Problem Draft}
    (h : ∀ d, add r.inner.draft = .ok d → r.inner.draft.Gains r.line source d)
    (hr : r.addDirective source add = .ok next) :
    next.inOrder.map Directive.origin =
      r.inOrder.map Directive.origin ++ [(source, some r.line)] := by
  obtain ⟨d, hd, rfl⟩ := addDirective_eq_ok hr
  obtain ⟨offset, x, hsplices, hsource, hline⟩ := (h d hd).splices
  have hx : x.origin = (source, some r.line) := by rw [Directive.origin, hsource, hline]
  simp only [inOrder, Span.inOrder, hsplices, Splice.inOrderAll_append, Splice.inOrderAll,
    List.map_append, List.map_cons, List.map_nil, hx, List.append_assoc]

/-- A directive bears the line that the reader is on when it reads its comment. -/
theorem map_origin_readContent (hr : r.readContent registry l = .ok next) :
    next.inOrder.map Directive.origin = r.inOrder.map Directive.origin ++
      (l.directive?.map fun source => (source, some r.line)).toList := by
  cases l with
  | lineEnd e =>
      obtain rfl := Except.ok.inj hr
      have hlines : (r.inner.nextLine r.line (r.line + 1)).inOrder = r.inner.inOrder := by
        refine Eq.trans ?_ (Span.flatMap_inOrder_lines r.line r.inner)
        exact List.append_nil _
      simp only [inOrder, hlines]
      exact (List.append_nil _).symm
  | opening =>
      obtain rfl := Except.ok.inj hr
      have hopened : (Span.start r.line).inOrder = [] := rfl
      simp only [inOrder, hopened, List.reverse_cons, List.flatMap_append, List.flatMap_singleton,
        List.append_nil]
      exact (List.append_nil _).symm
  | closing =>
      obtain ⟨s, outer, houter, rfl⟩ := readContent_closing_eq_ok hr
      simp only [inOrder, houter, Span.inOrder_enclose, Span.flatMap_inOrder_lines,
        List.reverse_cons, List.flatMap_append, List.flatMap_singleton, List.append_assoc]
      exact (List.append_nil _).symm
  | lineDirective body => exact map_origin_addDirective (fun _ hd => Draft.gains_addLine hd) hr
  | blockDirective body sample =>
      exact map_origin_addDirective (fun _ hd => Draft.gains_addBlock hd) hr
  | strayClose => simp [readContent] at hr
  | openQuote q rest => simp [readContent] at hr
  | openComment rest => simp [readContent] at hr
  | openSample body rest => simp [readContent] at hr
  | _ =>
      obtain rfl := Except.ok.inj hr
      exact (List.append_nil _).symm

/-- A reader that has read the text `before`: it is on the line of the source behind it, the lists
that it is reading start on the lines `starts`, their lines follow each other, and the directives
that it has read are those of `comments`. -/
structure Behind (before : Text) (starts : List Nat) (comments : List (Text × Option Nat))
    (r : Reader) : Prop where
  line : r.line = lineBehind before
  starts : (r.inner :: r.outer).map Span.openedAt = starts
  ranged : Span.RangedAll r.line (r.inner :: r.outer)
  comments : r.inOrder.map Directive.origin = comments

theorem exists_readAll_of_append {ls ms : List Lexeme}
    (hr : r.readAll registry (ls ++ ms) = .ok next) :
    ∃ mid, r.readAll registry ls = .ok mid ∧ mid.readAll registry ms = .ok next := by
  rw [readAll_append] at hr
  cases hmid : r.readAll registry ls with
  | ok mid =>
      rw [hmid] at hr
      exact ⟨mid, rfl, hr⟩
  | error m =>
      rw [hmid] at hr
      exact absurd hr (by simp [bind, Except.bind])

theorem behind_start : Reader.start.Behind [] [1] [] :=
  ⟨rfl, rfl, ⟨Span.ranged_start 1, trivial⟩, rfl⟩

/-- A reader stays behind what it has read. -/
theorem Behind.readAll {before : Text} {starts : List Nat} {comments : List (Text × Option Nat)}
    {ls : List Lexeme} (h : r.Behind before starts comments) (hsealed : Lexeme.SealedAll before ls)
    (hr : r.readAll registry ls = .ok next) :
    next.Behind (before ++ ls.flatMap Lexeme.source) (SqlTemplate.startsBehind before starts ls)
      (comments ++ directiveComments before ls) := by
  induction ls generalizing r before starts comments with
  | nil =>
      obtain rfl := Except.ok.inj hr
      rw [List.flatMap_nil, List.append_nil, directiveComments, List.append_nil]
      exact h
  | cons l ls ih =>
      obtain ⟨hline, hrest⟩ := hsealed
      obtain ⟨content, hcontent, hread⟩ := readAll_cons_eq_ok hr
      have hstep : Behind (before ++ l.source) (l.startsBehind (lineBehind before) starts)
          (comments ++ (l.directive?.map fun source => (source, some (lineBehind before))).toList)
          { content with line := r.line + lineEnds l.source } := by
        constructor
        · rw [lineBehind, hline, ← Nat.add_assoc, ← lineBehind, ← h.line]
        · rw [← h.line, ← h.starts, ← map_openedAt_readContent hcontent]
        · have hranged := rangedAll_readContent h.ranged hcontent
          exact hranged
        · rw [← h.line, ← h.comments, ← map_origin_readContent hcontent]
          rfl
      have hnext := ih hstep hrest hread
      rw [List.append_assoc, List.append_assoc] at hnext
      exact hnext

end Reader

/-- The line numbers in a template are those of its text. Every list of lines, which is finished
where a parenthesis or the text ends, begins on the line of its own parenthesis, or on the first
line of the text, and ends there, without a gap in between; the directives bear the lines where
their comments begin; and what is spliced into a line, or stands in the lines that are, stands on
the lines of the source that the line stands on. -/
theorem Template.numbered_of_parse {registry : Registry} {resource : Option Text} {text : Text}
    {t : Template} (h : parse registry resource text = .ok t) :
    (∀ front behind, lexemes text = front ++ behind →
      (∀ l ∈ behind.head?, l = .closing) →
      ∃ r start, Reader.start.readAll registry front = .ok r ∧
        (startsBehind [] [1] front).head? = some start ∧
        Line.Tile start (lineBehind (front.flatMap Lexeme.source)) (r.inner.lines r.line) ∧
        ∀ l ∈ Line.deepAll (r.inner.lines r.line), l.Ranged) ∧
      (Line.inOrderAll t.lines).map Directive.origin = directiveComments [] (lexemes text) ∧
      ∀ l ∈ t.deepLines, l.Ranged := by
  obtain ⟨r, hr, houter, hlines⟩ := exists_reader_of_parse h
  have hsealed : Lexeme.SealedAll [] (lexemes text) :=
    Lexeme.sealedAll_lexemes fun hlast => absurd hlast (by simp)
  have hbehind := Reader.behind_start.readAll hsealed hr
  refine ⟨?_, ?_, ?_⟩
  · intro front behind hfront _
    rw [hfront] at hr hsealed
    obtain ⟨mid, hmid, -⟩ := Reader.exists_readAll_of_append hr
    have hstop := Reader.behind_start.readAll hsealed.of_append hmid
    have hinner := hstop.ranged.1
    refine ⟨mid, mid.inner.openedAt, hmid, ?_, ?_, ?_⟩
    · rw [← hstop.starts]
      rfl
    · have htile := hinner.tile_lines
      rw [hstop.line] at htile ⊢
      exact htile
    · intro l hl
      rw [Line.deepAll_eq_flatMap] at hl
      obtain ⟨k, hk, hl⟩ := List.mem_flatMap.1 hl
      exact hinner.ranged_of_mem_lines k hk l hl
  · rw [hlines, Line.inOrderAll_nest, Span.flatMap_inOrder_lines]
    have hcomments := hbehind.comments
    rw [Reader.inOrder, houter] at hcomments
    exact hcomments
  · intro l hl
    rw [Template.deepLines, hlines] at hl
    have hinner := hbehind.ranged.1
    exact (Line.ranged_of_mem_nest (fun k hk => ⟨hinner.ranged_of_mem_lines k hk,
      hinner.bounds_of_mem_lines k hk⟩) hl).1

/-- A line with a span of three lines, the first and the last one blank, and a directive behind it. -/
def Template.spanOfLines : Template where
  lines := [.mk "a()".toList 1 3
    [.group 2 [.mk "b ".toList 2 2
        [.directive 2
          { source := "$x".toList, expression := [.reference .param "x".toList false]
            sample := none, comparison := none, line := some 2 }] none],
      .directive 3
        { source := "$y".toList, expression := [.reference .param "y".toList false]
          sample := some ['1'], comparison := none, line := some 3 }] none]
  resource := none

theorem Template.numbered_of_parse_spanOfLines :
    parse .standard none "a(\nb -- $x\r\n)/* $y */1".toList = .ok spanOfLines ∧
      (∃ r, Reader.start.readAll .standard [.plain 'a', .opening, .lineEnd .lf, .plain 'b',
          .plain ' ', .lineDirective " $x".toList, .lineEnd .crlf] = .ok r ∧
        Line.Tile 1 3 (r.inner.lines r.line)) ∧
      (Line.inOrderAll spanOfLines.lines).map Directive.origin =
        [("$x".toList, some 2), ("$y".toList, some 3)] ∧
      ∀ l ∈ spanOfLines.deepLines, l.Ranged := by
  have hparse : parse .standard none "a(\nb -- $x\r\n)/* $y */1".toList = .ok spanOfLines := by
    with_unfolding_all rfl
  have hlexemes : lexemes "a(\nb -- $x\r\n)/* $y */1".toList =
      [.plain 'a', .opening, .lineEnd .lf, .plain 'b', .plain ' ', .lineDirective " $x".toList,
        .lineEnd .crlf] ++ [.closing, .blockDirective " $y ".toList (some ['1'])] := by
    with_unfolding_all decide
  obtain ⟨hlists, hcomments, hranged⟩ := numbered_of_parse hparse
  obtain ⟨r, start, hread, hstart, htile, -⟩ := hlists _ _ hlexemes (by decide)
  obtain rfl : start = 1 := (Option.some.inj hstart).symm
  rw [hlexemes] at hcomments
  exact ⟨hparse, ⟨r, hread, htile⟩, hcomments, hranged⟩

end SqlTemplate
