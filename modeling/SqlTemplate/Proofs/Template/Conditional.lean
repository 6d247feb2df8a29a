import SqlTemplate.Proofs.Directive.Printing
import SqlTemplate.Proofs.Line.Depths
import SqlTemplate.Proofs.Source.Plain
import SqlTemplate.Proofs.Source.Seams
import SqlTemplate.Proofs.Text.Parted

/-!
# Lists of conditional lines

A common template is a line followed by conditions, each on a line of its own with a directive
behind it that asks for the presence or the absence of a parameter. `Conditional.row` writes such a
line. A template of this form is read as its first line with the conditions below it
(`parse_conditions`), and `Conditional.RowLine` says what is known of the line of a condition: its
text is what was written, except that a question mark right in front of the directive is its sample.
-/

namespace SqlTemplate

/-- A condition on a line of its own: the line end in front of it, its text, and the parameter that
it asks for. -/
structure Conditional where
  lineEnd : LineEnd
  text : Text
  negated : Bool
  key : Text

namespace Conditional

/-- The directive behind a condition. -/
def reference (c : Conditional) : Text := '&' :: (Token.negation c.negated ++ c.key)

def expression (c : Conditional) : Expression := [.reference .presence c.key c.negated]

/-- The line of a condition, with `lead` in front of its text. -/
def row (indent : Nat) (lead : Text) (c : Conditional) : Text :=
  c.lineEnd.chars ++ (List.replicate indent ' ' ++
    (lead ++ (c.text ++ (' ' :: '-' :: '-' :: ' ' :: c.reference))))

/-- A condition whose text is apart from what surrounds it, and joined to nothing itself. -/
structure Proper (c : Conditional) : Prop where
  plain : IsPlain c.text
  nonempty : c.text ≠ []
  stripped : strip c.text = c.text
  starts : Connective.startsWith c.text = false
  ends : Connective.endsWith c.text = false
  key : Token.IsKey c.key

instance (c : Conditional) : Decidable c.Proper :=
  decidable_of_iff (IsPlain c.text ∧ c.text ≠ [] ∧ strip c.text = c.text ∧
      Connective.startsWith c.text = false ∧ Connective.endsWith c.text = false ∧
      Token.IsKey c.key)
    ⟨fun ⟨h₁, h₂, h₃, h₄, h₅, h₆⟩ => ⟨h₁, h₂, h₃, h₄, h₅, h₆⟩,
      fun ⟨h₁, h₂, h₃, h₄, h₅, h₆⟩ => ⟨h₁, h₂, h₃, h₄, h₅, h₆⟩⟩

theorem Proper.compile_reference {c : Conditional} (h : c.Proper) (registry : Registry) :
    Expression.compile registry c.reference = .ok c.expression := by
  have hprint : c.expression.print = c.reference := List.append_nil _
  rw [← hprint]
  refine (Expression.compile_print registry).1 c.expression (List.cons_ne_nil _ _) ?_
  exact List.forall_mem_singleton.2 (Term.writable_reference_iff.2 h.key)

theorem isBlank_of_isKeyChar {x : Char} (h : Token.isKeyChar x = true) : isBlank x = false := by
  cases hblank : isBlank x with
  | false => rfl
  | true =>
      rw [Token.isKeyChar, isWord_eq_false_of_isBlank hblank, Bool.false_or,
        List.contains_iff_mem] at h
      have hall : (".-[]".toList.any isBlank) = false := by decide
      rw [List.any_eq_false] at hall
      exact absurd hblank (hall x h)

namespace Proper

variable {c : Conditional} (h : c.Proper)

include h

/-- No blank stands in the directive of a condition. -/
theorem isBlank_of_mem_reference : ∀ x ∈ c.reference, isBlank x = false := by
  intro x hx
  rw [reference, List.mem_cons, List.mem_append] at hx
  rcases hx with rfl | hx | hx
  · decide
  · cases hnegated : c.negated with
    | true =>
        rw [hnegated] at hx
        rw [List.mem_singleton.1 hx]
        decide
    | false =>
        rw [hnegated] at hx
        exact absurd hx List.not_mem_nil
  · exact isBlank_of_isKeyChar (h.key.2 x hx)

theorem isLineBreak_of_mem_comment : ∀ x ∈ ' ' :: c.reference, isLineBreak x = false := by
  rw [List.forall_mem_cons]
  exact ⟨by decide, fun x hx => isLineBreak_eq_false_of_isBlank (h.isBlank_of_mem_reference x hx)⟩

theorem strip_reference : strip (' ' :: c.reference) = c.reference := by
  have hself : strip c.reference = c.reference :=
    strip_eq_self_iff.2 ⟨fun x hx => h.isBlank_of_mem_reference x (List.mem_of_head? hx),
      fun x hx => h.isBlank_of_mem_reference x (List.mem_of_getLast? hx)⟩
  have hstrip := strip_append_append (u := [' ']) (v := []) (by decide) (by decide) hself
  rwa [List.append_nil] at hstrip

end Proper

/-- What may stand in front of the text of a condition. -/
structure IsLead (lead : Text) : Prop where
  plain : ∀ x ∈ lead, ∀ u, Delimiter.take? (x :: u) = none
  stripped : ∀ x ∈ lead.head?, isBlank x = false

theorem isLead_nil : IsLead [] := ⟨by simp, by simp⟩

/-- What is written before the directive of a condition. -/
def written (indent : Nat) (lead : Text) (c : Conditional) : Text :=
  List.replicate indent ' ' ++ (lead ++ (c.text ++ [' ']))

section Reading

variable {c : Conditional} {lead rest : Text} {indent : Nat}

theorem take?_space (u : Text) : Delimiter.take? (' ' :: u) = none := rfl

theorem take?_replicate : ∀ x ∈ List.replicate indent ' ', ∀ u, Delimiter.take? (x :: u) = none := by
  intro x hx u
  rw [List.eq_of_mem_replicate hx]
  exact take?_space u

theorem row_append (indent : Nat) (lead rest : Text) (c : Conditional) :
    c.row indent lead ++ rest =
      c.lineEnd.chars ++ (List.replicate indent ' ' ++
        (lead ++ (c.text ++ ([' '] ++ ('-' :: '-' :: (' ' :: c.reference ++ rest)))))) := by
  simp [row]

/-- A line of a condition is cut into its line end, its characters and its directive. -/
theorem lexemes_row (hc : c.Proper) (hlead : IsLead lead) (hindent : 0 < indent)
    (hrest : ∀ x ∈ rest.head?, isLineBreak x = true) :
    lexemes (c.row indent lead ++ rest) =
      .lineEnd c.lineEnd :: ((c.written indent lead).map .plain ++
        .lineDirective (' ' :: c.reference) :: lexemes rest) := by
  have hnext : ∀ u : Text, (List.replicate indent ' ' ++ u).head? ≠ some '\n' := by
    intro u
    obtain ⟨n, rfl⟩ := Nat.exists_eq_succ_of_ne_zero (Nat.pos_iff_ne_zero.1 hindent)
    rw [List.replicate_succ, List.cons_append, List.head?_cons]
    decide
  have hbody : ∀ x ∈ ' ' :: c.reference, (!isLineBreak x) = true := by
    intro x hx
    rw [hc.isLineBreak_of_mem_comment x hx]
    rfl
  obtain ⟨htake, hdrop⟩ := takeWhile_append_of_head? hbody fun x hx => by
    rw [hrest x hx]
    rfl
  have hdirective : Lexeme.first '-' ('-' :: (' ' :: c.reference ++ rest)) =
      (.lineDirective (' ' :: c.reference), rest) := by
    have htaken : Delimiter.take? ('-' :: '-' :: (' ' :: c.reference ++ rest)) =
        some (.dashes, ' ' :: c.reference ++ rest) := rfl
    rw [Lexeme.first, htaken]
    simp only [Lexeme.ofDelimiter, restOfLine, htake, hdrop]
    rfl
  rw [row_append, lexemes_lineEnd _ fun _ => hnext _, lexemes_append_of_forall _ take?_replicate,
    lexemes_append_of_forall _ hlead.plain, hc.plain.lexemes_append, lexemes_append_of_forall,
    lexemes_cons, hdirective]
  · simp [written]
  · intro x hx u
    rw [List.mem_singleton.1 hx]
    exact take?_space u
  · intro x hx
    obtain rfl := Option.some.inj hx
    decide

/-- The draft of the line of a condition. -/
def draft (indent : Nat) (lead : Text) (c : Conditional) (line : Nat) : Draft :=
  let d := (Draft.start line).write (c.written indent lead)
  d.takeMark.2.addCompiled line c.reference c.expression d.takeMark.1

theorem isLineBreak_written (hc : c.Proper) (hlead : IsLead lead) :
    ∀ x ∈ c.written indent lead, isLineBreak x = false := by
  intro x hx
  rw [written, List.mem_append, List.mem_append, List.mem_append] at hx
  rcases hx with hx | hx | hx | hx
  · rw [List.eq_of_mem_replicate hx]
    decide
  · exact isLineBreak_eq_false_of_take? (hlead.plain x hx)
  · exact hc.plain.isLineBreak_eq_false x hx
  · rw [List.mem_singleton.1 hx]
    decide

/-- Reading the line of a condition finishes the line before it. -/
theorem readAll_row (registry : Registry) (r : Reader) (hc : c.Proper) (hlead : IsLead lead)
    (hindent : 0 < indent) (hrest : ∀ x ∈ rest.head?, isLineBreak x = true) :
    r.readAll registry (lexemes (c.row indent lead ++ rest)) =
      Reader.readAll registry
        ⟨r.line + 1,
          ⟨r.inner.openedAt, r.inner.draft.finish r.line :: r.inner.finished,
            c.draft indent lead (r.line + 1)⟩,
          r.outer⟩ (lexemes rest) := by
  have hends : lineEnds (Lexeme.lineEnd c.lineEnd).source = 1 := by
    cases c.lineEnd <;> rfl
  have hnone : lineEnds (Lexeme.lineDirective (' ' :: c.reference)).source = 0 := by
    have hall : ∀ x ∈ '-' :: '-' :: ' ' :: c.reference, isLineBreak x = false :=
      List.forall_mem_cons.2 ⟨by decide, List.forall_mem_cons.2
        ⟨by decide, hc.isLineBreak_of_mem_comment⟩⟩
    have hends := lineEnds_append_of_all_not _ [] hall
    rwa [List.append_nil] at hends
  rw [lexemes_row hc hlead hindent hrest, Reader.readAll]
  simp only [Reader.read, Reader.readContent, hends]
  rw [Reader.readAll_map_plain registry _ _ _ (isLineBreak_written hc hlead), Reader.readAll]
  simp only [Reader.read, Reader.readContent, Reader.addDirective, hc.strip_reference,
    Draft.addLine, hc.compile_reference registry, hnone]
  rfl

end Reading

/-- What is known of the line of a condition. The sample of its directive is the question mark in
front of it, if there is one. -/
structure RowLine (indent : Nat) (lead : Text) (c : Conditional) (d : Directive) (l : Line) :
    Prop where
  splices : l.splices = [.directive l.sql.length d]
  block : l.block? = none
  expression : d.expression = c.expression
  comparison : d.comparison = none
  text : ∃ t gap, l.sql = List.replicate indent ' ' ++ t ∧ isBlankText gap = true ∧
    t ++ d.sample.getD [] = lead ++ (c.text ++ gap)
  sample : d.sample = none ∨ d.sample = some ['?']

section RowLine

variable {c : Conditional} {lead : Text} {indent : Nat} {d : Directive} {l : Line}

/-- The draft of a condition ends with the mark of its directive, or has none. -/
theorem takeMark_written (hc : c.Proper) (indent : Nat) (lead : Text) (line : Nat) :
    ((Draft.start line).write (c.written indent lead)).takeMark =
        (none, (Draft.start line).write (c.written indent lead)) ∨
      ∃ front, c.text = front ++ ['?'] ∧
        ((Draft.start line).write (c.written indent lead)).takeMark =
          (some ['?'], ⟨(List.replicate indent ' ' ++ (lead ++ front)).reverse, [], line⟩) := by
  obtain ⟨front, x, htext⟩ := (List.eq_nil_or_concat c.text).resolve_left hc.nonempty
  rw [List.concat_eq_append] at htext
  have hx : isBlank x = false :=
    (strip_eq_self_iff.1 hc.stripped).2 x (by rw [htext, List.getLast?_concat]; rfl)
  have hclosing : x ≠ ')' := by
    rintro rfl
    exact hc.plain.not_mem (d := .closing) rfl (by rw [htext]; simp)
  have hreversed : ((Draft.start line).write (c.written indent lead)).reversed =
      ' ' :: x :: (List.replicate indent ' ' ++ (lead ++ front)).reverse := by
    simp [written, htext, Draft.start]
  have hstrip : stripStart (' ' :: x :: (List.replicate indent ' ' ++ (lead ++ front)).reverse) =
      x :: (List.replicate indent ' ' ++ (lead ++ front)).reverse := by
    rw [stripStart_cons, if_pos (by decide), stripStart_cons, hx]
    rfl
  by_cases hmark : x = '?'
  · refine .inr ⟨front, by rw [htext, hmark], ?_⟩
    rw [Draft.takeMark, hreversed, Ending.mark?, hstrip, hmark]
    rfl
  · left
    have hnone : Ending.mark? (' ' :: x ::
        (List.replicate indent ' ' ++ (lead ++ front)).reverse) = none := by
      rw [Ending.mark?, hstrip]
      split
      · rename_i heq
        exact absurd (List.cons.inj heq).1 hmark
      · rename_i heq
        exact absurd (List.cons.inj heq).1 hclosing
      · rfl
    rw [Draft.takeMark, hreversed, hnone]
    rfl

theorem finish_draft {line : Nat} {sample : Option Text} {e : Draft}
    (h : ((Draft.start line).write (c.written indent lead)).takeMark = (sample, e)) :
    (c.draft indent lead line).finish line =
      .mk e.reversed.reverse e.first line
        (e.splices ++ [.directive e.offset ⟨c.reference, c.expression, sample, none, some line⟩])
        none := by
  rw [draft, h]
  rfl

theorem rowLine_draft (hc : c.Proper) (indent : Nat) (lead : Text) (line : Nat) :
    ∃ d, RowLine indent lead c d ((c.draft indent lead line).finish line) := by
  rcases takeMark_written hc indent lead line with htake | ⟨front, htext, htake⟩
  · rw [finish_draft htake]
    refine ⟨⟨c.reference, c.expression, none, none, some line⟩, ?_, rfl, rfl, rfl, ?_, .inl rfl⟩
    · simp only [Line.splices, Line.sql, List.length_reverse]
      rfl
    · refine ⟨lead ++ (c.text ++ [' ']), [' '], ?_, by decide, List.append_nil _⟩
      simp [Line.sql, written, Draft.start]
  · rw [finish_draft htake]
    refine ⟨⟨c.reference, c.expression, some ['?'], none, some line⟩, ?_, rfl, rfl, rfl, ?_,
      .inr rfl⟩
    · simp only [Line.splices, Line.sql, Draft.offset, List.length_reverse, List.nil_append]
    · exact ⟨lead ++ front, [], by simp [Line.sql], by decide, by simp [htext]⟩

namespace RowLine

theorem not_mem_closing (h : RowLine indent lead c d l) (hc : c.Proper) (hlead : IsLead lead) :
    ')' ∉ l.sql := by
  obtain ⟨t, gap, hsql, hgap, htext⟩ := h.text
  rw [hsql, List.mem_append]
  rintro (hmem | hmem)
  · exact absurd (List.eq_of_mem_replicate hmem) (by decide)
  · have hmem : ')' ∈ lead ++ (c.text ++ gap) := by
      rw [← htext]
      exact List.mem_append_left _ hmem
    rw [List.mem_append, List.mem_append] at hmem
    rcases hmem with hmem | hmem | hmem
    · exact absurd (hlead.plain _ hmem []) (by simp [Delimiter.take?])
    · exact hc.plain.not_mem (d := .closing) rfl hmem
    · exact absurd (List.all_eq_true.1 hgap _ hmem) (by decide)

theorem isBlank_head? (hc : c.Proper) (hlead : IsLead lead) {t gap : Text}
    (htext : t ++ d.sample.getD [] = lead ++ (c.text ++ gap)) : ∀ x ∈ t.head?, isBlank x = false := by
  intro x hx
  have hhead : (lead ++ (c.text ++ gap)).head? = some x := by
    rw [← htext, List.head?_append, hx]
    rfl
  cases hl : lead with
  | cons y lead =>
      refine hlead.stripped x ?_
      rwa [hl] at hhead ⊢
  | nil =>
      obtain ⟨y, u, hy⟩ := List.exists_cons_of_ne_nil hc.nonempty
      refine (strip_eq_self_iff.1 hc.stripped).1 x ?_
      rw [hl, hy] at hhead
      rwa [hy]

theorem indent_eq (h : RowLine indent lead c d l) (hc : c.Proper) (hlead : IsLead lead) :
    l.indent = indent := by
  obtain ⟨t, gap, hsql, -, htext⟩ := h.text
  have hhead := isBlank_head? hc hlead htext
  have hspaces : ∀ x ∈ List.replicate indent ' ', (x == ' ' || x == '\t') = true := by
    intro x hx
    rw [List.eq_of_mem_replicate hx]
    rfl
  have htake := takeWhile_append_of_head? hspaces (r := t) fun x hx => by
    have hblank := hhead x hx
    rw [Bool.or_eq_false_iff, beq_eq_false_iff_ne, beq_eq_false_iff_ne]
    constructor
    · rintro rfl
      exact absurd hblank (by decide)
    · rintro rfl
      exact absurd hblank (by decide)
  have hcolumns : ∀ n k, (List.replicate n ' ').foldl Line.advanceColumn k = k + n := by
    intro n
    induction n with
    | zero => exact fun k => rfl
    | succ n ih =>
        intro k
        rw [List.replicate_succ, List.foldl_cons, ih]
        simp only [Line.advanceColumn]
        rw [if_neg (by decide)]
        omega
  rw [Line.indent, hsql, htake.1, hcolumns, Nat.zero_add]

theorem isBlank_eq_false (h : RowLine indent lead c d l) : l.isBlank = false := by
  rw [Line.isBlank, h.splices, List.isEmpty_cons, Bool.and_false]

end RowLine

end RowLine

end Conditional

open Conditional

/-- The lines of conditions with what stands in front of their texts, from the line `line` on. -/
def rowLines (indent line : Nat) : List (Text × Conditional) → List Line
  | [] => []
  | (lead, c) :: rows => (c.draft indent lead line).finish line :: rowLines indent (line + 1) rows

/-- Conditions as they are written, one on a line. -/
def rowsText (indent : Nat) (rows : List (Text × Conditional)) : Text :=
  rows.flatMap fun (lead, c) => c.row indent lead

/-- Conditions that can be written one on a line. -/
def ProperRows (rows : List (Text × Conditional)) : Prop :=
  ∀ row ∈ rows, IsLead row.1 ∧ row.2.Proper

/-- The text of a line end, if there is one. -/
def endingText (ending : Option LineEnd) : Text := (ending.map LineEnd.chars).getD []

section Rows

variable {rows : List (Text × Conditional)} {indent : Nat}

theorem isLineBreak_head?_rowsText (indent : Nat) (rows : List (Text × Conditional))
    (ending : Option LineEnd) :
    ∀ x ∈ (rowsText indent rows ++ endingText ending).head?, isLineBreak x = true := by
  have hchars : ∀ (e : LineEnd) (u : Text), ∀ x ∈ (e.chars ++ u).head?, isLineBreak x = true := by
    intro e u x hx
    cases e with
    | _ =>
        obtain rfl := Option.some.inj hx
        decide
  cases rows with
  | nil =>
      cases ending with
      | none => exact fun x hx => absurd hx (by simp [rowsText, endingText])
      | some e =>
          have hends := hchars e []
          rwa [List.append_nil] at hends
  | cons row rows =>
      obtain ⟨lead, c⟩ := row
      simp only [rowsText, List.flatMap_cons]
      rw [Conditional.row, List.append_assoc, List.append_assoc]
      exact hchars _ _

/-- Reading conditions adds their lines to those that were read before. -/
theorem linesAfter_rows (registry : Registry) (r : Reader) (houter : r.outer = [])
    (hindent : 0 < indent) (hrows : ProperRows rows) (ending : Option LineEnd) :
    ∃ blank, (∀ l ∈ blank, l.isBlank = true) ∧
      r.linesAfter registry (lexemes (rowsText indent rows ++ endingText ending)) =
        .ok (r.inner.finished.reverse ++ r.inner.draft.finish r.line ::
          (rowLines indent (r.line + 1) rows ++ blank)) := by
  induction rows generalizing r with
  | nil =>
      cases ending with
      | none =>
          refine ⟨[], List.forall_mem_nil _, ?_⟩
          simp [rowsText, endingText, rowLines, Reader.linesAfter, Reader.readAll, Reader.finish,
            houter, Span.lines]
      | some e =>
          refine ⟨[(Draft.start (r.line + 1)).finish (r.line + lineEnds e.chars)],
            List.forall_mem_singleton.2 rfl, ?_⟩
          have hlexemes : lexemes (e.chars ++ []) = .lineEnd e :: lexemes [] :=
            lexemes_lineEnd e (by simp)
          rw [List.append_nil] at hlexemes
          simp [rowsText, endingText, hlexemes, rowLines, Reader.linesAfter, Reader.readAll,
            Reader.read, Reader.readContent, Reader.finish, houter, Span.lines, Span.nextLine,
            Lexeme.source]
  | cons row rows ih =>
      obtain ⟨lead, c⟩ := row
      rw [ProperRows, List.forall_mem_cons] at hrows
      obtain ⟨⟨hlead, hc⟩, hrows⟩ := hrows
      rw [rowsText, List.flatMap_cons, List.append_assoc, ← rowsText, Reader.linesAfter,
        readAll_row registry r hc hlead hindent (isLineBreak_head?_rowsText indent rows ending),
        ← Reader.linesAfter]
      obtain ⟨blank, hblank, hlines⟩ := ih ⟨r.line + 1, ⟨r.inner.openedAt,
        r.inner.draft.finish r.line :: r.inner.finished, c.draft indent lead (r.line + 1)⟩,
        r.outer⟩ houter hrows
      refine ⟨blank, hblank, hlines.trans ?_⟩
      simp [rowLines]

theorem rowLine_of_mem (hrows : ProperRows rows) (line : Nat) :
    ∀ l ∈ rowLines indent line rows, ∃ lead c d, (lead, c) ∈ rows ∧
      RowLine indent lead c d l := by
  induction rows generalizing line with
  | nil => exact List.forall_mem_nil _
  | cons row rows ih =>
      obtain ⟨lead, c⟩ := row
      rw [ProperRows, List.forall_mem_cons] at hrows
      rw [rowLines, List.forall_mem_cons]
      constructor
      · obtain ⟨d, hd⟩ := rowLine_draft hrows.1.2 indent lead line
        exact ⟨lead, c, d, List.mem_cons_self .., hd⟩
      · intro l hl
        obtain ⟨lead', c', d, hmem, hd⟩ := ih hrows.2 (line + 1) l hl
        exact ⟨lead', c', d, List.mem_cons_of_mem _ hmem, hd⟩

end Rows

/-- A line that conditions can be written below. -/
structure IsHead (head : Text) : Prop where
  plain : IsPlain head
  nonblank : isBlankText head = false
  unindented : ∀ x ∈ head.head?, x ≠ ' ' ∧ x ≠ '\t'

instance (head : Text) : Decidable (IsHead head) :=
  decidable_of_iff
    (IsPlain head ∧ isBlankText head = false ∧ head.head? ≠ some ' ' ∧ head.head? ≠ some '\t')
    ⟨fun ⟨h₁, h₂, h₃, h₄⟩ => ⟨h₁, h₂, fun _ hx =>
      ⟨fun heq => h₃ (heq ▸ hx), fun heq => h₄ (heq ▸ hx)⟩⟩,
      fun ⟨h₁, h₂, h₃⟩ => ⟨h₁, h₂, fun heq => (h₃ _ heq).1 rfl, fun heq => (h₃ _ heq).2 rfl⟩⟩

/-- A head stands at the left margin and closes nothing. -/
theorem IsHead.level {head : Text} (h : IsHead head) :
    (Line.mk head 1 1 [] none).indent = 0 ∧ (Line.mk head 1 1 [] none).startsWithClosing = false ∧
      (Line.mk head 1 1 [] none).isBlank = false := by
  refine ⟨?_, Line.startsWithClosing_eq_false (h.plain.not_mem (d := .closing) rfl), ?_⟩
  · have hnone : head.takeWhile (fun c => c == ' ' || c == '\t') = [] := by
      cases hcons : head with
      | nil => rfl
      | cons x t =>
          have hx := h.unindented x (by rw [hcons]; rfl)
          rw [List.takeWhile_cons_of_neg (by simpa using hx)]
    rw [Line.indent, Line.sql, hnone]
    rfl
  · rw [Line.isBlank, Line.sql, h.nonblank]
    rfl

section Heads

variable {head : Text} {indent : Nat} {rows : List (Text × Conditional)}

theorem level_of_mem_rowLines (hrows : ProperRows rows) (line : Nat) :
    ∀ l ∈ rowLines indent line rows, l.indent = indent ∧ l.startsWithClosing = false ∧
      l.isBlank = false ∧ l.block? = none := by
  intro l hl
  obtain ⟨lead, c, d, hmem, hd⟩ := rowLine_of_mem hrows line l hl
  obtain ⟨hlead, hc⟩ := hrows _ hmem
  exact ⟨hd.indent_eq hc hlead, Line.startsWithClosing_eq_false (hd.not_mem_closing hc hlead),
    hd.isBlank_eq_false, hd.block⟩

/-- A head is read as a line of its own, and the conditions below it as the lines that follow. -/
theorem flatLines_rows (registry : Registry) (hhead : IsHead head) (hindent : 0 < indent)
    (hrows : ProperRows rows) (ending : Option LineEnd) :
    ∃ blank, (∀ l ∈ blank, l.isBlank = true) ∧
      flatLines registry (head ++ (rowsText indent rows ++ endingText ending)) =
        .ok (.mk head 1 1 [] none :: (rowLines indent 2 rows ++ blank)) := by
  obtain ⟨blank, hblank, hlines⟩ :=
    linesAfter_rows registry (Reader.start.write head) rfl hindent hrows ending
  have hrest : ∀ x ∈ (rowsText indent rows ++ endingText ending).head?,
      x ≠ '-' ∧ x ≠ '*' ∧ x ≠ '/' := by
    intro x hx
    have hbreak := isLineBreak_head?_rowsText indent rows ending x hx
    refine ⟨?_, ?_, ?_⟩
    all_goals
      rintro rfl
      exact absurd hbreak (by decide)
  have hread : Reader.start.linesAfter registry
      (lexemes (head ++ (rowsText indent rows ++ endingText ending))) =
        (Reader.start.write head).linesAfter registry
          (lexemes (rowsText indent rows ++ endingText ending)) := by
    rw [hhead.plain.lexemes_append hrest, Reader.linesAfter, Reader.readAll_map_plain registry _ _
      _ hhead.plain.isLineBreak_eq_false, ← Reader.linesAfter]
  have hfirst : (Reader.start.write head).inner.draft.finish 1 = .mk head 1 1 [] none := by
    simp [Reader.start, Span.start, Reader.write, Span.edit, Draft.start, Draft.write, Draft.finish]
  refine ⟨blank, hblank, (hread.trans hlines).trans ?_⟩
  rw [← hfirst]
  rfl

/-- A line with conditions below it is parsed as just that. -/
theorem parse_conditions (registry : Registry) (resource : Option Text) (hhead : IsHead head)
    (hindent : 0 < indent) (hrows : ProperRows rows) (ending : Option LineEnd) :
    Template.parse registry resource (head ++ (rowsText indent rows ++ endingText ending)) =
      .ok ⟨[(Line.mk head 1 1 [] none).withChildren (rowLines indent 2 rows)], resource⟩ := by
  obtain ⟨blank, hblank, hflat⟩ := flatLines_rows registry hhead hindent hrows ending
  rw [Template.parse, hflat]
  simp only
  rw [← List.cons_append, Line.nest_append_of_isBlank hblank,
    Line.nest_of_level hindent hhead.level (level_of_mem_rowLines hrows 2)]

end Heads

end SqlTemplate
