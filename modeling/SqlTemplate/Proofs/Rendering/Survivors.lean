import SqlTemplate.Proofs.Rendering.Ends
import SqlTemplate.Proofs.Rendering.TwoWay
import SqlTemplate.Proofs.Template.Conditional

/-!
# What is left of a list of conditions

Conditions written one on a line below a line, joined by a connective that stands in front of all
but the first, are rendered as those that hold (`render_survivors`): the first one that is left
loses the connective in front of it, and where none is left the line above them loses the keyword
that would introduce them.
-/

namespace SqlTemplate

/-- What joins conditions. -/
inductive Joiner where
  | and
  | or
  | comma
deriving DecidableEq, Repr

namespace Joiner

def text : Joiner → Text
  | and => "AND".toList
  | or => "OR".toList
  | comma => [',']

/-- What stands in front of a condition that follows another one. -/
def lead (j : Joiner) : Text := j.text ++ [' ']

/-- Conditions behind another one, each with the connective in front. -/
def behind (j : Joiner) (conditions : List Conditional) : Text :=
  conditions.flatMap fun c => ' ' :: (j.lead ++ c.text)

end Joiner

/-- Conditions with what stands in front of them: nothing in front of the first one, and the
connective in front of the others. -/
def joinedRows (j : Joiner) (first : Conditional) (others : List Conditional) :
    List (Text × Conditional) :=
  ([], first) :: others.map fun c => (j.lead, c)

/-- A line with conditions below it. -/
def conditionsText (head : Text) (indent : Nat) (j : Joiner) (first : Conditional)
    (others : List Conditional) (ending : Option LineEnd) : Text :=
  head ++ (rowsText indent (joinedRows j first others) ++ endingText ending)

/-- The statement that is left of conditions below a line, where `survivors` are those that hold. -/
def survivorsText (head : Text) (j : Joiner) (survivors : List Conditional) : Text :=
  match survivors with
  | [] => Connective.dropIntroduction (strip head)
  | c :: more => strip head ++ ' ' :: (c.text ++ j.behind more)

namespace Joiner

theorem isLead_lead (j : Joiner) : Conditional.IsLead j.lead := by
  constructor
  · have hnil : ∀ x ∈ ([] : Text), ∀ u, Delimiter.take? (x :: u) = none := List.forall_mem_nil _
    cases j with
    | and =>
        exact List.forall_mem_cons.2 ⟨fun _ => rfl, List.forall_mem_cons.2 ⟨fun _ => rfl,
          List.forall_mem_cons.2 ⟨fun _ => rfl, List.forall_mem_cons.2 ⟨fun _ => rfl, hnil⟩⟩⟩⟩
    | or =>
        exact List.forall_mem_cons.2 ⟨fun _ => rfl, List.forall_mem_cons.2 ⟨fun _ => rfl,
          List.forall_mem_cons.2 ⟨fun _ => rfl, hnil⟩⟩⟩
    | comma =>
        exact List.forall_mem_cons.2 ⟨fun _ => rfl, List.forall_mem_cons.2 ⟨fun _ => rfl, hnil⟩⟩
  · intro x hx
    cases j with
    | _ =>
        obtain rfl := Option.some.inj hx
        decide

theorem parted_lead (j : Joiner) (t : Text) : Parted j.lead t := parted_of_getLast (by decide)

/-- The connective in front of a text is what is taken off there. -/
theorem dropLeading_lead_append (j : Joiner) {t : Text} (h : ∀ x ∈ t.head?, isBlank x = false) :
    Connective.dropLeading (j.lead ++ t) = t := by
  have hread : Connective.afterLeading? (j.lead ++ t) = some (stripStart (' ' :: t)) := by
    cases j <;> rfl
  rw [Connective.dropLeading, hread, stripStart_cons, if_pos (by decide),
    stripStart_eq_self_iff.2 h]
  rfl

end Joiner

namespace Conditional

/-- Whether a parameter is as a condition asks. -/
def holds (n : Negatives) (p : Parameters) (c : Conditional) : Bool :=
  n.isNegative (p.get c.key) == c.negated

/-- What a condition with `lead` in front of it leaves, if anything. -/
def left (n : Negatives) (p : Parameters) (lead : Text) (c : Conditional) : Option Fragment :=
  if c.holds n p then some ⟨lead ++ c.text, []⟩ else none

variable {c : Conditional} {lead : Text} {indent : Nat} {d : Directive} {l : Line} {s : Scope}

theorem strip_lead_append (hc : c.Proper) (hlead : IsLead lead) :
    strip (lead ++ c.text) = lead ++ c.text := by
  obtain ⟨hfirst, hlast⟩ := strip_eq_self_iff.1 hc.stripped
  refine strip_eq_self_iff.2 ⟨?_, ?_⟩
  · cases hl : lead with
    | nil => exact hfirst
    | cons x lead =>
        rw [hl] at hlead
        exact hlead.stripped
  · obtain ⟨front, y, hy⟩ := (List.eq_nil_or_concat c.text).resolve_left hc.nonempty
    rw [List.concat_eq_append] at hy
    rw [hy, List.getLast?_concat] at hlast
    rw [hy, ← List.append_assoc, List.getLast?_concat]
    exact hlast

/-- A condition whose parameter is as it asks holds, and any other one drops its line. -/
theorem evaluate_reference [Runtime] (hd : d.expression = c.expression) :
    d.evaluate s = .ok (if c.holds s.renderer.negatives s.parameters then .keep
      else .drop false) := by
  by_cases hholds : c.holds s.renderer.negatives s.parameters = true
  · rw [if_pos hholds]
    exact Directive.Holds.evaluate
      ⟨.presence, c.key, c.negated, hd, .inl rfl, by simpa [holds] using hholds⟩
  · have hreference : Reference.presence.evaluate s d c.key c.negated = .ok (.drop false) := by
      cases hnegated : c.negated with
      | true =>
          refine Reference.evaluate_negated_of_present ?_
          simpa [holds, hnegated] using hholds
      | false =>
          refine Reference.evaluate_of_absent false ?_
          simpa [holds, hnegated] using hholds
    rw [if_neg hholds, Directive.evaluate_eq_ok_iff, hd]
    refine ⟨[.drop false], ?_, rfl⟩
    exact Term.evaluateAll_cons_eq_ok_iff.2 ⟨.drop false, [], hreference, rfl, rfl⟩

/-- The line of a condition is its text, or is dropped. -/
theorem RowLine.render_eq [Runtime] (h : RowLine indent lead c d l) (hc : c.Proper)
    (hlead : IsLead lead)
    (s : Scope) :
    l.render s = .ok (c.left s.renderer.negatives s.parameters lead) := by
  rw [left]
  have hevaluate := evaluate_reference (s := s) h.expression
  obtain ⟨t, gap, hsql, hgap, htext⟩ := h.text
  have hcomparison := h.comparison
  have hsplices := h.splices
  have hblock := h.block
  cases l with
  | mk sql first last splices block =>
      obtain rfl : splices = [.directive sql.length d] := hsplices
      obtain rfl : block = none := hblock
      have hwhole : strip (sql ++ d.sample.getD []) = lead ++ c.text := by
        rw [show sql = List.replicate indent ' ' ++ t from hsql, List.append_assoc, htext,
          ← List.append_assoc lead]
        refine strip_append_append ?_ hgap (strip_lead_append hc hlead)
        rw [isBlankText, List.all_replicate]
        simp [isBlank]
      by_cases hholds : c.holds s.renderer.negatives s.parameters = true
      · rw [if_pos hholds] at hevaluate ⊢
        refine Line.render_eq_ok_iff.2 (.inr ⟨⟨sql ++ d.sample.getD [], []⟩, ?_, .inl ⟨rfl, ?_⟩⟩)
        · refine Line.renderSplices_directive_eq_ok_iff.2
            ⟨.keep, hevaluate, .inr ⟨rfl, _, rfl, ?_⟩⟩
          rw [Directive.output_keep, Directive.written, hcomparison, Line.sql, Nat.sub_zero,
            List.take_length, List.drop_length]
          exact congrArg (fun text => some (Fragment.mk text [])) (List.append_nil _).symm
        · rw [hwhole]
      · rw [if_neg hholds] at hevaluate ⊢
        refine Line.render_eq_ok_iff.2 (.inl ⟨?_, rfl⟩)
        exact Line.renderSplices_directive_eq_ok_iff.2
          ⟨.drop false, hevaluate, .inl ⟨rfl, rfl⟩⟩

/-- A condition that was written without a connective in front is seen to have none, although its
sample is cut out. -/
theorem RowLine.startsWith_eq_false (h : RowLine indent [] c d l) (hc : c.Proper) :
    Connective.startsWith l.sql = false := by
  obtain ⟨t, gap, hsql, hgap, htext⟩ := h.text
  have hspaces : isBlankText (List.replicate indent ' ') = true := by
    rw [isBlankText, List.all_replicate]
    simp [isBlank]
  have hhead := isBlank_head? hc isLead_nil htext
  cases hstarts : Connective.startsWith l.sql with
  | false => rfl
  | true =>
      obtain ⟨v, hv, hend⟩ := exists_stripEnd_append t
      have hstrip : strip l.sql = stripEnd t := by
        rw [hsql, strip, stripStart_append_of_isBlankText hspaces,
          stripStart_eq_self_iff.2 hhead]
      have hbegins : beginsOutsideWord (v ++ d.sample.getD []) = true := by
        cases v with
        | nil => rcases h.sample with hsample | hsample <;> rw [hsample] <;> decide
        | cons x v =>
            have hx : isBlank x = true := List.all_eq_true.1 hv x (List.mem_cons_self ..)
            rw [List.cons_append, beginsOutsideWord_cons, isWord_eq_false_of_isBlank hx]
            rfl
      have hwhole : stripEnd t ++ (v ++ d.sample.getD []) = c.text ++ gap := by
        rw [← List.append_assoc, ← hend, htext]
        rfl
      have hgapStart : beginsOutsideWord gap = true := by
        cases gap with
        | nil => rfl
        | cons x gap =>
            have hx : isBlank x = true := List.all_eq_true.1 hgap x (List.mem_cons_self ..)
            rw [beginsOutsideWord_cons, isWord_eq_false_of_isBlank hx]
            rfl
      have hne : stripEnd t ≠ [] := by
        intro hnil
        rw [Connective.startsWith, hstrip, hnil] at hstarts
        exact absurd hstarts (by decide)
      have htext := hc.starts
      rw [Connective.startsWith, hstrip, ← Connective.isSome_afterLeading?_append hne hbegins,
        hwhole, Connective.isSome_afterLeading?_append hc.nonempty hgapStart] at hstarts
      rw [Connective.startsWith, hc.stripped, hstarts] at htext
      exact absurd htext (by simp)

end Conditional

namespace Block

variable {f : Text → Text} {texts : List Text}

theorem editFirst_eq_self (h : ∀ t ∈ texts, f t = t) : editFirst f texts = texts := by
  induction texts with
  | nil => rfl
  | cons t ts ih =>
      rw [List.forall_mem_cons] at h
      rw [editFirst, ih h.2, h.1, ite_self]

/-- Changing the first text that is left changes the first of those that are left. -/
theorem filter_editFirst {t : Text} {ts : List Text}
    (h : texts.filter (fun t => !t.isEmpty) = t :: ts) (hne : f t ≠ []) :
    (editFirst f texts).filter (fun t => !t.isEmpty) = f t :: ts := by
  induction texts with
  | nil => exact absurd h (by simp)
  | cons u us ih =>
      rw [editFirst]
      by_cases hu : u.isEmpty = true
      · rw [List.filter_cons_of_neg (by simpa using hu)] at h
        rw [if_pos hu, List.filter_cons_of_neg (by simpa using hu)]
        exact ih h
      · rw [List.filter_cons_of_pos (by simpa using hu)] at h
        obtain ⟨rfl, rfl⟩ := List.cons.inj h
        rw [if_neg hu, List.filter_cons_of_pos (by simpa using hne)]

theorem cleanStart_of_head?_ne_nil {lines : List Line} (h : texts.head? ≠ some []) :
    cleanStart lines texts = texts := by
  unfold cleanStart
  split
  · rename_i hhead
    exact absurd hhead h
  · rfl

/-- The end is not changed where no text ends with a connective. -/
theorem cleanEnd_eq_self {lines : List Line} (h : ∀ t ∈ texts, Connective.dropTrailing t = t) :
    cleanEnd lines texts = texts := by
  unfold cleanEnd
  split
  · split
    · rfl
    · rw [editLast, editFirst_eq_self fun t ht => h t (List.mem_reverse.1 ht), List.reverse_reverse]
  · rfl

theorem intercalate_cons (sep t : Text) (ts : List Text) :
    List.intercalate sep (t :: ts) = t ++ ts.flatMap (sep ++ ·) := by
  induction ts generalizing t with
  | nil => simp
  | cons u us ih => rw [List.intercalate_cons_cons, ih, List.flatMap_cons, List.append_assoc, List.append_assoc]

theorem all_isEmpty_iff : texts.all List.isEmpty = true ↔ (texts.filter fun t => !t.isEmpty) = [] := by
  rw [List.all_eq_true, List.filter_eq_nil_iff]
  exact forall₂_congr fun t _ => by simp

theorem mem_editFirst {t : Text} (h : t ∈ editFirst f texts) :
    t ∈ texts ∨ ∃ u ∈ texts, u ≠ [] ∧ t = f u := by
  induction texts with
  | nil => exact .inl h
  | cons u us ih =>
      rw [editFirst] at h
      by_cases hu : u.isEmpty = true
      · rw [if_pos hu, List.mem_cons] at h
        rcases h with rfl | h
        · exact .inl (List.mem_cons_self ..)
        · rcases ih h with hmem | ⟨v, hv, hne, rfl⟩
          · exact .inl (List.mem_cons_of_mem _ hmem)
          · exact .inr ⟨v, List.mem_cons_of_mem _ hv, hne, rfl⟩
      · rw [if_neg hu, List.mem_cons] at h
        rcases h with rfl | h
        · exact .inr ⟨u, List.mem_cons_self .., by simpa using hu, rfl⟩
        · exact .inl (List.mem_cons_of_mem _ h)

end Block

/-- The lines of conditions are rendered to what each of them leaves. -/
theorem renderAll_rowLines [Runtime] {rows : List (Text × Conditional)} (hrows : ProperRows rows)
    (indent line : Nat) (s : Scope) :
    Line.renderAll s (rowLines indent line rows) =
      .ok (rows.map fun row => row.2.left s.renderer.negatives s.parameters row.1) := by
  induction rows generalizing line with
  | nil => rfl
  | cons row rows ih =>
      obtain ⟨lead, c⟩ := row
      rw [ProperRows, List.forall_mem_cons] at hrows
      obtain ⟨⟨hlead, hc⟩, hrows⟩ := hrows
      obtain ⟨d, hd⟩ := Conditional.rowLine_draft hc indent lead line
      exact Line.renderAll_cons_eq_ok_iff.2
        ⟨_, _, hd.render_eq hc hlead s, ih hrows (line + 1), rfl⟩

section Survivors

variable {n : Negatives} {p : Parameters} {j : Joiner} {c first : Conditional}
  {others : List Conditional} {lead : Text}

theorem Conditional.textOf_left (n : Negatives) (p : Parameters) (lead : Text) (c : Conditional) :
    Block.textOf (c.left n p lead) = if c.holds n p then lead ++ c.text else [] := by
  unfold left
  split <;> rfl

theorem Conditional.valuesOf_left (n : Negatives) (p : Parameters) (lead : Text)
    (c : Conditional) : Block.valuesOf (c.left n p lead) = [] := by
  unfold left
  split <;> rfl

/-- The result of the conditions that hold, if there are any. -/
def Joiner.joined (j : Joiner) : List Conditional → Option Fragment
  | [] => none
  | c :: more => some ⟨c.text ++ j.behind more, []⟩

/-- The texts of conditions with a connective in front of each. -/
def Joiner.texts (n : Negatives) (p : Parameters) (j : Joiner) (conditions : List Conditional) :
    List Text :=
  conditions.map fun c => Block.textOf (c.left n p j.lead)

theorem Joiner.filter_texts (n : Negatives) (p : Parameters) (j : Joiner)
    (conditions : List Conditional) :
    ((j.texts n p conditions).filter fun t => !t.isEmpty) =
      (conditions.filter (Conditional.holds n p)).map fun c => j.lead ++ c.text := by
  induction conditions with
  | nil => rfl
  | cons c cs ih =>
      rw [texts, List.map_cons, ← texts, c.textOf_left]
      by_cases hholds : c.holds n p = true
      · rw [if_pos hholds, List.filter_cons_of_pos (by simp [lead]), ih,
          List.filter_cons_of_pos hholds, List.map_cons]
      · rw [if_neg hholds, List.filter_cons_of_neg (by simp), ih, List.filter_cons_of_neg hholds]

theorem Conditional.Proper.dropTrailing_append (hc : c.Proper) (hparted : Parted lead c.text) :
    Connective.dropTrailing (lead ++ c.text) = lead ++ c.text :=
  Connective.dropTrailing_append_eq_self hc.nonempty hc.stripped hc.ends hparted

theorem Conditional.Proper.dropTrailing_textOf (hc : c.Proper) (hparted : Parted lead c.text) :
    Connective.dropTrailing (Block.textOf (c.left n p lead)) = Block.textOf (c.left n p lead) := by
  rw [textOf_left]
  split
  · exact hc.dropTrailing_append hparted
  · rfl

theorem Conditional.Proper.dropLeading_lead_append (hc : c.Proper) (j : Joiner) :
    Connective.dropLeading (j.lead ++ c.text) = c.text :=
  j.dropLeading_lead_append (strip_eq_self_iff.1 hc.stripped).1

/-- The texts of conditions end without a connective, also if the connective in front of the first
one is taken off. -/
theorem Joiner.dropTrailing_of_mem (n : Negatives) (p : Parameters) (j : Joiner)
    (hothers : ∀ c ∈ others, c.Proper) :
    (∀ t ∈ j.texts n p others, Connective.dropTrailing t = t) ∧
      ∀ t ∈ Block.editFirst Connective.dropLeading (j.texts n p others),
        Connective.dropTrailing t = t := by
  have hkept : ∀ t ∈ j.texts n p others, Connective.dropTrailing t = t := by
    intro t ht
    obtain ⟨c, hc, rfl⟩ := List.mem_map.1 ht
    exact (hothers c hc).dropTrailing_textOf (j.parted_lead c.text)
  refine ⟨hkept, fun t ht => ?_⟩
  rcases Block.mem_editFirst ht with hmem | ⟨u, hu, hne, rfl⟩
  · exact hkept t hmem
  · obtain ⟨c, hmem, rfl⟩ := List.mem_map.1 hu
    have hc := hothers c hmem
    rw [c.textOf_left] at hne ⊢
    by_cases hholds : c.holds n p = true
    · rw [if_pos hholds, hc.dropLeading_lead_append]
      exact hc.dropTrailing_append (.inl rfl : Parted [] c.text)
    · rw [if_neg hholds] at hne
      exact absurd rfl hne

/-- Texts that end without a connective are joined as they are. -/
theorem Block.join_cleanEnd_eq {lines : List Line} {t : Text} {texts : List Text}
    {conditions : List Conditional}
    (h : ∀ u ∈ texts, Connective.dropTrailing u = u)
    (hleft : (texts.filter fun t => !t.isEmpty) =
      t :: conditions.map fun c => j.lead ++ c.text) :
    join (cleanEnd lines texts) = t ++ j.behind conditions := by
  rw [cleanEnd_eq_self h, join, hleft, intercalate_cons, List.flatMap_map]
  rfl

/-- If the first condition holds, it has no connective in front that could be cleaned away. -/
theorem Block.join_conditions_of_holds (n : Negatives) (p : Parameters) (j : Joiner)
    (hfirst : first.Proper) (hothers : ∀ c ∈ others, c.Proper) (lines : List Line) :
    join (cleanEnd lines (cleanStart lines (first.text :: j.texts n p others))) =
      first.text ++ j.behind (others.filter (Conditional.holds n p)) := by
  have hclean : cleanStart lines (first.text :: j.texts n p others) =
      first.text :: j.texts n p others :=
    cleanStart_of_head?_ne_nil fun h => hfirst.nonempty (Option.some.inj h)
  rw [hclean]
  refine join_cleanEnd_eq (List.forall_mem_cons.2 ⟨?_, (j.dropTrailing_of_mem n p hothers).1⟩) ?_
  · exact hfirst.dropTrailing_append (.inl rfl : Parted [] first.text)
  · rw [List.filter_cons_of_pos (by simpa using hfirst.nonempty), Joiner.filter_texts]

/-- If the first condition does not hold, the next one that does is left without the connective in
front. -/
theorem Block.join_conditions_of_not_holds {more : List Conditional} (j : Joiner)
    (hothers : ∀ c ∈ others, c.Proper) (hleft : others.filter (Conditional.holds n p) = c :: more)
    {l : Line} (ls : List Line) (hl : Connective.startsWith l.sql = false) :
    join (cleanEnd (l :: ls) (cleanStart (l :: ls) ([] :: j.texts n p others))) =
      c.text ++ j.behind more := by
  have hmem : c ∈ others.filter (Conditional.holds n p) := by
    rw [hleft]
    exact List.mem_cons_self ..
  have hc := hothers c (List.mem_filter.1 hmem).1
  have hkept : ((j.texts n p others).filter fun t => !t.isEmpty) =
      (j.lead ++ c.text) :: more.map fun c => j.lead ++ c.text := by
    rw [Joiner.filter_texts, hleft, List.map_cons]
  have hdropped := filter_editFirst (f := Connective.dropLeading) hkept
    (by rw [hc.dropLeading_lead_append]; exact hc.nonempty)
  rw [hc.dropLeading_lead_append] at hdropped
  have hclean : cleanStart (l :: ls) ([] :: j.texts n p others) =
      [] :: editFirst Connective.dropLeading (j.texts n p others) := by
    rw [cleanStart_of_head? rfl rfl, hl]
    rfl
  rw [hclean]
  exact join_cleanEnd_eq
    (List.forall_mem_cons.2 ⟨rfl, (j.dropTrailing_of_mem n p hothers).2⟩)
    (by rw [List.filter_cons_of_neg (by simp), hdropped])

/-- The conditions of a block that hold are left, the first one without the connective in front. -/
theorem Block.assemble_conditions (n : Negatives) (p : Parameters) (j : Joiner)
    (hfirst : first.Proper) (hothers : ∀ c ∈ others, c.Proper) {l : Line} (ls : List Line)
    (hl : Connective.startsWith l.sql = false) :
    assemble (l :: ls) ((joinedRows j first others).map fun row => row.2.left n p row.1) =
      j.joined ((first :: others).filter (Conditional.holds n p)) := by
  have htexts : ((joinedRows j first others).map fun row => row.2.left n p row.1).map textOf =
      textOf (first.left n p []) :: j.texts n p others := by
    simp [joinedRows, Joiner.texts]
  have hvalues :
      ((joinedRows j first others).map fun row => row.2.left n p row.1).flatMap valuesOf = [] := by
    rw [List.flatMap_map, List.flatMap_eq_nil_iff]
    exact fun row _ => row.2.valuesOf_left n p row.1
  rw [assemble, htexts, hvalues, first.textOf_left, List.nil_append]
  by_cases hholds : first.holds n p = true
  · have hnonempty : ¬(first.text :: j.texts n p others).all List.isEmpty = true := by
      rw [List.all_cons, Bool.and_eq_true, List.isEmpty_iff]
      exact fun h => hfirst.nonempty h.1
    rw [if_pos hholds, List.filter_cons_of_pos hholds, if_neg hnonempty,
      join_conditions_of_holds n p j hfirst hothers]
    rfl
  · have hall : ([] :: j.texts n p others).all List.isEmpty = true ↔
        others.filter (Conditional.holds n p) = [] := by
      rw [all_isEmpty_iff, List.filter_cons_of_neg (by simp), Joiner.filter_texts,
        List.map_eq_nil_iff]
    rw [if_neg hholds, List.filter_cons_of_neg hholds]
    cases hleft : others.filter (Conditional.holds n p) with
    | nil =>
        rw [if_pos (hall.2 hleft)]
        rfl
    | cons c more =>
        rw [if_neg fun h => List.cons_ne_nil c more (hleft.symm.trans (hall.1 h)),
          join_conditions_of_not_holds j hothers hleft ls hl]
        rfl

/-- The statement of a line with conditions below it, once it is known which of them hold. -/
theorem Block.assemble_attach_joined {head : Text} {survivors : List Conditional}
    (hhead : isBlankText head = false) (hne : ∀ c ∈ survivors, c.text ≠ []) (l : Line) :
    (assemble [l] [attach ⟨strip head, []⟩ (j.joined survivors)]).getD .empty =
      ⟨survivorsText head j survivors, []⟩ := by
  have hstripped : strip head ≠ [] := by
    intro hnil
    have hunspaced := unspaced_strip head
    rw [hnil] at hunspaced
    rw [unspaced_eq_nil_iff.1 hunspaced.symm] at hhead
    exact absurd hhead (by simp)
  have hsingle : ∀ t : Text, t ≠ [] →
      (assemble [l] [some ⟨t, []⟩]).getD .empty = ⟨t, []⟩ := by
    intro t ht
    have hjoin : join [t] = t := by
      rw [join, List.filter_cons_of_pos (by simpa using ht), List.filter_nil,
        List.intercalate_singleton]
    have hassemble : (assemble [l] [some ⟨t, []⟩]).getD .empty = ⟨join [t], []⟩ :=
      getD_assemble_of_ne_nil (List.forall_mem_singleton.2 ht)
    rw [hassemble, hjoin]
  cases survivors with
  | nil =>
      have hdropped := Connective.strip_dropIntroduction (strip_strip head)
      by_cases hnil : Connective.dropIntroduction (strip head) = []
      · simp [attach, Joiner.joined, survivorsText, Fragment.empty, hnil, assemble, textOf, valuesOf]
      · have hattach : attach ⟨strip head, []⟩ (j.joined []) =
            some ⟨Connective.dropIntroduction (strip head), []⟩ := by
          simp [attach, Joiner.joined, Fragment.empty, hdropped, hnil]
        rw [hattach, hsingle _ hnil]
        rfl
  | cons c more =>
      have hbelow : c.text ++ j.behind more ≠ [] :=
        List.append_ne_nil_of_left_ne_nil (hne c (List.mem_cons_self ..)) _
      rw [Joiner.joined, attach_of_ne_nil hstripped hbelow, hsingle _ (by simp)]
      rfl

end Survivors

/-- Conditions below a line are left if they hold, with the connective in front of all but the first
one that is left. Where none is left, the line above loses a word that introduces them. -/
theorem render_survivors [Runtime] (r : Renderer) (p : Parameters) (registry : Registry)
    (resource : Option Text) {head : Text} {indent : Nat} {first : Conditional}
    {others : List Conditional} (j : Joiner) (ending : Option LineEnd) (hhead : IsHead head)
    (hindent : 0 < indent) (hfirst : first.Proper) (hothers : ∀ c ∈ others, c.Proper) :
    ∃ t, Template.parse registry resource
        (conditionsText head indent j first others ending) = .ok t ∧
      r.render t p =
        .ok ⟨survivorsText head j ((first :: others).filter (Conditional.holds r.negatives p)),
          []⟩ := by
  have hrows : ProperRows (joinedRows j first others) := by
    refine List.forall_mem_cons.2 ⟨⟨Conditional.isLead_nil, hfirst⟩, ?_⟩
    intro row hrow
    obtain ⟨c, hc, rfl⟩ := List.mem_map.1 hrow
    exact ⟨j.isLead_lead, hothers c hc⟩
  refine ⟨_, parse_conditions registry resource hhead hindent hrows ending, ?_⟩
  obtain ⟨d, hd⟩ := Conditional.rowLine_draft hfirst indent [] 2
  have hbelow := Block.assemble_conditions r.negatives p j hfirst hothers
    (rowLines indent 3 (others.map fun c => (j.lead, c))) (hd.startsWith_eq_false hfirst)
  have hline : Line.render ⟨r, resource, p⟩
      ((Line.mk head 1 1 [] none).withChildren (rowLines indent 2 (joinedRows j first others))) =
        .ok (Block.attach ⟨strip head, []⟩ (j.joined
          ((first :: others).filter (Conditional.holds r.negatives p)))) := by
    rw [← hbelow]
    exact Line.render_eq_ok_iff.2 (.inr ⟨⟨head, []⟩, rfl, .inr ⟨List.cons_ne_nil _ _, _,
      renderAll_rowLines hrows indent 2 ⟨r, resource, p⟩, rfl⟩⟩)
  refine Renderer.render_eq_ok_iff.2
    ⟨_, Line.renderAll_cons_eq_ok_iff.2 ⟨_, [], hline, rfl, rfl⟩, ?_⟩
  refine (Block.assemble_attach_joined hhead.nonblank ?_ _).symm
  intro c hc
  rcases List.mem_cons.1 (List.mem_filter.1 hc).1 with rfl | hmem
  · exact hfirst.nonempty
  · exact (hothers c hmem).nonempty

/-- The conditions behind a first one that asks for a parameter `x`. -/
def conditionsBehind : List Conditional :=
  [⟨.crlf, "b LIKE ?".toList, true, "y".toList⟩, ⟨.lf, "c IS NULL".toList, false, "z".toList⟩]

theorem render_survivors_lastTwoOfThree :
    (IsHead "SELECT * FROM t WHERE".toList ∧ 0 < 2 ∧
      Conditional.Proper ⟨.lf, "a = ?".toList, false, "x".toList⟩ ∧
      ∀ c ∈ conditionsBehind, c.Proper) ∧
    ∃ t, Template.parse .standard none
        ("SELECT * FROM t WHERE\n  a = ? -- &x\r\n  AND b LIKE ? -- &!y\n" ++
          "  AND c IS NULL -- &z").toList = .ok t ∧
      Renderer.standard.render t (.turnOn .empty ["z".toList]) =
        .ok ⟨"SELECT * FROM t WHERE b LIKE ? AND c IS NULL".toList, []⟩ := by
  have hhead : IsHead "SELECT * FROM t WHERE".toList := by decide +kernel
  have hfirst : Conditional.Proper ⟨.lf, "a = ?".toList, false, "x".toList⟩ := by decide +kernel
  have hothers : ∀ c ∈ conditionsBehind, c.Proper := by decide +kernel
  have htext : conditionsText "SELECT * FROM t WHERE".toList 2 .and
      ⟨.lf, "a = ?".toList, false, "x".toList⟩ conditionsBehind none =
        ("SELECT * FROM t WHERE\n  a = ? -- &x\r\n  AND b LIKE ? -- &!y\n" ++
          "  AND c IS NULL -- &z").toList := by decide +kernel
  have hstatement : survivorsText "SELECT * FROM t WHERE".toList .and
      ((⟨.lf, "a = ?".toList, false, "x".toList⟩ :: conditionsBehind).filter
        (Conditional.holds Renderer.standard.negatives (.turnOn .empty ["z".toList]))) =
        "SELECT * FROM t WHERE b LIKE ? AND c IS NULL".toList := by decide +kernel
  have hrender := render_survivors .standard (.turnOn .empty ["z".toList]) .standard none .and none
    hhead (by decide : 0 < 2) hfirst hothers
  rw [htext, hstatement] at hrender
  exact ⟨⟨hhead, by decide, hfirst, hothers⟩, hrender⟩

end SqlTemplate
