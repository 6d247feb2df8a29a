import SqlTemplate.Proofs.Rendering.Grouping
import SqlTemplate.Proofs.Rendering.Sequencing
import SqlTemplate.Proofs.Template.PlainReferences

/-!
# Conditions and plain references

On a value that is no sequence a condition renders what a plain reference does: the comparison that it
has taken, with a mark behind it. So a template of one line renders the same, blanks aside, with
plain references in place of its lone conditions (`render_plainText`). The conditions that are left must
take the same comparisons in both: a comparison that stays in the text may change what the next
condition finds in front of it (`differing_captures`).
-/

namespace SqlTemplate

namespace Fragment

/-- A fragment without the blanks of its text. -/
def unspaced (f : Fragment) : Fragment := ⟨SqlTemplate.unspaced f.sql, f.values⟩

theorem unspaced_append (f g : Fragment) : (f ++ g).unspaced = f.unspaced ++ g.unspaced :=
  congrArg (Fragment.mk · _) (SqlTemplate.unspaced_append f.sql g.sql)

/-- The result of a line, or of a part of one, without the blanks of its text. -/
def unspacedResult (result : Except RenderError (Option Fragment)) :
    Except RenderError (Option Fragment) :=
  result.map (Option.map unspaced)

theorem unspacedResult_andThen (x y : Except RenderError (Option Fragment)) :
    unspacedResult (andThen x y) = andThen (unspacedResult x) (unspacedResult y) := by
  rcases x with e | _ | f
  · rfl
  · rfl
  · rcases y with e | _ | g
    · rfl
    · rfl
    · exact congrArg (fun f => Except.ok (some f)) (unspaced_append f g)

end Fragment

open Fragment

variable {s : Scope}

namespace Marks

theorem condition_one_of_isMembership_eq_false {c : Comparison} (h : c.isMembership = false)
    (sample : Option Text) (limit : Int) :
    condition c 1 false sample limit = .ok (single c) := by
  rw [condition, if_pos ⟨rfl, rfl⟩]
  exact if_neg (of_decide_eq_false h)

/-- One mark stands for a sample that is not in parentheses. -/
theorem bind_one_of_head? {t : Text} (h : t.head? ≠ some '(') :
    bind 1 (some t) = [mark] := by
  have hrows : rows? (some t) 1 = none := by
    refine if_pos ?_
    by_cases hwidth : t.count mark < 2
    · exact .inl hwidth
    · rw [Option.getD_some, Nat.mod_eq_of_lt (by omega)]
      exact .inr (.inr Nat.one_ne_zero)
  rw [bind, hrows]
  exact if_neg h

end Marks

namespace Directive

variable {x x' : Directive}

theorem evaluate_of_reference [Runtime] {kind : Reference} {key : Text} {negated : Bool}
    (h : x.expression = [.reference kind key negated]) :
    x.evaluate s = kind.evaluate s x key negated := by
  rw [evaluate, h, Term.evaluateAll, Term.evaluateAll, Term.evaluate]
  cases kind.evaluate s x key negated <;> rfl

theorem output_congr (hc : x'.comparison = x.comparison) (hs : x'.sample = x.sample)
    (c : Contribution) : x'.output c = x.output c := by
  unfold output
  rw [hc, hs]

theorem Same.render [Runtime] (h : x.Same x') (n n' : Nat) :
    (Splice.directive n' x').render s = (Splice.directive n x).render s := by
  have hevaluate : x'.evaluate s = x.evaluate s := by
    rw [evaluate, evaluate, h.expression, Term.evaluateAll_congr h.comparison h.sample]
  rw [Splice.render, Splice.render, hevaluate]
  simp only [output_congr h.comparison h.sample]

/-- A condition that keeps its sample brings back its comparison, which has stayed in front of the plain
reference. -/
theorem PlainIn.unspaced_output_keep (h : x.PlainIn x') {w : Text}
    (hw : unspaced w = unspaced (Draft.comparisonText x.comparison)) :
    (x.output .keep).unspaced = ⟨unspaced w, []⟩ ++ (x'.output .keep).unspaced := by
  unfold output
  rw [h.comparison, h.sample, hw]
  cases x.comparison with
  | none => rfl
  | some c =>
    refine congrArg (Fragment.mk · []) ?_
    show unspaced (c.subject ++ ' ' :: c.operator ++ ' ' :: x.sample.getD []) =
      unspaced (c.subject ++ c.operator) ++ unspaced (x.sample.getD [])
    simp only [unspaced_append, unspaced_space_cons]

/-- A condition with a value writes its comparison and a mark, and a plain reference only the mark. -/
theorem PlainIn.unspaced_output_single (h : x.PlainIn x') {c : Comparison}
    (hc : x.comparison = some c) (v : Value) {w : Text}
    (hw : unspaced w = unspaced (Draft.comparisonText x.comparison)) :
    (x.output { Contribution.ofValues [v] with replacement := some (Marks.single c) }).unspaced =
      ⟨unspaced w, []⟩ ++ (x'.output (.ofValues [v])).unspaced := by
  obtain ⟨_, _, -, hhead, -⟩ := isLoneCondition_iff.1 h.lone
  obtain ⟨t, ht⟩ := Option.isSome_iff_exists.1 (h.sampled c hc)
  rw [ht, Option.getD_some] at hhead
  have houtput : x'.output (.ofValues [v]) = ⟨[Marks.mark], [v]⟩ := by
    unfold output
    rw [h.sample, ht]
    exact congrArg (Fragment.mk · [v]) (Marks.bind_one_of_head? hhead)
  rw [houtput, hw, hc]
  refine congrArg (Fragment.mk · [v]) ?_
  show unspaced (c.subject ++ ' ' :: c.operator ++ [' ', Marks.mark]) =
    unspaced (c.subject ++ c.operator) ++ unspaced [Marks.mark]
  simp only [unspaced_append, unspaced_space_cons]

/-- A lone condition renders its comparison and what the plain reference in its place renders, if its
value is negative or no sequence. -/
theorem PlainIn.render [Runtime] (h : x.PlainIn x') {w : Text}
    (hw : unspaced w = unspaced (Draft.comparisonText x.comparison))
    (hvalues : ∀ key ∈ x.expression.keys,
      s.renderer.negatives.isNegative (s.parameters.get key) = true ∨
        (s.parameters.get key).resolve.isSequence = false) (n n' : Nat) :
    unspacedResult ((Splice.directive n x).render s) =
      andThen (.ok (some ⟨unspaced w, []⟩)) (unspacedResult ((Splice.directive n' x').render s)) := by
  obtain ⟨key, negated, hx, -, hmembership⟩ := isLoneCondition_iff.1 h.lone
  have hx' : x'.expression = [.reference .param key negated] := by
    rw [h.expression, hx]
    rfl
  have hvalue := hvalues key (by rw [hx]; exact List.mem_cons_self)
  rw [Splice.render, Splice.render, evaluate_of_reference hx, evaluate_of_reference hx']
  cases hnegative : s.renderer.negatives.isNegative (s.parameters.get key) with
  | true =>
    rw [Reference.evaluate_of_absent negated hnegative, Reference.evaluate_of_absent negated hnegative]
    cases negated with
    | true => exact congrArg (fun f => Except.ok (some f)) (h.unspaced_output_keep hw)
    | false => rfl
  | false =>
    cases negated with
    | true =>
      rw [Reference.evaluate_negated_of_present hnegative,
        Reference.evaluate_negated_of_present hnegative]
      rfl
    | false =>
      have hsequence := hvalue.resolve_left (by rw [hnegative]; exact Bool.false_ne_true)
      have hitems : (s.parameters.get key).resolve.items? = none :=
        Option.isNone_iff_eq_none.1 (Option.isSome_eq_false_iff.1 hsequence)
      have hflatten := Value.flatten_of_items?_eq_none hitems
      rw [Reference.evaluate_of_present Reference.noConfusion hnegative (.inl rfl), hflatten]
      cases hc : x.comparison with
      | none =>
        have houtput := output_congr (h.comparison.trans hc.symm) h.sample
        rw [Reference.evaluate_of_present Reference.noConfusion hnegative (.inr hc), hflatten, ok_bind,
          ok_bind, houtput, hw, hc]
        rfl
      | some c =>
        have ht := Marks.condition_one_of_isMembership_eq_false (hmembership c hc) x.sample
          s.renderer.limit
        rw [Reference.evaluate_condition_of_present hnegative hc (by rwa [hflatten, hsequence]), hflatten]
        exact congrArg (fun f => Except.ok (some f)) (h.unspaced_output_single hc _ hw)

end Directive

/-- The keys of the conditions that are plain references in the second one of two lists of
directives. -/
def plainKeys (xs xs' : List Directive) : List Text :=
  (xs.zip xs').flatMap fun (x, x') =>
    if x.expression.isCondition && !x'.expression.isCondition then x.expression.keys else []

theorem plainKeys_append {xs xs' : List Directive} (h : xs.length = xs'.length)
    (ys ys' : List Directive) :
    plainKeys (xs ++ ys) (xs' ++ ys') = plainKeys xs xs' ++ plainKeys ys ys' := by
  rw [plainKeys, List.zip_append h, List.flatMap_append]
  rfl

theorem mem_plainKeys_of_initial {xs ys xs' ys' : List Directive} (h : xs <+: ys) (h' : xs' <+: ys')
    {key : Text} (hkey : key ∈ plainKeys xs xs') : key ∈ plainKeys ys ys' := by
  obtain ⟨p, hp, hkey⟩ := List.mem_flatMap.1 hkey
  exact List.mem_flatMap.2 ⟨p, mem_zip_of_initial h h' hp, hkey⟩

theorem Directive.PlainIn.mem_plainKeys {x x' : Directive} (h : x.PlainIn x') {key : Text}
    (hkey : key ∈ x.expression.keys) : key ∈ plainKeys [x] [x'] := by
  obtain ⟨k, negated, hx, -⟩ := Directive.isLoneCondition_iff.1 h.lone
  have hx' : x'.expression.isCondition = false := by
    rw [h.expression, hx]
    rfl
  have hcondition : x.expression.isCondition = true := by rw [hx]; rfl
  simpa [plainKeys, hx', hcondition] using hkey

namespace Splice

variable {t t' : Text} {ss ss' : List Splice}

theorem Alike.fit (h : Alike t ss t' ss') : Fit t ss ∧ Fit t' ss' := by
  induction h with
  | nil => exact ⟨fit_nil [], fit_nil []⟩
  | text _ p ih => exact ⟨ih.1.append_text p, ih.2.append_text p⟩
  | same _ _ ih => exact ⟨ih.1.append_directive _, ih.2.append_directive _⟩
  | plain _ _ _ ih => exact ⟨ih.1.append_directive _, (ih.2.append_text _).append_directive _⟩

theorem directives_append_directive (ss : List Splice) (n : Nat) (x : Directive) :
    directives (ss ++ [.directive n x]) = directives ss ++ [x] :=
  List.filterMap_append ..

/-- Lines that are alike render the same, blanks aside, if the conditions that are plain references in
the second one have values that are negative or no sequences. -/
theorem Alike.renderSplices [Runtime] (h : Alike t ss t' ss')
    (hvalues : ∀ key ∈ plainKeys (directives ss) (directives ss'),
      s.renderer.negatives.isNegative (s.parameters.get key) = true ∨
        (s.parameters.get key).resolve.isSequence = false) :
    unspacedResult (Line.renderSplices s 0 t ss) = unspacedResult (Line.renderSplices s 0 t' ss') := by
  induction h with
  | nil => rfl
  | text h p ih =>
    obtain ⟨hfit, hfit'⟩ := h.fit
    rw [hfit.renderSplices_text, hfit'.renderSplices_text, unspacedResult_andThen,
      unspacedResult_andThen, ih hvalues]
  | same h hx ih =>
    obtain ⟨hfit, hfit'⟩ := h.fit
    have hlength := h.length_directives
    rw [directives_append_directive, directives_append_directive, plainKeys_append hlength] at hvalues
    rw [hfit.renderSplices_directive, hfit'.renderSplices_directive, unspacedResult_andThen,
      unspacedResult_andThen, ih fun key hkey => hvalues key (List.mem_append_left _ hkey),
      hx.render]
  | plain h hx hw ih =>
    obtain ⟨hfit, hfit'⟩ := h.fit
    have hlength := h.length_directives
    rw [directives_append_directive, directives_append_directive, plainKeys_append hlength] at hvalues
    have hkeys := fun key hkey => hvalues key (List.mem_append_right _ (hx.mem_plainKeys hkey))
    rw [hfit.renderSplices_directive, (hfit'.append_text _).renderSplices_directive,
      hfit'.renderSplices_text, andThen_assoc, unspacedResult_andThen, unspacedResult_andThen,
      unspacedResult_andThen, ih fun key hkey => hvalues key (List.mem_append_left _ hkey),
      hx.render hw hkeys]
    rfl

end Splice

namespace Block

/-- The result of a block of one line is that of the line. -/
theorem getD_assemble_singleton (l : Line) (result : Option Fragment) :
    (assemble [l] [result]).getD .empty = result.getD .empty := by
  obtain _ | ⟨_ | ⟨c, sql⟩, values⟩ := result
  · rfl
  · cases values <;> simp [assemble, textOf, valuesOf, Fragment.empty]
  · simp [assemble, textOf, valuesOf, cleanStart, cleanEnd, join]

end Block

namespace Line

variable {l l' : Line}

theorem unspacedResult_render [Runtime] (hl : l.block? = none) :
    unspacedResult (l.render s) = unspacedResult (renderSplices s 0 l.sql l.splices) := by
  obtain ⟨sql, first, last, splices, block⟩ := l
  obtain rfl : block = none := hl
  rw [render]
  show _ = unspacedResult (renderSplices s 0 sql splices)
  rcases renderSplices s 0 sql splices with e | _ | f
  · rfl
  · rfl
  · exact congrArg (fun t => Except.ok (some (Fragment.mk t _))) (unspaced_strip f.sql)

end Line

namespace Template

variable {t t' : Template}

/-- The keys of the conditions of a template that are plain references in another one. -/
def plainKeys (t t' : Template) : List Text :=
  SqlTemplate.plainKeys t.deepDirectives t'.deepDirectives

/-- What a template of one line renders is what is left of its line. -/
theorem map_unspaced_render [Runtime] {l : Line} (h : t.lines = [l]) (hl : l.block? = none)
    (r : Renderer)
    (p : Parameters) :
    (r.render t p).map Fragment.unspaced =
      (unspacedResult (Line.renderSplices ⟨r, t.resource, p⟩ 0 l.sql l.splices)).map
        (Option.getD · .empty) := by
  rw [← Line.unspacedResult_render hl, Renderer.render, h, Line.renderAll, Line.renderAll]
  rcases Line.render ⟨r, t.resource, p⟩ l with e | result
  · rfl
  · refine congrArg Except.ok ?_
    rw [Block.getD_assemble_singleton]
    cases result <;> rfl

/-- Templates of one line that are alike render the same, blanks aside, if the conditions that are plain
references in the second one have values that are negative or no sequences. -/
theorem Alike.map_unspaced_render [Runtime] (h : t.Alike t') (r : Renderer) (p : Parameters)
    (hvalues : ∀ key ∈ t.plainKeys t',
      r.negatives.isNegative (p.get key) = true ∨ (p.get key).resolve.isSequence = false) :
    (r.render t p).map Fragment.unspaced = (r.render t' p).map Fragment.unspaced := by
  rcases h.lines with ⟨hlines, hlines'⟩ | ⟨l, l', hlines, hlines', hl, hl', halike⟩
  · rw [Renderer.render, Renderer.render, hlines, hlines']
    rfl
  · rw [Template.map_unspaced_render hlines hl, Template.map_unspaced_render hlines' hl', h.resource]
    refine congrArg _ (halike.renderSplices fun key hkey => hvalues key ?_)
    rw [plainKeys, deepDirectives, deepDirectives, hlines, hlines']
    exact mem_plainKeys_of_initial (Line.directives_initial l []) (Line.directives_initial l' []) hkey

end Template

/-- A template of one line renders the same with plain references in place of its lone conditions, blanks
aside, if their values are negative or no sequences: the same values and the same statement, or the same
error. It is a template whenever the one with the conditions is. What is asked for is that the
conditions that are left take the same comparisons in both. -/
theorem render_plainText [Runtime] {registry : Registry} {resource : Option Text} {text : Text}
    {t : Template}
    (hline : ∀ e, .lineEnd e ∉ lexemes text) (ht : Template.parse registry resource text = .ok t) :
    ∃ t', Template.parse registry resource (plainText registry text) = .ok t' ∧
      (t.SameCaptures t' → ∀ (r : Renderer) (p : Parameters),
        (∀ key ∈ t.plainKeys t',
          r.negatives.isNegative (p.get key) = true ∨ (p.get key).resolve.isSequence = false) →
        (r.render t p).map Fragment.unspaced = (r.render t' p).map Fragment.unspaced) := by
  obtain ⟨t', ht', halike⟩ := alike_of_parse hline ht
  exact ⟨t', ht', fun hsame r p hvalues => (halike hsame).map_unspaced_render r p hvalues⟩

/-- A directive of one reference on the first line. -/
def Directive.ofReference (kind : Reference) (source key sample : String) (negated : Bool)
    (comparison : Option Comparison) : Directive :=
  ⟨source.toList, [.reference kind key.toList negated], some sample.toList, comparison, some 1⟩

/-- Two lone conditions and a test of membership. -/
def Template.threeConditions : Template where
  lines := [.mk "SELECT * FROM t WHERE  OR  AND ".toList 1 1
    [.directive 22 (.ofReference .condition "?x" "x" "1" false (some ⟨"a".toList, "=".toList⟩)),
      .directive 26 (.ofReference .condition "?!y" "y" "'p'" true (some ⟨"b".toList, "LIKE".toList⟩)),
      .directive 31 (.ofReference .condition "?z" "z" "(2)" false (some ⟨"c".toList, "IN".toList⟩))] none]
  resource := none

def Template.oneCondition : Template where
  lines := [.mk "SELECT * FROM t WHERE a =  OR b LIKE AND ".toList 1 1
    [.directive 26 (.ofReference .param "$x" "x" "1" false none),
      .directive 36 (.ofReference .param "$!y" "y" "'p'" true none),
      .directive 41 (.ofReference .condition "?z" "z" "(2)" false (some ⟨"c".toList, "IN".toList⟩))] none]
  resource := none

theorem render_plainText_oneCondition :
    let text : Text :=
      "SELECT * FROM t WHERE a = /* ?x */1 OR b LIKE/* ?!y */'p' AND c IN /* ?z */(2)".toList
    let p : Parameters := ⟨[("x".toList, .int 1), ("z".toList, .sequence .list [.int 3, .int 4])]⟩
    (∀ e, .lineEnd e ∉ lexemes text) ∧
      Template.parse .standard none text = .ok .threeConditions ∧
      Template.parse .standard none (plainText .standard text) = .ok .oneCondition ∧
      Template.threeConditions.SameCaptures .oneCondition ∧
      (∀ key ∈ Template.threeConditions.plainKeys .oneCondition,
        Negatives.none.isNegative (p.get key) = true ∨ (p.get key).resolve.isSequence = false) ∧
      (Renderer.standard.render .threeConditions p).map Fragment.unspaced =
        (Renderer.standard.render .oneCondition p).map Fragment.unspaced := by
  intro text p
  have hline : ∀ e, .lineEnd e ∉ lexemes text := by
    intro e
    cases e <;> with_unfolding_all decide
  have ht : Template.parse .standard none text = .ok .threeConditions := by with_unfolding_all rfl
  have ht' : Template.parse .standard none (plainText .standard text) = .ok .oneCondition := by
    with_unfolding_all rfl
  have hsame : Template.threeConditions.SameCaptures .oneCondition := by
    unfold Template.SameCaptures SameCaptures
    decide
  have hvalues : ∀ key ∈ Template.threeConditions.plainKeys .oneCondition,
      Negatives.none.isNegative (p.get key) = true ∨ (p.get key).resolve.isSequence = false := by
    decide
  obtain ⟨t', hparsed, hrendered⟩ := render_plainText hline ht
  obtain rfl := Except.ok.inj (ht'.symm.trans hparsed)
  exact ⟨hline, ht, ht', hsame, hvalues, hrendered hsame .standard p hvalues⟩

/-- A lone condition, and behind it a test that has no subject. -/
def Template.testWithoutSubject : Template where
  lines := [.mk "SELECT * FROM t WHERE  NOT LIKE ".toList 1 1
    [.directive 22 (.ofReference .condition "?x" "x" "1" false (some ⟨"a".toList, "=".toList⟩)),
      .directive 32 (.ofReference .condition "?z" "z" "(2)" false none)] none]
  resource := none

def Template.testOfNot : Template where
  lines := [.mk "SELECT * FROM t WHERE a =  ".toList 1 1
    [.directive 26 (.ofReference .param "$x" "x" "1" false none),
      .directive 27 (.ofReference .condition "?z" "z" "(2)" false
        (some ⟨"NOT".toList, "LIKE".toList⟩))] none]
  resource := none

theorem Template.parse_testWithoutSubject :
    Template.parse .standard none
      "SELECT * FROM t WHERE a = /* ?x */1 NOT LIKE /* ?z */(2)".toList = .ok .testWithoutSubject := by
  with_unfolding_all rfl

theorem Template.parse_testOfNot :
    Template.parse .standard none
      "SELECT * FROM t WHERE a = /* $x */1 NOT LIKE /* ?z */(2)".toList = .ok .testOfNot := by
  with_unfolding_all rfl

theorem plainText_testWithoutSubject :
    plainText .standard "SELECT * FROM t WHERE a = /* ?x */1 NOT LIKE /* ?z */(2)".toList =
      "SELECT * FROM t WHERE a = /* $x */1 NOT LIKE /* ?z */(2)".toList := by
  decide +kernel

/-- A number for the lone condition, and a list behind it. -/
def Parameters.numberAndList : Parameters :=
  ⟨[("x".toList, .int 1), ("z".toList, .sequence .list [.int 3, .int 4])]⟩

theorem Template.render_testWithoutSubject :
    Renderer.standard.render .testWithoutSubject .numberAndList =
      .ok ⟨"SELECT * FROM t WHERE a = ? NOT LIKE (?, ?)".toList, [.int 1, .int 3, .int 4]⟩ := rfl

theorem Template.render_testOfNot :
    Renderer.standard.render .testOfNot .numberAndList =
      .ok ⟨"SELECT * FROM t WHERE a = ? (NOT LIKE ? OR NOT LIKE ?)".toList,
        [.int 1, .int 3, .int 4]⟩ := rfl

/-- The comparison that stays in the text can change what the next condition takes: once `a =` stands in
front of the plain reference, the word `NOT` of the test behind it is taken for the subject of a
comparison, and a list is compared value by value. -/
theorem differing_captures :
    let text : Text := "SELECT * FROM t WHERE a = /* ?x */1 NOT LIKE /* ?z */(2)".toList
    (∀ e, .lineEnd e ∉ lexemes text) ∧
      ∃ t t' p, Template.parse .standard none text = .ok t ∧
        Template.parse .standard none (plainText .standard text) = .ok t' ∧
        (∀ key ∈ t.plainKeys t',
          Negatives.none.isNegative (p.get key) = true ∨ (p.get key).resolve.isSequence = false) ∧
        Renderer.standard.render t p =
          .ok ⟨"SELECT * FROM t WHERE a = ? NOT LIKE (?, ?)".toList, [.int 1, .int 3, .int 4]⟩ ∧
        Renderer.standard.render t' p =
          .ok ⟨"SELECT * FROM t WHERE a = ? (NOT LIKE ? OR NOT LIKE ?)".toList,
            [.int 1, .int 3, .int 4]⟩ ∧
        (Renderer.standard.render t p).map Fragment.unspaced ≠
          (Renderer.standard.render t' p).map Fragment.unspaced := by
  intro text
  have hline : ∀ e, .lineEnd e ∉ lexemes text := by
    intro e
    cases e <;> with_unfolding_all decide
  have ht' : Template.parse .standard none (plainText .standard text) = .ok .testOfNot := by
    rw [plainText_testWithoutSubject, Template.parse_testOfNot]
  have hvalues : ∀ key ∈ Template.testWithoutSubject.plainKeys .testOfNot,
      Negatives.none.isNegative (Parameters.numberAndList.get key) = true ∨
        (Parameters.numberAndList.get key).resolve.isSequence = false := by decide
  refine ⟨hline, _, _, _, Template.parse_testWithoutSubject, ht', hvalues,
    Template.render_testWithoutSubject, Template.render_testOfNot, ?_⟩
  rw [Template.render_testWithoutSubject, Template.render_testOfNot]
  intro heq
  have hsql := congrArg Fragment.sql (Except.ok.inj heq)
  have hlengths := congrArg List.length hsql
  revert hlengths
  decide

end SqlTemplate
