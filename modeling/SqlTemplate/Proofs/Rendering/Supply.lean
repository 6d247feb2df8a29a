import SqlTemplate.Proofs.Line.Slicing
import SqlTemplate.Proofs.Rendering.Affirmative
import SqlTemplate.Proofs.Rendering.Completion
import SqlTemplate.Proofs.Rendering.Growth

/-!
# Supplying parameters

Supplying more parameters never drops a line. A line is dropped for one of three reasons: a
directive drops it, a span of it renders nothing, or nothing is left of it and of the lines below it.
The last two depend on what other lines are rendered to, and on the connectives that are removed
around them. `Line.Steady` is what two runs have in common: where the first one keeps a line, its
directives contribute the same to both, and a line with a span has a parenthesis of its own. Then the
result of every line grows from the first run to the second (`Line.grows_render`).

`Line.RendersAt` says of a line, by its place in the template, that it is rendered: it has a result,
and so have all the lines that it belongs to.
-/

namespace SqlTemplate

open Block

variable {s s' : Scope}

/-- A line that two runs treat alike, as long as the first one does not drop it. -/
structure Line.Steady [Runtime] (s s' : Scope) (l : Line) : Prop where
  guarded : l.groups ≠ [] → '(' ∈ l.sql
  directives : ∀ d ∈ l.directives, ∀ c, d.evaluate s = .ok c → c.dropsLine = false →
    d.evaluate s' = .ok c

/-- No character of the text of a line is lost where its splices are rendered. -/
theorem Line.mem_of_renderSplices [Runtime] {a : Char} {start : Nat} {rest : Text}
    {splices : List Splice}
    {f : Fragment} (h : Line.renderSplices s start rest splices = .ok (some f)) (ha : a ∈ rest) :
    a ∈ f.sql := by
  induction splices generalizing start rest f with
  | nil =>
    obtain rfl := Option.some.inj (Line.renderSplices_nil_eq_ok_iff.1 h)
    exact ha
  | cons x splices ih =>
    obtain ⟨output, after, -, hafter, hf⟩ := Splice.exists_output_of_renderSplices_cons h
    rw [← List.take_append_drop (x.offset - start) rest] at ha
    rw [hf]
    rcases List.mem_append.1 ha with ha | ha
    · exact List.mem_append_left _ ha
    · exact List.mem_append_right _ (List.mem_append_right _ (ih hafter ha))

theorem Block.values_getD (result : Option Fragment) :
    (result.getD .empty).values = valuesOf result := by
  cases result <;> rfl

mutual

/-- The result of a line that two runs treat alike grows. -/
theorem Line.grows_render [Runtime] (l : Line) (h : ∀ k ∈ l.deep, k.Steady s s')
    {x y : Option Fragment}
    (hx : Line.render s l = .ok x) (hy : Line.render s' l = .ok y) : Grows x y := by
  cases l with
  | mk sql first last splices block =>
    rw [Line.deep_eq_cons, List.forall_mem_cons, List.forall_mem_append] at h
    obtain ⟨hself, hsplices, hchildren⟩ := h
    rcases Line.render_eq_ok_iff.1 hx with ⟨-, rfl⟩ | ⟨f, hf, hx⟩
    · exact .of_none y
    · have hown {y : Option Fragment} := Line.grows_renderSplices 0 sql splices hself.directives
        hsplices hf (y := y)
      rcases Line.render_eq_ok_iff.1 hy with ⟨hnone, -⟩ | ⟨g, hg, hy⟩
      · obtain ⟨g, hg, -⟩ := hown hnone
        cases hg
      · obtain ⟨g, hsome, hvalues, hsql⟩ := hown hg
        obtain rfl := Option.some.inj hsome
        have hgrows : Fragment.Grows ⟨strip f.sql, f.values⟩ ⟨strip g.sql, g.values⟩ := by
          refine ⟨hvalues, ?_⟩
          by_cases hgroups : splices.filterMap Splice.lines? = []
          · exact .inl (congrArg (fun f : Fragment => strip f.sql) (hsql hgroups))
          · exact .inr (mem_strip (by decide) (Line.mem_of_renderSplices hg (hself.guarded hgroups)))
        rcases hx with ⟨hnil, rfl⟩ | ⟨hne, results, hresults, rfl⟩
        · rcases hy with ⟨-, rfl⟩ | ⟨hne, -⟩
          · exact .of_own hgrows (strip_strip _)
          · exact absurd hnil hne
        · rcases hy with ⟨hnil, -⟩ | ⟨-, results', hresults', rfl⟩
          · exact absurd hnil hne
          · cases block with
            | none => exact absurd rfl hne
            | some children =>
              have hbelow := Line.grows_renderAll children hchildren hresults hresults'
              exact (Grows.assemble hbelow children).attach hgrows (strip_strip _)

/-- Where splices go through in the first run, they go through in the second one, and with the same
result unless there is a span among them. -/
theorem Line.grows_renderSplices [Runtime] (start : Nat) (rest : Text) (splices : List Splice)
    (hdirectives : ∀ d ∈ splices.filterMap Splice.directive?, ∀ c, d.evaluate s = .ok c →
      c.dropsLine = false → d.evaluate s' = .ok c)
    (hdeep : ∀ k ∈ Splice.deepAll splices, k.Steady s s') {f : Fragment} {y : Option Fragment}
    (hf : Line.renderSplices s start rest splices = .ok (some f))
    (hy : Line.renderSplices s' start rest splices = .ok y) :
    ∃ g, y = some g ∧ (g.values = [] → f.values = []) ∧
      (splices.filterMap Splice.lines? = [] → g = f) := by
  cases splices with
  | nil =>
    obtain rfl := Option.some.inj (Line.renderSplices_nil_eq_ok_iff.1 hf)
    exact ⟨_, Line.renderSplices_nil_eq_ok_iff.1 hy, id, fun _ => rfl⟩
  | cons x splices =>
    cases x with
    | directive offset d =>
      obtain ⟨hd, hdirectives⟩ := List.forall_mem_cons.1 hdirectives
      obtain ⟨c, hc, ⟨-, hnone⟩ | ⟨hkeeps, after, hafter, hf⟩⟩ :=
        Line.renderSplices_directive_eq_ok_iff.1 hf
      · cases hnone
      obtain ⟨f, rfl, rfl⟩ := Option.map_eq_some_iff.1 hf.symm
      obtain ⟨c', hc', hy⟩ := Line.renderSplices_directive_eq_ok_iff.1 hy
      obtain rfl : c = c' := Except.ok.inj ((hd c hc hkeeps).symm.trans hc')
      obtain ⟨hdrops, -⟩ | ⟨-, after', hafter', rfl⟩ := hy
      · rw [hkeeps] at hdrops
        cases hdrops
      obtain ⟨g, rfl, hvalues, hsame⟩ :=
        Line.grows_renderSplices offset _ splices hdirectives hdeep hafter hafter'
      refine ⟨_, rfl, fun hnil => ?_, fun hgroups => by rw [hsame hgroups]⟩
      rw [Fragment.values_append, List.append_eq_nil_iff] at hnil ⊢
      exact ⟨hnil.1, hvalues hnil.2⟩
    | group offset lines =>
      obtain ⟨hlines, hdeep⟩ := List.forall_mem_append.1 hdeep
      obtain ⟨results, hresults, ⟨-, -, hnone⟩ | ⟨hcontent, after, hafter, hf⟩⟩ :=
        Line.renderSplices_group_eq_ok_iff.1 hf
      · cases hnone
      obtain ⟨f, rfl, rfl⟩ := Option.map_eq_some_iff.1 hf.symm
      obtain ⟨results', hresults', hy⟩ := Line.renderSplices_group_eq_ok_iff.1 hy
      have hgrows := Grows.assemble (Line.grows_renderAll lines hlines hresults hresults') lines
      obtain ⟨hnone, hne, -⟩ | ⟨-, after', hafter', rfl⟩ := hy
      · have hsome := hgrows.rendered (Option.isSome_iff_ne_none.2 (hcontent.resolve_right hne))
        rw [hnone] at hsome
        cases hsome
      obtain ⟨g, rfl, hvalues, -⟩ :=
        Line.grows_renderSplices offset _ splices hdirectives hdeep hafter hafter'
      refine ⟨_, rfl, fun hnil => ?_, fun hgroups => by cases hgroups⟩
      simp only [Fragment.values_append, Block.values_getD, List.nil_append,
        List.append_eq_nil_iff] at hnil ⊢
      exact ⟨hgrows.values hnil.1, hvalues hnil.2⟩

theorem Line.grows_renderAll [Runtime] (ls : List Line) (h : ∀ k ∈ Line.deepAll ls, k.Steady s s')
    {xs ys : List (Option Fragment)} (hx : Line.renderAll s ls = .ok xs)
    (hy : Line.renderAll s' ls = .ok ys) : List.Forall₂ Grows xs ys := by
  cases ls with
  | nil =>
    obtain rfl := Line.renderAll_nil_eq_ok_iff.1 hx
    obtain rfl := Line.renderAll_nil_eq_ok_iff.1 hy
    exact .nil
  | cons l ls =>
    obtain ⟨hl, hls⟩ := List.forall_mem_append.1 h
    obtain ⟨x, xs, hfirst, hrest, rfl⟩ := Line.renderAll_cons_eq_ok_iff.1 hx
    obtain ⟨y, ys, hfirst', hrest', rfl⟩ := Line.renderAll_cons_eq_ok_iff.1 hy
    exact .cons (Line.grows_render l hl hfirst hfirst') (Line.grows_renderAll ls hls hrest hrest')

end

/-! ### Lines at their places -/

/-- Where a line stands: the number of a line in a block, followed by the place below that line or in
one of its spans, which is found by the number of its splice. -/
inductive Line.Place where
  | line (i : Nat)
  | child (i : Nat) (place : Place)
  | span (i j : Nat) (place : Place)
deriving DecidableEq, Repr

/-- The line at a place is rendered to a fragment, and so are the lines that it belongs to. -/
inductive Line.RendersAt [Runtime] (s : Scope) : List Line → Line.Place → Fragment → Prop
  | line {ls : List Line} {i : Nat} {l : Line} {f : Fragment} (hl : ls[i]? = some l)
      (h : Line.render s l = .ok (some f)) : RendersAt s ls (.line i) f
  | child {ls : List Line} {i : Nat} {l : Line} {f g : Fragment} {place : Place}
      (hl : ls[i]? = some l) (h : Line.render s l = .ok (some g))
      (hchild : RendersAt s l.children place f) : RendersAt s ls (.child i place) f
  | span {ls lines : List Line} {i j offset : Nat} {l : Line} {f g : Fragment} {place : Place}
      (hl : ls[i]? = some l) (h : Line.render s l = .ok (some g))
      (hspan : l.splices[j]? = some (.group offset lines))
      (hinner : RendersAt s lines place f) : RendersAt s ls (.span i j place) f

namespace Line

variable {l : Line} {ls : List Line} {f : Fragment}

theorem exists_render_of_mem [Runtime] {results : List (Option Fragment)}
    (h : Line.renderAll s ls = .ok results) (hl : l ∈ ls) : ∃ x, Line.render s l = .ok x := by
  induction ls generalizing results with
  | nil => cases hl
  | cons k ls ih =>
    obtain ⟨x, rest, hx, hrest, -⟩ := Line.renderAll_cons_eq_ok_iff.1 h
    rcases List.mem_cons.1 hl with rfl | hl
    · exact ⟨x, hx⟩
    · exact ih hrest hl

theorem exists_renderAll_children [Runtime] (h : Line.render s l = .ok (some f)) :
    ∃ results, Line.renderAll s l.children = .ok results := by
  rcases Line.render_eq_ok_iff.1 h with ⟨-, hnone⟩ | ⟨-, -, ⟨hnil, -⟩ | ⟨-, results, hresults, -⟩⟩
  · cases hnone
  · rw [hnil]
    exact ⟨[], Line.renderAll_nil_eq_ok_iff.2 rfl⟩
  · exact ⟨results, hresults⟩

theorem exists_renderAll_of_mem_splices [Runtime] {start offset : Nat} {rest : Text}
    {splices : List Splice}
    {lines : List Line} (h : Line.renderSplices s start rest splices = .ok (some f))
    (hmem : .group offset lines ∈ splices) : ∃ results, Line.renderAll s lines = .ok results := by
  induction splices generalizing start rest f with
  | nil => cases hmem
  | cons x splices ih =>
    obtain ⟨output, after, houtput, hafter, -⟩ := Splice.exists_output_of_renderSplices_cons h
    rcases List.mem_cons.1 hmem with rfl | hmem
    · cases houtput with
      | group hresults => exact ⟨_, hresults⟩
    · exact ih hafter hmem

theorem exists_renderAll_span [Runtime] {offset : Nat} {lines : List Line}
    (h : Line.render s l = .ok (some f)) (hmem : .group offset lines ∈ l.splices) :
    ∃ results, Line.renderAll s lines = .ok results := by
  rcases Line.render_eq_ok_iff.1 h with ⟨-, hnone⟩ | ⟨g, hg, -⟩
  · cases hnone
  · exact exists_renderAll_of_mem_splices hg hmem

/-- A line of a block that is rendered in the first run is rendered in the second one. -/
theorem exists_render_of_steady [Runtime] {i : Nat} (h : ∀ k ∈ Line.deepAll ls, k.Steady s s')
    (hrun : ∃ results, Line.renderAll s' ls = .ok results) (hl : ls[i]? = some l)
    (hf : Line.render s l = .ok (some f)) :
    ∃ g, Line.render s' l = .ok (some g) ∧ (f.sql ≠ [] → g.sql ≠ []) ∧
      (f.values ≠ [] → g.values ≠ []) := by
  obtain ⟨results, hresults⟩ := hrun
  have hmem := List.mem_of_getElem? hl
  obtain ⟨y, hy⟩ := exists_render_of_mem hresults hmem
  have hgrows := Line.grows_render l (fun k hk => h k (mem_deepAll_of_mem_deep hmem hk)) hf hy
  obtain ⟨g, rfl⟩ := Option.isSome_iff_exists.1 (hgrows.rendered rfl)
  exact ⟨g, hy, mt hgrows.textOf_eq_nil, mt hgrows.values⟩

/-- Every line that is rendered in the first run is rendered in the second one, whatever its
place. -/
theorem RendersAt.of_steady [Runtime] {place : Place} (hplace : RendersAt s ls place f)
    (h : ∀ k ∈ Line.deepAll ls, k.Steady s s')
    (hrun : ∃ results, Line.renderAll s' ls = .ok results) :
    ∃ g, RendersAt s' ls place g ∧ (f.sql ≠ [] → g.sql ≠ []) ∧
      (f.values ≠ [] → g.values ≠ []) := by
  induction hplace with
  | line hl hf =>
    obtain ⟨g, hg, hgrows⟩ := exists_render_of_steady h hrun hl hf
    exact ⟨g, .line hl hg, hgrows⟩
  | child hl hf _ ih =>
    obtain ⟨g, hg, -⟩ := exists_render_of_steady h hrun hl hf
    have hmem := List.mem_of_getElem? hl
    obtain ⟨f', hf', hgrows⟩ := ih
      (fun k hk => h k (mem_deepAll_of_mem_deep hmem (mem_deep_of_mem (.inr hk))))
      (exists_renderAll_children hg)
    exact ⟨f', .child hl hg hf', hgrows⟩
  | span hl hf hspan _ ih =>
    obtain ⟨g, hg, -⟩ := exists_render_of_steady h hrun hl hf
    have hmem := List.mem_of_getElem? hl
    have hgroup := List.mem_of_getElem? hspan
    obtain ⟨f', hf', hgrows⟩ := ih
      (fun k hk => h k (mem_deepAll_of_mem_deep hmem
        (mem_deep_of_mem (.inl (Splice.mem_deepAll_of_group hgroup hk)))))
      (exists_renderAll_span hg hgroup)
    exact ⟨f', .span hl hg hspan hf', hgrows⟩

end Line

/-- A line of a template that was parsed has a parenthesis of its own if it has a span. -/
theorem Line.mem_opening_of_parse {registry : Registry} {resource : Option Text} {text : Text}
    {t : Template} (ht : Template.parse registry resource text = .ok t) :
    ∀ l ∈ t.deepLines, l.groups ≠ [] → '(' ∈ l.sql := by
  intro l hl hgroups
  obtain ⟨-, -, -, hbetween⟩ :=
    (Reader.keeps_enclosed registry).of_parse (fun _ hl => hl.flat.block) ht l hl
  rw [Line.sql_withChildren, Line.splices_withChildren] at hbetween
  obtain ⟨lines, hlines⟩ := List.exists_mem_of_ne_nil _ hgroups
  obtain ⟨x, hx, hxlines⟩ := List.mem_filterMap.1 hlines
  obtain ⟨before, after, hsql, -⟩ := hbetween x hx (by rw [hxlines]; rfl)
  rw [hsql]
  exact List.mem_append_right _ List.mem_cons_self

theorem Parameters.supplies_set {n : Negatives} {p : Parameters} {key : Text}
    (h : n.isNegative (p.get key) = true) (v : Value) : (p.set key v).Supplies n p := by
  intro other hother
  rw [Parameters.get_set]
  split
  · rename_i heq
    rw [heq, h] at hother
    cases hother
  · rfl

/-- Supplying more parameters to a template without negations never drops a line: every line that is
rendered is rendered still, and has text and values still if it had. Only a run that fails renders no
lines: with a limit of zero at a list that is supplied and has to be split, and in a runtime that limits
digits at a function that joins values and a whole number with too many digits among these. -/
theorem rendersAt_of_supplies_or_failed [Runtime] {r : Renderer} {resource : Option Text}
    {text : Text} {t : Template} (ht : Template.parse r.registry resource text = .ok t)
    (haffirmative : ∀ d ∈ t.deepDirectives, d.Affirmative r.registry) {p q : Parameters}
    (hrequired : ∀ key ∈ t.requiredKeys, r.negatives.isNegative (p.get key) = false)
    (hsupply : q.Supplies r.negatives p) :
    (r.limit = 0 ∧ r.render t q = .error .zeroLimit) ∨
    (Runtime.digitLimit ≠ 0 ∧ t.Overlong r q ∧ r.render t q = .error .tooManyDigits) ∨
    (∃ f, r.render t q = .ok f) ∧
      ∀ place f, Line.RendersAt ⟨r, t.resource, p⟩ t.lines place f →
        ∃ g, Line.RendersAt ⟨r, t.resource, q⟩ t.lines place g ∧
          (f.sql ≠ [] → g.sql ≠ []) ∧ (f.values ≠ [] → g.values ≠ []) := by
  have hsteady : ∀ l ∈ t.deepLines, l.Steady ⟨r, t.resource, p⟩ ⟨r, t.resource, q⟩ := by
    intro l hl
    refine ⟨Line.mem_opening_of_parse ht l hl, fun d hd c hc hkeeps => ?_⟩
    exact Directive.evaluate_of_supplies hsupply
      (haffirmative d (List.mem_flatMap.2 ⟨l, hl, hd⟩)) hc hkeeps
  cases hrun : r.render t q with
  | ok f =>
      obtain ⟨results, hresults, -⟩ := Renderer.render_eq_ok_iff.1 hrun
      exact .inr (.inr ⟨⟨f, rfl⟩, fun place f hplace =>
        hplace.of_steady hsteady ⟨results, hresults⟩⟩)
  | error e =>
      cases Renderer.failsOnly_render ht q e hrun with
      | missing hkey habsent =>
          have hpresent := hrequired _ hkey
          rw [hsupply _ hpresent, hpresent] at habsent
          cases habsent
      | zeroLimit hzero => exact .inl ⟨hzero, rfl⟩
      | overlong h => exact .inr (.inl ⟨h.digitLimit_ne_zero, h, rfl⟩)

/-- The line of a required parameter, which is rendered in every run. -/
def Line.requiredInSpan : Line :=
  .mk "    OR ".toList 6 6
    [.directive 7
      { source := "@z".toList
        expression := [.required "z".toList]
        sample := some "3".toList
        comparison := none
        line := some 6 }] none

/-- A line with a span of two lines, of which the first one can be dropped. -/
def Line.aroundSpan : Line :=
  .mk "  AND b IN ()".toList 4 7
    [.group 12
      [.mk "    ".toList 5 5
        [.directive 4
          { source := "?y".toList
            expression := [.reference .condition "y".toList false]
            sample := some "2".toList
            comparison := none
            line := some 5 }] none,
        requiredInSpan]] none

/-- A condition that can be dropped, and the line with the span behind it. -/
def Line.aboveSpan : Line :=
  .mk "WHERE".toList 2 2 []
    (some [.mk "  a = ".toList 3 3
      [.directive 6
        { source := "$x".toList
          expression := [.reference .param "x".toList false]
          sample := some "1".toList
          comparison := none
          line := some 3 }] none,
      aroundSpan])

def Template.conditionAndSpan : Template where
  lines := [.mk "SELECT * FROM t".toList 1 1 [] none, .aboveSpan]
  resource := none

def Parameters.onlyRequired : Parameters := ⟨[("z".toList, .int 4)]⟩

theorem rendersAt_conditionAndSpan :
    Line.RendersAt ⟨.standard, none, .onlyRequired⟩ Template.conditionAndSpan.lines
      (.child 1 (.span 1 0 (.line 1))) ⟨"OR ?".toList, [.int 4]⟩ := by
  have habove : Line.render ⟨.standard, none, .onlyRequired⟩ .aboveSpan =
      .ok (some ⟨"WHERE b IN (?)".toList, [.int 4]⟩) := rfl
  have haround : Line.render ⟨.standard, none, .onlyRequired⟩ .aroundSpan =
      .ok (some ⟨"AND b IN (?)".toList, [.int 4]⟩) := rfl
  have hinner : Line.render ⟨.standard, none, .onlyRequired⟩ .requiredInSpan =
      .ok (some ⟨"OR ?".toList, [.int 4]⟩) := rfl
  exact .child rfl habove (.span rfl haround rfl (.line rfl hinner))

/-- The line of the required parameter is rendered still when the condition in front of the span is
supplied. -/
theorem rendersAt_of_supplies_or_failed_conditionAndSpan :
    let t : Template := .conditionAndSpan
    let p : Parameters := .onlyRequired
    let q : Parameters := p.set "x".toList (.int 5)
    let place : Line.Place := .child 1 (.span 1 0 (.line 1))
    Template.parse .standard none
        ("SELECT * FROM t\nWHERE\n  a = /* $x */1\n  AND b IN (\n    /* ?y */2\n" ++
          "    OR /* @z */3\n  )").toList = .ok t ∧
      (∀ d ∈ t.deepDirectives, d.Affirmative .standard) ∧
      (∀ key ∈ t.requiredKeys, Negatives.none.isNegative (p.get key) = false) ∧
      q.Supplies .none p ∧
      Line.RendersAt ⟨.standard, none, p⟩ t.lines place ⟨"OR ?".toList, [.int 4]⟩ ∧
      ∃ g, Line.RendersAt ⟨.standard, none, q⟩ t.lines place g ∧ g.sql ≠ [] ∧ g.values ≠ [] := by
  intro t p q place
  have ht : Template.parse .standard none
      ("SELECT * FROM t\nWHERE\n  a = /* $x */1\n  AND b IN (\n    /* ?y */2\n" ++
        "    OR /* @z */3\n  )").toList = .ok t := by with_unfolding_all rfl
  have haffirmative : ∀ d ∈ t.deepDirectives, d.Affirmative .standard := by
    have hplain : ∀ u ∈ t.deepDirectives.flatMap fun d => Term.subtermsAll d.expression,
        u.isNegated = false ∧ u.callee? = none := by decide
    intro d hd u hu
    obtain ⟨hnegated, hcallee⟩ := hplain u (List.mem_flatMap.2 ⟨d, hd, hu⟩)
    refine ⟨hnegated, fun name f hname => ?_⟩
    rw [hcallee] at hname
    cases hname
  have hrequired : ∀ key ∈ t.requiredKeys, Negatives.none.isNegative (p.get key) = false := by
    decide
  have hsupply : q.Supplies .none p := Parameters.supplies_set (by decide) (.int 5)
  have hok : ∃ f, Renderer.standard.render t q = .ok f := ⟨_, rfl⟩
  rcases rendersAt_of_supplies_or_failed (r := .standard) ht haffirmative hrequired hsupply with
    ⟨hzero, -⟩ | ⟨-, -, herror⟩ | ⟨-, hall⟩
  · cases hzero
  · obtain ⟨f, hf⟩ := hok
    rw [herror] at hf
    cases hf
  · obtain ⟨g, hg, hsql, hvalues⟩ := hall place _ rendersAt_conditionAndSpan
    exact ⟨ht, haffirmative, hrequired, hsupply, rendersAt_conditionAndSpan, g, hg,
      hsql (by decide), hvalues (List.cons_ne_nil _ _)⟩

/-- A line that is rendered in every run, and one with a directive at its end. -/
def Template.selectAnd (sql : Text) (d : Directive) : Template where
  lines :=
    [.mk "SELECT 1".toList 1 1 [] none, .mk sql 2 2 [.directive sql.length d] none]
  resource := none

theorem Template.render_selectAnd_of_error [Runtime] {r : Renderer} {p : Parameters} {sql : Text}
    {d : Directive} {e : RenderError} (h : d.evaluate ⟨r, none, p⟩ = .error e) :
    r.render (.selectAnd sql d) p = .error e := by
  have hselect : Line.render ⟨r, none, p⟩ (.mk "SELECT 1".toList 1 1 [] none) =
      .ok (some ⟨"SELECT 1".toList, []⟩) := rfl
  have hline :
      Line.render ⟨r, none, p⟩ (.mk sql 2 2 [.directive sql.length d] none) = .error e := by
    rw [Line.render, Line.renderSplices, h]
    rfl
  change Line.renderAll ⟨r, none, p⟩ (selectAnd sql d).lines >>= _ = _
  rw [selectAnd, Line.renderAll, Line.renderAll, hselect, hline]
  rfl

/-- The line that is rendered without parameters is lost where the list that is supplied has to be split
into parts of no values, and where the number that is supplied is too long to be joined. -/
theorem rendersAt_of_supplies_zeroLimit_leastTooLong :
    (let t : Template := .selectAnd "WHERE ".toList (.equality 2)
      let r : Renderer := ⟨.none, .standard, 0⟩
      let q : Parameters := .twoNumbers
      Template.parse .standard none "SELECT 1\nWHERE a = /* ?x */1".toList = .ok t ∧
        (∀ d ∈ t.deepDirectives, d.Affirmative .standard) ∧ t.requiredKeys = [] ∧
        q.Supplies .none .empty ∧ r.render t .empty = .ok ⟨"SELECT 1".toList, []⟩ ∧
        Line.RendersAt ⟨r, none, .empty⟩ t.lines (.line 0) ⟨"SELECT 1".toList, []⟩ ∧
        ¬∃ f, r.render t q = .ok f) ∧
    (let t : Template := .selectAnd "WHERE a = ".toList (.concatenation 2)
      let r : Renderer := .standard
      let q : Parameters := .ofNumber Decimal.leastTooLong
      Template.parse .standard none "SELECT 1\nWHERE a = /* %CONCAT $x */1".toList = .ok t ∧
        (∀ d ∈ t.deepDirectives, d.Affirmative .standard) ∧ t.requiredKeys = [] ∧
        q.Supplies .none .empty ∧ r.render t .empty = .ok ⟨"SELECT 1".toList, []⟩ ∧
        Line.RendersAt ⟨r, none, .empty⟩ t.lines (.line 0) ⟨"SELECT 1".toList, []⟩ ∧
        ¬∃ f, r.render t q = .ok f) := by
  have haffirmative {t : Template}
      (hplain : ∀ u ∈ t.deepDirectives.flatMap fun d => Term.subtermsAll d.expression,
        u.isNegated = false ∧ (u.callee? = none ∨ u.callee? = some "CONCAT".toList)) :
      ∀ d ∈ t.deepDirectives, d.Affirmative .standard := by
    have hfind : Registry.find? .standard "CONCAT".toList = some .concat := rfl
    intro d hd u hu
    obtain ⟨hnegated, hcallee⟩ := hplain u (List.mem_flatMap.2 ⟨d, hd, hu⟩)
    refine ⟨hnegated, fun name f hname hf => ?_⟩
    rcases hcallee with hcallee | hcallee
    · rw [hcallee] at hname
      cases hname
    · rw [hcallee] at hname
      obtain rfl := Option.some.inj hname
      obtain rfl := Option.some.inj (hfind.symm.trans hf)
      decide
  have hsupply (q : Parameters) : q.Supplies .none .empty := by
    have habsent (key : Text) : Negatives.none.isNegative (Parameters.empty.get key) = true := rfl
    intro key h
    rw [habsent key] at h
    cases h
  refine ⟨⟨by with_unfolding_all rfl, haffirmative (by decide), rfl, hsupply _, rfl,
      .line rfl rfl, ?_⟩,
    ⟨by with_unfolding_all rfl, haffirmative (by decide), rfl, hsupply _, rfl, .line rfl rfl, ?_⟩⟩
  · rintro ⟨f, hf⟩
    rw [Template.render_selectAnd_of_error (Directive.evaluate_equality_of_zeroLimit 2)] at hf
    cases hf
  · rintro ⟨f, hf⟩
    have htooLong := Decimal.tooLong_leastTooLong (by decide)
    rw [Template.render_selectAnd_of_error
      (Directive.evaluate_concatenation_of_tooLong htooLong 2)] at hf
    cases hf

end SqlTemplate
