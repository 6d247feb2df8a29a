import SqlTemplate.Proofs.Rendering.MarkCount
import SqlTemplate.Proofs.Rendering.MarkedBy

/-!
# Marks and values are aligned

`Template.survivors` lists the directives that take part in a statement, with what they contribute:
those whose output is not removed, in lines that are left, in spans and under lines that are left.
If only directives write marks, the statement is marked by its survivors. So it has a mark for every
bound value, the values are those of the survivors in their order, and each mark stands in the output
of the directive that its value comes from.
-/

namespace SqlTemplate

open Marks

mutual

/-- The directives of a line that take part in its result, with what they contribute. A line that is
dropped takes its spans and the lines that belong to it along. -/
def Line.survivors [Runtime] (s : Scope) : Line → List (Directive × Contribution)
  | .mk sql first last splices block =>
      let below :=
        match block with
        | none => []
        | some children => Line.survivorsAll s children
      match Line.render s (.mk sql first last splices block) with
      | .ok (some _) => Splice.survivorsAll s splices ++ below
      | _ => []

def Splice.survivorsAll [Runtime] (s : Scope) : List Splice → List (Directive × Contribution)
  | [] => []
  | .directive _ d :: splices =>
      match d.evaluate s with
      | .ok c =>
          if c.disposed then Splice.survivorsAll s splices
          else (d, c) :: Splice.survivorsAll s splices
      | .error _ => Splice.survivorsAll s splices
  | .group _ lines :: splices => Line.survivorsAll s lines ++ Splice.survivorsAll s splices

def Line.survivorsAll [Runtime] (s : Scope) : List Line → List (Directive × Contribution)
  | [] => []
  | l :: ls => Line.survivors s l ++ Line.survivorsAll s ls

end

/-- The directives that take part in the statement that a template becomes. -/
def Template.survivors [Runtime] (t : Template) (r : Renderer) (p : Parameters) :
    List (Directive × Contribution) :=
  Line.survivorsAll ⟨r, t.resource, p⟩ t.lines

/-- A directive with a sample whose terms are even. -/
structure Directive.Even (registry : Registry) (d : Directive) : Prop where
  terms : ∀ u ∈ Term.subtermsAll d.expression, u.Even registry
  clear : ∀ c, d.comparison = some c → Clear c
  sample : d.sample.isSome

/-- A line whose text holds no mark and whose directives are even. -/
structure Line.Even (registry : Registry) (l : Line) : Prop where
  sql : mark ∉ l.sql
  directives : ∀ d ∈ l.directives, d.Even registry

/-- A directive that writes no mark with a sample that stays. -/
def KeepsNoMark (e : Directive × Contribution) : Prop :=
  e.2.keepsSample = true → mark ∉ e.1.sample.getD []

instance (e : Directive × Contribution) : Decidable (KeepsNoMark e) :=
  inferInstanceAs (Decidable (_ → _))

section Runs

variable {s : Scope}

theorem Directive.Even.balanced [Runtime] {d : Directive} (h : d.Even s.renderer.registry)
    (hlimit : 1 ≤ s.renderer.limit) {c : Contribution} (hc : d.evaluate s = .ok c) :
    c.Balanced := by
  obtain ⟨cs, hcs, rfl⟩ := Directive.evaluate_eq_ok_iff.1 hc
  exact Contribution.balanced_merge
    (Term.balanced_of_evaluateAll hlimit h.clear d.expression h.terms hcs)

/-- The output of a directive has a mark for each of its values. -/
theorem Directive.Even.output {d : Directive} (h : d.Even s.renderer.registry)
    {c : Contribution} (hbalanced : c.Balanced) (hdisposed : c.disposed = false)
    (hkeeps : KeepsNoMark (d, c)) :
    (d.output c).sql.count mark = c.values.length ∧ (d.output c).values = c.values := by
  unfold Directive.output
  rw [if_neg (by simp [hdisposed])]
  split
  · rename_i hsample
    obtain ⟨hvalues, -⟩ := hbalanced.sample hsample
    have hclear : (d.sample.getD []).count mark = 0 :=
      List.count_eq_zero_of_not_mem (hkeeps hsample)
    rw [hvalues]
    cases hc : d.comparison with
    | none => exact ⟨hclear, rfl⟩
    | some comparison =>
        obtain ⟨hsubject, hoperator⟩ := h.clear comparison hc
        refine ⟨?_, rfl⟩
        simp only [List.count_append, List.count_cons, space_beq_mark, hclear,
          List.count_eq_zero_of_not_mem hsubject, List.count_eq_zero_of_not_mem hoperator]
        simp
  · obtain ⟨sample, hsample⟩ := Option.isSome_iff_exists.1 h.sample
    rw [hsample]
    cases hr : c.replacement with
    | none => exact ⟨count_bind _ _, rfl⟩
    | some t => exact ⟨hbalanced.marks t hr, rfl⟩

theorem Fragment.markedBy_output {d : Directive} {c : Contribution}
    (hmarks : (d.output c).sql.count mark = c.values.length)
    (hvalues : (d.output c).values = c.values) : (d.output c).MarkedBy [(d, c)] := by
  constructor
  · have hpiece := MarkedBy.piece_append (List.infix_refl _) hmarks (.plain List.not_mem_nil)
    rw [List.append_nil] at hpiece
    exact hpiece
  · rw [hvalues]
    exact (List.append_nil _).symm

theorem Line.survivors_of_none [Runtime] {l : Line} (h : l.render s = .ok none) :
    l.survivors s = [] := by
  cases l with
  | mk sql first last splices block => cases block <;> rw [Line.survivors, h]

theorem Line.survivors_of_some [Runtime] {l : Line} {f : Fragment}
    (h : l.render s = .ok (some f)) :
    l.survivors s = Splice.survivorsAll s l.splices ++ Line.survivorsAll s l.children := by
  cases l with
  | mk sql first last splices block =>
      cases block <;> rw [Line.survivors, h] <;> rfl

theorem Fragment.markedBy_empty : Fragment.empty.MarkedBy [] :=
  Fragment.markedBy_plain List.not_mem_nil

theorem Line.survivorsAll_eq_flatten [Runtime] (ls : List Line) :
    Line.survivorsAll s ls = (ls.map (Line.survivors s)).flatten := by
  induction ls with
  | nil => rfl
  | cons l ls ih => rw [Line.survivorsAll, ih, List.map_cons, List.flatten_cons]

/-- A block is marked by the survivors of its lines if their results are. -/
theorem Line.markedBy_assemble [Runtime] {ls : List Line} {results : List (Option Fragment)}
    (h : List.Forall₂ (fun result es => (result.getD .empty : Fragment).MarkedBy es) results
      (ls.map (Line.survivors s))) :
    ((Block.assemble ls results).getD .empty).MarkedBy (Line.survivorsAll s ls) := by
  rw [Line.survivorsAll_eq_flatten]
  exact Block.markedBy_assemble ls h

mutual

/-- The result of a line is marked by the survivors of the line. -/
theorem Line.markedBy_of_render [Runtime] (hlimit : 1 ≤ s.renderer.limit) (l : Line)
    (hl : ∀ k ∈ l.deep, k.Even s.renderer.registry) {f : Fragment}
    (h : l.render s = .ok (some f)) (hkeeps : ∀ e ∈ l.survivors s, KeepsNoMark e) :
    f.MarkedBy (l.survivors s) := by
  cases l with
  | mk sql first last splices block =>
      rw [Line.survivors_of_some h] at hkeeps ⊢
      rw [List.forall_mem_append] at hkeeps
      have hself := hl _ (Line.mem_deep_self _)
      have hsplices : ∀ k ∈ Splice.deepAll splices, k.Even s.renderer.registry :=
        fun k hk => hl k (Line.mem_deep_of_mem (.inl hk))
      rcases Line.render_eq_ok_iff.1 h with ⟨-, h⟩ | ⟨own, hown, h⟩
      · simp at h
      · have hmarked := Line.markedBy_of_renderSplices hlimit splices hsplices hself.directives
          hself.sql hown hkeeps.1
        have hstripped : Fragment.MarkedBy ⟨strip own.sql, own.values⟩
            (Splice.survivorsAll s splices) :=
          ⟨hmarked.sql.strip, hmarked.values⟩
        rcases h with ⟨hnil, hf⟩ | ⟨hne, results, hresults, hf⟩
        · obtain rfl := Option.some.inj hf
          rw [hnil, Line.survivorsAll, List.append_nil]
          exact hstripped
        · cases block with
          | none => exact absurd rfl hne
          | some children =>
              have hmarkedAll := Line.markedBy_of_renderAll hlimit children
                (fun k hk => hl k (Line.mem_deep_of_mem (.inr hk))) hresults hkeeps.2
              exact Block.markedBy_attach hstripped (Line.markedBy_assemble hmarkedAll) hf.symm

theorem Line.markedBy_of_renderSplices [Runtime] (hlimit : 1 ≤ s.renderer.limit)
    (splices : List Splice)
    (hlines : ∀ k ∈ Splice.deepAll splices, k.Even s.renderer.registry)
    (hdirectives : ∀ d ∈ splices.filterMap Splice.directive?, d.Even s.renderer.registry)
    {start : Nat} {rest : Text} (hrest : mark ∉ rest) {f : Fragment}
    (h : Line.renderSplices s start rest splices = .ok (some f))
    (hkeeps : ∀ e ∈ Splice.survivorsAll s splices, KeepsNoMark e) :
    f.MarkedBy (Splice.survivorsAll s splices) := by
  cases splices with
  | nil =>
      obtain rfl := Option.some.inj (Line.renderSplices_nil_eq_ok_iff.1 h)
      exact Fragment.markedBy_plain hrest
  | cons p splices =>
      cases p with
      | directive offset d =>
          obtain ⟨c, hc, ⟨-, h⟩ | ⟨-, after, hafter, h⟩⟩ :=
            Line.renderSplices_directive_eq_ok_iff.1 h
          · simp at h
          · obtain ⟨g, rfl, rfl⟩ := Option.map_eq_some_iff.1 h.symm
            obtain ⟨hd, hdirectives⟩ := List.forall_mem_cons.1 hdirectives
            have hbefore : Fragment.MarkedBy ⟨rest.take (offset - start), []⟩ [] :=
              Fragment.markedBy_plain fun hmem => hrest (List.mem_of_mem_take hmem)
            have hdropped : mark ∉ rest.drop (offset - start) :=
              fun hmem => hrest (List.mem_of_mem_drop hmem)
            rw [Splice.survivorsAll, hc] at hkeeps ⊢
            dsimp only at hkeeps ⊢
            split at hkeeps
            · rename_i hdisposed
              have houtput : d.output c = .empty := if_pos hdisposed
              rw [if_pos hdisposed, houtput]
              have hmarked := Line.markedBy_of_renderSplices hlimit splices hlines hdirectives
                hdropped hafter hkeeps
              exact (hbefore.append Fragment.markedBy_empty).append hmarked
            · rename_i hdisposed
              obtain ⟨hself, hkeeps⟩ := List.forall_mem_cons.1 hkeeps
              obtain ⟨hmarks, hvalues⟩ := hd.output (hd.balanced hlimit hc)
                (Bool.eq_false_iff.2 hdisposed) hself
              rw [if_neg hdisposed]
              have hmarked := Line.markedBy_of_renderSplices hlimit splices hlines hdirectives
                hdropped hafter hkeeps
              exact (hbefore.append (Fragment.markedBy_output hmarks hvalues)).append hmarked
      | group offset lines =>
          obtain ⟨results, hresults, ⟨-, -, h⟩ | ⟨-, after, hafter, h⟩⟩ :=
            Line.renderSplices_group_eq_ok_iff.1 h
          · simp at h
          · obtain ⟨g, rfl, rfl⟩ := Option.map_eq_some_iff.1 h.symm
            rw [Splice.deepAll, List.forall_mem_append] at hlines
            rw [Splice.survivorsAll] at hkeeps ⊢
            rw [List.forall_mem_append] at hkeeps
            have hbefore : Fragment.MarkedBy ⟨rest.take (offset - start), []⟩ [] :=
              Fragment.markedBy_plain fun hmem => hrest (List.mem_of_mem_take hmem)
            have hcontent := Line.markedBy_assemble
              (Line.markedBy_of_renderAll hlimit lines hlines.1 hresults hkeeps.1)
            have hmarked := Line.markedBy_of_renderSplices hlimit splices hlines.2 hdirectives
              (fun hmem => hrest (List.mem_of_mem_drop hmem)) hafter hkeeps.2
            exact (hbefore.append hcontent).append hmarked

theorem Line.markedBy_of_renderAll [Runtime] (hlimit : 1 ≤ s.renderer.limit) (ls : List Line)
    (hls : ∀ k ∈ Line.deepAll ls, k.Even s.renderer.registry)
    {results : List (Option Fragment)} (h : Line.renderAll s ls = .ok results)
    (hkeeps : ∀ e ∈ Line.survivorsAll s ls, KeepsNoMark e) :
    List.Forall₂ (fun result es => (result.getD .empty : Fragment).MarkedBy es) results
      (ls.map (Line.survivors s)) := by
  cases ls with
  | nil =>
      rw [Line.renderAll_nil_eq_ok_iff.1 h]
      exact .nil
  | cons l ls =>
      obtain ⟨result, rest, hresult, hrest, rfl⟩ := Line.renderAll_cons_eq_ok_iff.1 h
      rw [Line.deepAll, List.forall_mem_append] at hls
      rw [Line.survivorsAll, List.forall_mem_append] at hkeeps
      refine .cons ?_ (Line.markedBy_of_renderAll hlimit ls hls.2 hrest hkeeps.2)
      cases result with
      | none =>
          rw [Line.survivors_of_none hresult]
          exact Fragment.markedBy_empty
      | some f => exact Line.markedBy_of_render hlimit l hls.1 hresult hkeeps.1

end

end Runs

/-- Every mark stands for the value that its directive contributed. -/
theorem marks_aligned [Runtime] {r : Renderer} {resource : Option Text} {text : Text} {t : Template}
    {p : Parameters} {f : Fragment} (ht : Template.parse r.registry resource text = .ok t)
    (hlimit : 1 ≤ r.limit) (hlines : ∀ l ∈ t.deepLines, mark ∉ l.sql)
    (hliterals : ∀ u ∈ t.literals, mark ∉ u)
    (hsamples : ∀ d ∈ t.deepDirectives, d.sample.isSome)
    (hcallees : ∀ name ∈ t.callees,
      r.registry.find? name ≠ some .sql ∧ r.registry.find? name ≠ some .compact)
    (hf : r.render t p = .ok f) (hkeeps : ∀ e ∈ t.survivors r p, KeepsNoMark e) :
    f.sql.count mark = f.values.length ∧
    f.values = valuesOfAll (t.survivors r p) ∧
    MarkedBy f.sql (t.survivors r p) ∧
    ∀ i < f.values.length, ∃ before kept after earlier e later,
      f.sql = before ++ (kept ++ after) ∧ t.survivors r p = earlier ++ e :: later ∧
      kept <:+: (e.1.output e.2).sql ∧ before.count mark ≤ i ∧
      i < before.count mark + kept.count mark ∧
      f.values[i]? = e.2.values[i - before.count mark]? := by
  have heven : ∀ l ∈ Line.deepAll t.lines, l.Even r.registry := by
    intro l hl
    refine ⟨hlines l hl, ?_⟩
    intro d hd
    have hmem : d ∈ t.deepDirectives := List.mem_flatMap.2 ⟨l, hl, hd⟩
    refine ⟨?_, fun c hc => (compiled_of_parse ht d hmem).clear hc, hsamples d hmem⟩
    intro u hu
    constructor
    · intro v hv
      exact hliterals v (List.mem_flatMap.2 ⟨d, hmem, List.mem_filterMap.2 ⟨u, hu, hv⟩⟩)
    · intro name hname
      exact (hcallees name
        (List.mem_flatMap.2 ⟨d, hmem, List.mem_filterMap.2 ⟨u, hu, hname⟩⟩)).1
    · intro name hname
      exact (hcallees name
        (List.mem_flatMap.2 ⟨d, hmem, List.mem_filterMap.2 ⟨u, hu, hname⟩⟩)).2
  obtain ⟨results, hresults, rfl⟩ := Renderer.render_eq_ok_iff.1 hf
  have hmarked := Line.markedBy_assemble
    (Line.markedBy_of_renderAll hlimit t.lines heven hresults hkeeps)
  have hvalues := hmarked.values
  refine ⟨?_, hvalues, hmarked.sql, ?_⟩
  · rw [hvalues]
    exact hmarked.sql.count
  · intro i hi
    rw [hvalues] at hi ⊢
    exact hmarked.sql.exists_of_lt hi

/-- A template with a membership test and a parameter in a span over several lines. -/
def Template.membershipInSpan : Template where
  lines :=
    [.mk "SELECT *".toList 1 1 [] none,
      .mk "WHERE ()".toList 2 5
        [.group 7
          [.mk "  ".toList 3 3
              [.directive 2
                { source := "?ids".toList
                  expression := [.reference .condition "ids".toList false]
                  sample := some "(1)".toList
                  comparison := some ⟨"a".toList, "IN".toList⟩
                  line := some 3 }] none,
            .mk "  OR b = ".toList 4 4
              [.directive 9
                { source := "b".toList
                  expression := [.reference .param "b".toList false]
                  sample := some "0".toList
                  comparison := none
                  line := some 4 }] none]] none]
  resource := none

/-- Two values for the test and one for the parameter. -/
def Parameters.forMembershipInSpan : Parameters :=
  ⟨[("ids".toList, .sequence .list [.int 1, .int 2]), ("b".toList, .text (.ofText "x".toList))]⟩

theorem marks_aligned_membershipInSpan :
    let t : Template := .membershipInSpan
    let p : Parameters := .forMembershipInSpan
    Template.parse .standard none
        "SELECT *\nWHERE (\n  a IN /* ?ids */(1)\n  OR b = /* b */0\n)".toList = .ok t ∧
    (∀ l ∈ t.deepLines, mark ∉ l.sql) ∧ (∀ u ∈ t.literals, mark ∉ u) ∧
    (∀ d ∈ t.deepDirectives, d.sample.isSome) ∧
    (∀ name ∈ t.callees, Registry.standard.find? name ≠ some .sql ∧
      Registry.standard.find? name ≠ some .compact) ∧
    (∀ e ∈ t.survivors .standard p, KeepsNoMark e) ∧
    ∃ f, Renderer.standard.render t p = .ok f ∧
      f.sql = "SELECT * WHERE (a IN (?, ?) OR b = ?)".toList ∧ f.values.length = 3 ∧
      f.sql.count mark = f.values.length ∧ f.values = valuesOfAll (t.survivors .standard p) ∧
      MarkedBy f.sql (t.survivors .standard p) := by
  have ht : Template.parse .standard none
      "SELECT *\nWHERE (\n  a IN /* ?ids */(1)\n  OR b = /* b */0\n)".toList =
        .ok .membershipInSpan := by with_unfolding_all rfl
  have hlines : ∀ l ∈ Template.membershipInSpan.deepLines, mark ∉ l.sql := by decide
  have hliterals : ∀ u ∈ Template.membershipInSpan.literals, mark ∉ u := by decide
  have hsamples : ∀ d ∈ Template.membershipInSpan.deepDirectives, d.sample.isSome := by decide
  have hcallees : ∀ name ∈ Template.membershipInSpan.callees,
      Registry.standard.find? name ≠ some .sql ∧
        Registry.standard.find? name ≠ some .compact := by decide
  have hkeeps : ∀ e ∈ Template.membershipInSpan.survivors .standard .forMembershipInSpan,
      KeepsNoMark e := by decide
  have hf : Renderer.standard.render .membershipInSpan .forMembershipInSpan =
      .ok ⟨"SELECT * WHERE (a IN (?, ?) OR b = ?)".toList,
        [.int 1, .int 2, .text (.ofText "x".toList)]⟩ := rfl
  obtain ⟨hcount, hvalues, hmarked, -⟩ :=
    marks_aligned (r := .standard) ht (by decide) hlines hliterals hsamples hcallees hf hkeeps
  exact ⟨ht, hlines, hliterals, hsamples, hcallees, hkeeps, _, hf, rfl, rfl, hcount, hvalues,
    hmarked⟩

end SqlTemplate
