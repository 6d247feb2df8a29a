import SqlTemplate.Rendering.Basic

/-!
# The steps of a successful run

What it takes for a term, a directive, a splice or a line to be rendered without an error. Proofs
about successful runs take them apart with these lemmas and never open the definitions of rendering.
-/

namespace SqlTemplate

theorem ok_bind {ε α β : Type} (a : α) (f : α → Except ε β) : (Except.ok a >>= f) = f a := rfl

theorem bind_eq_ok_iff {ε α β : Type} {x : Except ε α} {f : α → Except ε β} {b : β} :
    (x >>= f) = .ok b ↔ ∃ a, x = .ok a ∧ f a = .ok b := by
  cases x with
  | error e =>
      constructor
      · intro h
        simp [bind, Except.bind] at h
      · rintro ⟨a, h, -⟩
        simp at h
  | ok a =>
      constructor
      · intro h
        exact ⟨a, rfl, h⟩
      · rintro ⟨a', h, hb⟩
        obtain rfl := Except.ok.inj h
        exact hb

theorem map_eq_ok_iff {ε α β : Type} {x : Except ε α} {f : α → β} {b : β} :
    x.map f = .ok b ↔ ∃ a, x = .ok a ∧ f a = b := by
  cases x <;> simp [Except.map]

namespace Reference

variable {s : Scope} {d : Directive} {kind : Reference} {key : Text}

theorem evaluate_of_absent (negated : Bool)
    (h : s.renderer.negatives.isNegative (s.parameters.get key) = true) :
    kind.evaluate s d key negated = .ok (if negated then .keep else .drop false) := by
  unfold evaluate
  dsimp only
  rw [h]
  cases negated <;> simp

theorem evaluate_negated_of_present
    (h : s.renderer.negatives.isNegative (s.parameters.get key) = false) :
    kind.evaluate s d key true = .ok (.drop false) := by
  unfold evaluate
  dsimp only
  rw [h]
  simp

theorem evaluate_presence_of_present
    (h : s.renderer.negatives.isNegative (s.parameters.get key) = false) :
    presence.evaluate s d key false = .ok .keep := by
  unfold evaluate
  dsimp only
  rw [h]
  simp

theorem evaluate_condition_of_present {c : Comparison} {t : Text}
    (h : s.renderer.negatives.isNegative (s.parameters.get key) = false)
    (hc : d.comparison = some c)
    (ht : Marks.condition c (s.parameters.get key).flatten.length
      (s.parameters.get key).resolve.isSequence d.sample s.renderer.limit = .ok t) :
    condition.evaluate s d key false =
      .ok { Contribution.ofValues (s.parameters.get key).flatten with replacement := some t } := by
  unfold evaluate
  dsimp only
  rw [h, hc]
  simp [ht]

/-- The values of a present parameter, unless a comparison is rendered. -/
theorem evaluate_of_present (hkind : kind ≠ presence)
    (h : s.renderer.negatives.isNegative (s.parameters.get key) = false)
    (hc : kind = param ∨ d.comparison = none) :
    kind.evaluate s d key false = .ok (.ofValues (s.parameters.get key).flatten) := by
  unfold evaluate
  dsimp only
  rw [h]
  rcases hc with rfl | hc
  · simp
  · cases kind with
    | presence => exact absurd rfl hkind
    | param => simp
    | condition => simp [hc]

end Reference

namespace Term

variable [Runtime] {s : Scope} {d : Directive}

theorem evaluateAll_cons_eq_ok_iff {t : Term} {ts : List Term} {cs : List Contribution} :
    evaluateAll s d (t :: ts) = .ok cs ↔
      ∃ c rest, evaluate s d t = .ok c ∧ evaluateAll s d ts = .ok rest ∧ cs = c :: rest := by
  rw [evaluateAll, bind_eq_ok_iff]
  constructor
  · rintro ⟨c, hc, h⟩
    obtain ⟨rest, hrest, h⟩ := bind_eq_ok_iff.1 h
    exact ⟨c, rest, hc, hrest, (Except.ok.inj h).symm⟩
  · rintro ⟨c, rest, hc, hrest, rfl⟩
    exact ⟨c, hc, bind_eq_ok_iff.2 ⟨rest, hrest, rfl⟩⟩

theorem evaluateAll_nil_eq_ok_iff {cs : List Contribution} :
    evaluateAll s d [] = .ok cs ↔ cs = [] := by
  rw [evaluateAll]
  constructor
  · intro h
    exact (Except.ok.inj h).symm
  · rintro rfl
    rfl

theorem evaluate_group_eq_ok_iff {chain : List Term} {c : Contribution} :
    evaluate s d (.group chain) = .ok c ↔
      ∃ cs, evaluateAll s d chain = .ok cs ∧ c = .merge cs := by
  rw [evaluate, bind_eq_ok_iff]
  constructor
  · rintro ⟨cs, hcs, h⟩
    exact ⟨cs, hcs, (Except.ok.inj h).symm⟩
  · rintro ⟨cs, hcs, rfl⟩
    exact ⟨cs, hcs, rfl⟩

theorem evaluate_call_eq_ok_iff {name : Text} {negated : Bool} {inside : Option (List Term)}
    {chain : List Term} {c : Contribution} :
    evaluate s d (.call name negated inside chain) = .ok c ↔
      ∃ f ins cs, s.renderer.registry.find? name = some f ∧
        evaluateInside s d inside = .ok ins ∧ evaluateAll s d chain = .ok cs ∧
        f.apply s.renderer.negatives negated ins cs = .ok c := by
  rw [evaluate]
  cases s.renderer.registry.find? name with
  | none => simp
  | some f =>
      simp only [bind_eq_ok_iff, Option.some.injEq]
      constructor
      · rintro ⟨ins, hins, cs, hcs, h⟩
        exact ⟨f, ins, cs, rfl, hins, hcs, h⟩
      · rintro ⟨f', ins, cs, rfl, hins, hcs, h⟩
        exact ⟨ins, hins, cs, hcs, h⟩

theorem evaluateInside_eq_ok_iff {inside : Option (List Term)}
    {ins : Option (List Contribution)} :
    evaluateInside s d inside = .ok ins ↔
      (inside = none ∧ ins = none) ∨
        ∃ chain cs, inside = some chain ∧ evaluateAll s d chain = .ok cs ∧ ins = some cs := by
  cases inside with
  | none =>
      rw [evaluateInside]
      simp [eq_comm]
  | some chain =>
      rw [evaluateInside, bind_eq_ok_iff]
      constructor
      · rintro ⟨cs, hcs, h⟩
        exact .inr ⟨chain, cs, rfl, hcs, (Except.ok.inj h).symm⟩
      · rintro (⟨h, -⟩ | ⟨chain', cs, h, hcs, rfl⟩)
        · simp at h
        · obtain rfl := Option.some.inj h
          exact ⟨cs, hcs, rfl⟩

/-- Evaluating terms gives one contribution for each. -/
theorem length_evaluateAll {ts : List Term} {cs : List Contribution}
    (h : evaluateAll s d ts = .ok cs) : cs.length = ts.length := by
  induction ts generalizing cs with
  | nil =>
      rw [evaluateAll_nil_eq_ok_iff.1 h]
      rfl
  | cons t ts ih =>
      obtain ⟨c, rest, -, hrest, rfl⟩ := evaluateAll_cons_eq_ok_iff.1 h
      rw [List.length_cons, List.length_cons, ih hrest]

/-- What is evaluated has as many operands as what was compiled. -/
theorem ne_nil_of_evaluate {inside : Option (List Term)} {chain : List Term}
    (h : inside ≠ none ∨ chain ≠ []) {ins : Option (List Contribution)} {cs : List Contribution}
    (hins : evaluateInside s d inside = .ok ins) (hcs : evaluateAll s d chain = .ok cs) :
    ins ≠ none ∨ cs ≠ [] := by
  rcases h with hne | hne
  · left
    rintro rfl
    rcases evaluateInside_eq_ok_iff.1 hins with ⟨hnone, -⟩ | ⟨_, _, -, -, hnone⟩
    · exact hne hnone
    · simp at hnone
  · right
    rintro rfl
    exact hne (List.eq_nil_of_length_eq_zero (length_evaluateAll hcs).symm)

end Term

theorem Directive.evaluate_eq_ok_iff [Runtime] {s : Scope} {d : Directive} {c : Contribution} :
    d.evaluate s = .ok c ↔
      ∃ cs, Term.evaluateAll s d d.expression = .ok cs ∧ c = .merge cs := by
  rw [Directive.evaluate, bind_eq_ok_iff]
  constructor
  · rintro ⟨cs, hcs, h⟩
    exact ⟨cs, hcs, (Except.ok.inj h).symm⟩
  · rintro ⟨cs, hcs, rfl⟩
    exact ⟨cs, hcs, rfl⟩

namespace Line

variable [Runtime] {s : Scope}

theorem renderAll_nil_eq_ok_iff {results : List (Option Fragment)} :
    renderAll s [] = .ok results ↔ results = [] := by
  rw [renderAll]
  constructor
  · intro h
    exact (Except.ok.inj h).symm
  · rintro rfl
    rfl

theorem renderAll_cons_eq_ok_iff {l : Line} {ls : List Line}
    {results : List (Option Fragment)} :
    renderAll s (l :: ls) = .ok results ↔
      ∃ result rest, render s l = .ok result ∧ renderAll s ls = .ok rest ∧
        results = result :: rest := by
  rw [renderAll, bind_eq_ok_iff]
  constructor
  · rintro ⟨result, hresult, h⟩
    obtain ⟨rest, hrest, h⟩ := bind_eq_ok_iff.1 h
    exact ⟨result, rest, hresult, hrest, (Except.ok.inj h).symm⟩
  · rintro ⟨result, rest, hresult, hrest, rfl⟩
    exact ⟨result, hresult, bind_eq_ok_iff.2 ⟨rest, hrest, rfl⟩⟩

/-- The result of a line whose splices are rendered. A line without a block and one with an empty
block are rendered alike. -/
theorem render_eq_ok_iff {l : Line} {result : Option Fragment} :
    render s l = .ok result ↔
      (renderSplices s 0 l.sql l.splices = .ok none ∧ result = none) ∨
      ∃ f, renderSplices s 0 l.sql l.splices = .ok (some f) ∧
        ((l.children = [] ∧ result = some ⟨strip f.sql, f.values⟩) ∨
          (l.children ≠ [] ∧ ∃ results, renderAll s l.children = .ok results ∧
            result =
              Block.attach ⟨strip f.sql, f.values⟩ (Block.assemble l.children results))) := by
  obtain ⟨sql, first, last, splices, block⟩ := l
  rw [render, bind_eq_ok_iff]
  constructor
  · rintro ⟨own, hown, h⟩
    cases own with
    | none => exact .inl ⟨hown, (Except.ok.inj h).symm⟩
    | some f =>
        refine .inr ⟨f, hown, ?_⟩
        rcases block with _ | (_ | ⟨l, ls⟩)
        · exact .inl ⟨rfl, (Except.ok.inj h).symm⟩
        · exact .inl ⟨rfl, (Except.ok.inj h).symm⟩
        · obtain ⟨results, hresults, h⟩ := bind_eq_ok_iff.1 h
          exact .inr ⟨List.cons_ne_nil _ _, results, hresults, (Except.ok.inj h).symm⟩
  · rintro (⟨hown, rfl⟩ | ⟨f, hown, ⟨hnil, rfl⟩ | ⟨hne, results, hresults, rfl⟩⟩)
    · exact ⟨none, hown, rfl⟩
    · refine ⟨some f, hown, ?_⟩
      rcases block with _ | (_ | ⟨l, ls⟩)
      · rfl
      · rfl
      · exact absurd hnil (List.cons_ne_nil _ _)
    · refine ⟨some f, hown, ?_⟩
      rcases block with _ | (_ | ⟨l, ls⟩)
      · exact absurd rfl hne
      · exact absurd rfl hne
      · exact bind_eq_ok_iff.2 ⟨results, hresults, rfl⟩

theorem renderSplices_directive_eq_ok_iff {start offset : Nat} {rest : Text} {d : Directive}
    {splices : List Splice} {result : Option Fragment} :
    renderSplices s start rest (.directive offset d :: splices) = .ok result ↔
      ∃ c, d.evaluate s = .ok c ∧
        ((c.dropsLine = true ∧ result = none) ∨
          (c.dropsLine = false ∧ ∃ after,
            renderSplices s offset (rest.drop (offset - start)) splices = .ok after ∧
            result = after.map fun f => ⟨rest.take (offset - start), []⟩ ++ d.output c ++ f)) := by
  rw [renderSplices]
  simp only [bind_eq_ok_iff]
  constructor
  · rintro ⟨c, hc, h⟩
    refine ⟨c, hc, ?_⟩
    cases hdrop : c.dropsLine with
    | true =>
        rw [hdrop] at h
        exact .inl ⟨rfl, (Except.ok.inj h).symm⟩
    | false =>
        rw [hdrop] at h
        obtain ⟨after, hafter, h⟩ := bind_eq_ok_iff.1 h
        exact .inr ⟨rfl, after, hafter, (Except.ok.inj h).symm⟩
  · rintro ⟨c, hc, ⟨hdrop, rfl⟩ | ⟨hdrop, after, hafter, rfl⟩⟩
    · refine ⟨c, hc, ?_⟩
      rw [hdrop]
      rfl
    · refine ⟨c, hc, ?_⟩
      rw [hdrop]
      exact bind_eq_ok_iff.2 ⟨after, hafter, rfl⟩

theorem renderSplices_group_eq_ok_iff {start offset : Nat} {rest : Text} {lines : List Line}
    {splices : List Splice} {result : Option Fragment} :
    renderSplices s start rest (.group offset lines :: splices) = .ok result ↔
      ∃ results, renderAll s lines = .ok results ∧
        ((Block.assemble lines results = none ∧ lines ≠ [] ∧ result = none) ∨
          ((Block.assemble lines results ≠ none ∨ lines = []) ∧ ∃ after,
            renderSplices s offset (rest.drop (offset - start)) splices = .ok after ∧
            result = after.map fun f => ⟨rest.take (offset - start), []⟩ ++
              (Block.assemble lines results).getD .empty ++ f)) := by
  rw [renderSplices]
  simp only [bind_eq_ok_iff]
  constructor
  · rintro ⟨results, hresults, h⟩
    refine ⟨results, hresults, ?_⟩
    split at h
    · rename_i hnone
      exact .inl ⟨hnone, List.cons_ne_nil _ _, (Except.ok.inj h).symm⟩
    · rename_i hsome
      obtain ⟨after, hafter, h⟩ := bind_eq_ok_iff.1 h
      refine .inr ⟨?_, after, hafter, (Except.ok.inj h).symm⟩
      refine Classical.or_iff_not_imp_right.2 ?_
      intro hne hnone
      obtain ⟨l, ls, hcons⟩ := List.exists_cons_of_ne_nil hne
      exact hsome l ls hnone hcons
  · rintro ⟨results, hresults, ⟨hnone, hne, rfl⟩ | ⟨hsome, after, hafter, rfl⟩⟩
    · refine ⟨results, hresults, ?_⟩
      cases lines with
      | nil => exact absurd rfl hne
      | cons l ls =>
          rw [hnone]
          rfl
    · refine ⟨results, hresults, ?_⟩
      split
      · rename_i hnone
        exact absurd hnone (hsome.resolve_right (List.cons_ne_nil _ _))
      · exact bind_eq_ok_iff.2 ⟨after, hafter, rfl⟩

/-- A splice that drops its line does so wherever it stands, once the splices in front of it are
rendered. -/
theorem renderSplices_append_cons_of_none {splice : Splice} {after : List Splice}
    (h : ∀ start rest, renderSplices s start rest (splice :: after) = .ok none)
    (before : List Splice) (start : Nat) (rest : Text) :
    renderSplices s start rest (before ++ splice :: after) =
      (fun _ => none) <$> renderSplices s start rest before := by
  induction before generalizing start rest with
  | nil => exact h start rest
  | cons b before ih =>
      cases b with
      | directive offset d =>
          rw [List.cons_append, renderSplices, renderSplices, ih]
          cases d.evaluate s with
          | error e => rfl
          | ok c =>
              rw [ok_bind, ok_bind]
              split
              · rfl
              · cases renderSplices s offset (rest.drop (offset - start)) before <;> rfl
      | group offset lines =>
          rw [List.cons_append, renderSplices, renderSplices, ih]
          cases renderAll s lines with
          | error e => rfl
          | ok results =>
              rw [ok_bind, ok_bind]
              split
              · rfl
              · cases renderSplices s offset (rest.drop (offset - start)) before <;> rfl

theorem renderSplices_nil_eq_ok_iff {start : Nat} {rest : Text} {result : Option Fragment} :
    renderSplices s start rest [] = .ok result ↔ result = some ⟨rest, []⟩ := by
  rw [renderSplices]
  constructor
  · intro h
    exact (Except.ok.inj h).symm
  · rintro rfl
    rfl

end Line

theorem Renderer.render_eq_ok_iff [Runtime] {r : Renderer} {t : Template} {parameters : Parameters}
    {f : Fragment} :
    r.render t parameters = .ok f ↔
      ∃ results, Line.renderAll ⟨r, t.resource, parameters⟩ t.lines = .ok results ∧
        f = (Block.assemble t.lines results).getD .empty := by
  rw [Renderer.render, bind_eq_ok_iff]
  constructor
  · rintro ⟨results, hresults, h⟩
    exact ⟨results, hresults, (Except.ok.inj h).symm⟩
  · rintro ⟨results, hresults, rfl⟩
    exact ⟨results, hresults, rfl⟩

end SqlTemplate
