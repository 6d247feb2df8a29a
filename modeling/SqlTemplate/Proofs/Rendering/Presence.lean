import SqlTemplate.Proofs.Rendering.Affirmative
import SqlTemplate.Proofs.Rendering.Completion

/-!
# What drops a line

Whether a directive drops its line is decided by which parameters are present, and by nothing else
of them. The verdict of a term is defined by recursion on the term (`Term.verdict`): a reference asks
for the presence of its key, groups and functions put the verdicts of their operands together, and
the conditional functions choose between them. Whatever a directive contributes has this verdict, and
the line is dropped for it just where the verdict keeps neither the line nor an output to remove
(`Directive.evaluate_verdict`).
-/

namespace SqlTemplate

/-- What is to become of a line: whether it is kept, and whether an output is removed from it and the
line kept all the same. -/
structure Verdict where
  keepsLine : Bool
  disposed : Bool
deriving DecidableEq, Repr

namespace Verdict

def kept : Verdict := ⟨true, false⟩

def dropped : Verdict := ⟨false, false⟩

/-- The verdict of a chain: the line is kept if all keep it. -/
def all (chain : List Verdict) : Verdict := ⟨chain.all keepsLine, chain.any disposed⟩

/-- Chains that are put together have the verdict of one chain. -/
theorem all_cons_all (inside chain : List Verdict) :
    all (all inside :: chain) = all (inside ++ chain) := by
  simp [all]

/-- The verdict of a condition that holds: that of what follows, if anything does. -/
def ofHolding (condition : Verdict) (rest : List Verdict) : Verdict :=
  if rest.isEmpty then ⟨true, condition.disposed⟩ else all rest

end Verdict

namespace Contribution

def verdict (c : Contribution) : Verdict := ⟨c.keepsLine, c.disposed⟩

theorem verdict_merge (chain : List Contribution) :
    (merge chain).verdict = .all (chain.map verdict) := by
  rw [verdict, keepsLine_merge, disposed_merge, Verdict.all, List.all_map, List.any_map]
  rfl

theorem verdict_ofHolding (condition : Contribution) (rest : List Contribution) :
    (ofHolding condition rest).verdict = condition.verdict.ofHolding (rest.map verdict) := by
  cases rest with
  | nil => rfl
  | cons c rest => exact verdict_merge (c :: rest)

theorem dropsLine_eq_true_iff {c : Contribution} : c.dropsLine = true ↔ c.verdict = .dropped := by
  rw [dropsLine, verdict, Verdict.dropped, Verdict.mk.injEq, Bool.and_eq_true, Bool.not_eq_true',
    Bool.not_eq_true']

end Contribution

namespace Function

/-- The verdict of a conditional function with a condition and what follows it. -/
def verdictOf (f : Function) (negated : Bool) (condition : Verdict) (rest : List Verdict) : Verdict :=
  if condition.keepsLine != negated then condition.ofHolding rest
  else if f = ifOutput then ⟨false, true⟩
  else ⟨false, condition.disposed⟩

/-- The verdict of a function that is applied to chains with these verdicts. -/
def verdict (f : Function) (negated : Bool) (inside : Option (List Verdict))
    (chain : List Verdict) : Verdict :=
  match f with
  | ifPresent | ifOutput =>
    match inside, chain with
    | some inside, rest => f.verdictOf negated (.all inside) rest
    | none, condition :: rest => f.verdictOf negated condition rest
    | none, [] => .kept
  | _ => .all (inside.getD [] ++ chain)

end Function

mutual

/-- The verdict of a term, given which keys are present. -/
def Term.verdict (registry : Registry) (present : Text → Bool) : Term → Verdict
  | .reference _ key negated => ⟨present key != negated, false⟩
  | .required _ | .literal _ => .kept
  | .group chain => .all (Term.verdictAll registry present chain)
  | .call name negated inside chain =>
    match registry.find? name with
    | none => .kept
    | some f => f.verdict negated (Term.verdictInside registry present inside)
        (Term.verdictAll registry present chain)

/-- The verdicts of the terms inside of the parentheses of a call. -/
def Term.verdictInside (registry : Registry) (present : Text → Bool) :
    Option (List Term) → Option (List Verdict)
  | none => none
  | some chain => some (Term.verdictAll registry present chain)

def Term.verdictAll (registry : Registry) (present : Text → Bool) : List Term → List Verdict
  | [] => []
  | t :: ts => Term.verdict registry present t :: Term.verdictAll registry present ts

end

/-- The verdict of a directive. -/
def Expression.verdict (registry : Registry) (present : Text → Bool) (e : Expression) : Verdict :=
  .all (Term.verdictAll registry present e)

/-- Whether a parameter is present: it is there and not negative. -/
def Scope.present (s : Scope) (key : Text) : Bool :=
  !s.renderer.negatives.isNegative (s.parameters.get key)

namespace Function

open Contribution

variable {f : Function} {n : Negatives} {negated : Bool} {inside : Option (List Contribution)}
  {chain rest : List Contribution} {c condition : Contribution}

theorem verdict_of_transformed [Runtime] (h : f.Transformed n chain c) :
    c.verdict = .all (chain.map Contribution.verdict) := by
  obtain ⟨hkeeps, hdisposed⟩ := keepsLine_disposed_of_transformed h
  rw [Contribution.verdict, hkeeps, hdisposed, Verdict.all, List.all_map, List.any_map]
  rfl

/-- A function that transforms chains has the verdict of all that it is applied to. -/
theorem verdict_eq_all [Runtime] (h : f.Transformed n chain c) (negated : Bool)
    (ins : Option (List Verdict)) (vs : List Verdict) :
    f.verdict negated ins vs = .all (ins.getD [] ++ vs) := by
  cases h <;> rfl

/-- A conditional function has the verdict of its condition and what follows it. -/
theorem verdict_eq_verdictOf (hf : f = ifPresent ∨ f = ifOutput)
    (h : condition? inside chain = some (condition, rest)) (negated : Bool) :
    f.verdict negated (inside.map (List.map Contribution.verdict))
        (chain.map Contribution.verdict) =
      f.verdictOf negated condition.verdict (rest.map Contribution.verdict) := by
  cases inside with
  | some ins =>
    obtain ⟨rfl, rfl⟩ := Prod.mk.inj (Option.some.inj h)
    rw [verdict_merge]
    rcases hf with rfl | rfl <;> rfl
  | none =>
    cases chain with
    | nil => cases h
    | cons x chain =>
      obtain ⟨rfl, rfl⟩ := Prod.mk.inj (Option.some.inj h)
      rcases hf with rfl | rfl <;> rfl

/-- What a function contributes has the verdict of the function. -/
theorem verdict_of_apply [Runtime] (h : f.apply n negated inside chain = .ok c) :
    c.verdict = f.verdict negated (inside.map (List.map Contribution.verdict))
      (chain.map Contribution.verdict) := by
  rcases apply_eq_ok_iff.1 h with ⟨t, ht, rfl⟩ | ⟨hf, condition, rest, hcondition, rfl⟩
  · rw [verdict_eq_all ht]
    have hverdict := verdict_of_transformed ht
    cases inside with
    | none => exact hverdict
    | some ins =>
      rw [followed, verdict_merge, List.map_cons, hverdict, Verdict.all_cons_all]
      rfl
  · rw [verdict_eq_verdictOf hf hcondition, verdictOf, settle]
    change _ = if (condition.keepsLine != negated) = true then _ else _
    split
    · exact verdict_ofHolding condition rest
    · rcases hf with rfl | rfl <;> rfl

end Function

namespace Reference

variable {s : Scope} {d : Directive} {kind : Reference} {key : Text} {negated : Bool}
  {c : Contribution}

theorem verdict_evaluate (h : kind.evaluate s d key negated = .ok c) :
    c.verdict = ⟨s.present key != negated, false⟩ := by
  rw [Scope.present]
  cases habsent : s.renderer.negatives.isNegative (s.parameters.get key) with
  | true =>
    rw [evaluate_of_absent negated habsent] at h
    obtain rfl := Except.ok.inj h
    cases negated <;> rfl
  | false =>
    cases negated with
    | true =>
      rw [evaluate_negated_of_present habsent] at h
      obtain rfl := Except.ok.inj h
      rfl
    | false =>
      unfold evaluate at h
      simp only [habsent, bne_self_eq_false, Bool.false_eq_true, if_false] at h
      split at h
      · obtain rfl := Except.ok.inj h
        rfl
      · split at h
        · split at h
          · obtain rfl := Except.ok.inj h
            rfl
          · cases h
        · obtain rfl := Except.ok.inj h
          rfl

end Reference

mutual

/-- What a term contributes has the verdict of the term. -/
theorem Term.verdict_evaluate [Runtime] {s : Scope} {d : Directive} (t : Term) {c : Contribution}
    (h : Term.evaluate s d t = .ok c) : c.verdict = t.verdict s.renderer.registry s.present := by
  cases t with
  | reference kind key negated => exact Reference.verdict_evaluate h
  | required key =>
    rw [Term.evaluate] at h
    split at h
    · cases h
    · obtain rfl := Except.ok.inj h
      rfl
  | literal t =>
    obtain rfl := Except.ok.inj h
    rfl
  | group chain =>
    obtain ⟨cs, hcs, rfl⟩ := Term.evaluate_group_eq_ok_iff.1 h
    rw [Contribution.verdict_merge, Term.verdict_evaluateAll chain hcs, Term.verdict]
  | call name negated inside chain =>
    obtain ⟨f, ins, cs, hf, hins, hcs, happly⟩ := Term.evaluate_call_eq_ok_iff.1 h
    rw [Function.verdict_of_apply happly, Term.verdict_evaluateInside inside hins,
      Term.verdict_evaluateAll chain hcs, Term.verdict, hf]

theorem Term.verdict_evaluateInside [Runtime] {s : Scope} {d : Directive}
    (inside : Option (List Term))
    {ins : Option (List Contribution)} (h : Term.evaluateInside s d inside = .ok ins) :
    ins.map (List.map Contribution.verdict) =
      Term.verdictInside s.renderer.registry s.present inside := by
  rcases Term.evaluateInside_eq_ok_iff.1 h with ⟨rfl, rfl⟩ | ⟨chain, cs, rfl, hcs, rfl⟩
  · rfl
  · exact congrArg some (Term.verdict_evaluateAll chain hcs)

theorem Term.verdict_evaluateAll [Runtime] {s : Scope} {d : Directive} (ts : List Term)
    {cs : List Contribution} (h : Term.evaluateAll s d ts = .ok cs) :
    cs.map Contribution.verdict = Term.verdictAll s.renderer.registry s.present ts := by
  cases ts with
  | nil =>
    obtain rfl := Term.evaluateAll_nil_eq_ok_iff.1 h
    rfl
  | cons t ts =>
    obtain ⟨c, rest, hc, hrest, rfl⟩ := Term.evaluateAll_cons_eq_ok_iff.1 h
    rw [List.map_cons, Term.verdict_evaluate t hc, Term.verdict_evaluateAll ts hrest,
      Term.verdictAll]

end

namespace Line

variable {s : Scope}

theorem isSome_bind_map (x : Except RenderError (Option Fragment)) (f : Fragment → Fragment) :
    Option.isSome <$> (x >>= fun after => pure (after.map f)) = Option.isSome <$> x := by
  cases x with
  | error e => rfl
  | ok after => cases after <;> rfl

/-- Whether a line is kept depends on each of its splices and on whether the others keep it. -/
theorem isSome_renderSplices_cons [Runtime] (splice : Splice) {splices splices' : List Splice}
    (h : ∀ start start' rest rest', Option.isSome <$> renderSplices s start rest splices =
      Option.isSome <$> renderSplices s start' rest' splices')
    (start start' : Nat) (rest rest' : Text) :
    Option.isSome <$> renderSplices s start rest (splice :: splices) =
      Option.isSome <$> renderSplices s start' rest' (splice :: splices') := by
  cases splice with
  | directive offset d =>
    rw [renderSplices, renderSplices]
    cases d.evaluate s with
    | error e => rfl
    | ok c =>
      rw [ok_bind, ok_bind]
      split
      · rfl
      · rw [isSome_bind_map, isSome_bind_map]
        exact h ..
  | group offset lines =>
    rw [renderSplices, renderSplices]
    cases renderAll s lines with
    | error e => rfl
    | ok results =>
      rw [ok_bind, ok_bind]
      split
      · rfl
      · rw [isSome_bind_map, isSome_bind_map]
        exact h ..

/-- Whether a line is kept does not depend on its text. -/
theorem isSome_renderSplices [Runtime] (splices : List Splice) (start start' : Nat)
    (rest rest' : Text) :
    Option.isSome <$> renderSplices s start rest splices =
      Option.isSome <$> renderSplices s start' rest' splices := by
  induction splices generalizing start start' rest rest' with
  | nil => rfl
  | cons splice splices ih => exact isSome_renderSplices_cons splice ih start start' rest rest'

/-- A directive that does not drop its line leaves it to the other splices whether it is kept. -/
theorem isSome_renderSplices_of_directive [Runtime] {offset : Nat} {d : Directive}
    {c : Contribution}
    (hc : d.evaluate s = .ok c) (hkeeps : c.dropsLine = false) (before after : List Splice)
    (start start' : Nat) (rest rest' : Text) :
    Option.isSome <$> renderSplices s start rest (before ++ .directive offset d :: after) =
      Option.isSome <$> renderSplices s start' rest' (before ++ after) := by
  induction before generalizing start start' rest rest' with
  | nil =>
    rw [List.nil_append, List.nil_append, renderSplices, hc, ok_bind, hkeeps]
    exact (isSome_bind_map _ _).trans (isSome_renderSplices ..)
  | cons splice before ih => exact isSome_renderSplices_cons splice ih start start' rest rest'

end Line

/-- A compiled directive whose required parameters are present contributes something, unless a list of
it has to be split into parts of no values, or it joins a value that holds a whole number with more
digits than the runtime allows. Whatever it contributes has the verdict of its expression, which looks
at the presence of parameters only. The line is dropped for the directive if the verdict keeps neither
the line nor an output to remove, and otherwise the line is kept or dropped as it is without the
directive. -/
theorem Directive.evaluate_verdict [Runtime] {s : Scope} {d : Directive} {source : Text}
    (hcompiled : Expression.compile s.renderer.registry source = .ok d.expression)
    (hrequired : ∀ key, .required key ∈ Term.subtermsAll d.expression → s.present key = true) :
    ((∃ c, d.evaluate s = .ok c) ∨
      (s.renderer.limit = 0 ∧ d.evaluate s = .error .zeroLimit) ∨
      Runtime.digitLimit ≠ 0 ∧ d.Overlong s.renderer s.parameters ∧
        d.evaluate s = .error .tooManyDigits) ∧
    ∀ c, d.evaluate s = .ok c →
      c.verdict = d.expression.verdict s.renderer.registry s.present ∧
      ∀ before after offset start rest,
        (c.verdict = .dropped →
          Line.renderSplices s start rest (before ++ .directive offset d :: after) =
            (fun _ => none) <$> Line.renderSplices s start rest before) ∧
        (c.verdict ≠ .dropped →
          Option.isSome <$> Line.renderSplices s start rest (before ++ .directive offset d :: after) =
            Option.isSome <$> Line.renderSplices s start rest (before ++ after)) := by
  constructor
  · have hvalid := Term.forall_mem_subtermsAll_iff.2 (Expression.sound_of_compile hcompiled)
    have hfulfilled : d.Fulfilled s.renderer s.resource s.parameters fun e =>
        (e = .zeroLimit ∧ s.renderer.limit = 0) ∨
          (e = .tooManyDigits ∧ d.Overlong s.renderer s.parameters) := by
      intro u hu
      refine ⟨hvalid u hu, fun key hkey habsent => ?_, fun hoverlong => .inr ⟨rfl, u, hu, hoverlong⟩⟩
      cases u with
      | required k =>
        obtain rfl := Option.some.inj hkey
        have hpresent := hrequired k hu
        rw [Scope.present, habsent] at hpresent
        cases hpresent
      | _ => cases hkey
    have hreason := (Term.failsOnly_evaluateAll d (fun hzero => .inl ⟨rfl, hzero⟩) d.expression
      hfulfilled).map Contribution.merge
    cases hrun : d.evaluate s with
    | ok c => exact .inl ⟨c, rfl⟩
    | error e =>
      rcases hreason e hrun with ⟨rfl, hzero⟩ | ⟨rfl, hoverlong⟩
      · exact .inr (.inl ⟨hzero, rfl⟩)
      · exact .inr (.inr ⟨hoverlong.digitLimit_ne_zero, hoverlong, rfl⟩)
  · intro c hc
    obtain ⟨cs, hcs, rfl⟩ := Directive.evaluate_eq_ok_iff.1 hc
    refine ⟨?_, fun before after offset start rest => ⟨fun hdropped => ?_, fun hkept => ?_⟩⟩
    · rw [Contribution.verdict_merge, Term.verdict_evaluateAll d.expression hcs, Expression.verdict]
    · refine Line.renderSplices_append_cons_of_none (fun start rest => ?_) before start rest
      exact Line.renderSplices_directive_eq_ok_iff.2
        ⟨_, hc, .inl ⟨Contribution.dropsLine_eq_true_iff.2 hdropped, rfl⟩⟩
    · refine Line.isSome_renderSplices_of_directive hc ?_ before after start start rest rest
      exact Bool.eq_false_iff.2 (mt Contribution.dropsLine_eq_true_iff.1 hkept)

/-- A condition inside of a condition in front of a required parameter. -/
def Directive.conditionsAndKey : Directive where
  source := "%!IF(&k) (%IFLN &x 'y') | @r".toList
  expression :=
    [.call "IF".toList true (some [.reference .presence "k".toList false])
        [.group [.call "IFLN".toList false none
          [.reference .presence "x".toList false, .literal "y".toList]]],
      .required "r".toList]
  sample := some "1".toList
  comparison := none
  line := some 1

/-- Without `k` the outer condition holds, and without `x` the inner one removes the output. -/
theorem Directive.evaluate_verdict_conditionsAndKey :
    let d : Directive := .conditionsAndKey
    let s : Scope := ⟨.standard, none, ⟨[("r".toList, .int 1)]⟩⟩
    Expression.compile .standard d.source = .ok d.expression ∧
      (∀ key, .required key ∈ Term.subtermsAll d.expression → s.present key = true) ∧
      d.expression.verdict .standard s.present = ⟨false, true⟩ ∧
      ∃ c, d.evaluate s = .ok c ∧ c.verdict = d.expression.verdict .standard s.present := by
  intro d s
  have hcompiled : Expression.compile .standard d.source = .ok d.expression := by
    with_unfolding_all rfl
  have hrequired : ∀ key, .required key ∈ Term.subtermsAll d.expression →
      s.present key = true := by
    intro key hkey
    have hmem : key ∈ (Term.subtermsAll d.expression).filterMap Term.requiredKey? :=
      List.mem_filterMap.2 ⟨_, hkey, rfl⟩
    obtain rfl : key = "r".toList := List.mem_singleton.1 hmem
    rfl
  obtain ⟨-, hall⟩ := evaluate_verdict hcompiled hrequired
  exact ⟨hcompiled, hrequired, rfl, _, rfl, (hall _ rfl).1⟩

/-- Directives without required parameters contribute nothing, and so have no verdict, where a list has
to be split into parts of no values and where the number that is joined is too long. -/
theorem Directive.evaluate_verdict_zeroLimit_leastTooLong :
    (let d : Directive := .equality 1
      let s : Scope := ⟨⟨.none, .standard, 0⟩, none, .twoNumbers⟩
      Expression.compile .standard d.source = .ok d.expression ∧
        (∀ key, .required key ∈ Term.subtermsAll d.expression → s.present key = true) ∧
        d.expression.verdict .standard s.present = .kept ∧
        ¬∃ c, d.evaluate s = .ok c ∧ c.verdict = d.expression.verdict .standard s.present) ∧
    (let d : Directive := .concatenation 1
      let s : Scope := ⟨.standard, none, .ofNumber Decimal.leastTooLong⟩
      Expression.compile .standard d.source = .ok d.expression ∧
        (∀ key, .required key ∈ Term.subtermsAll d.expression → s.present key = true) ∧
        d.expression.verdict .standard s.present = .kept ∧
        ¬∃ c, d.evaluate s = .ok c ∧ c.verdict = d.expression.verdict .standard s.present) := by
  have hnone {d : Directive} {key : Text}
      (h : (Term.subtermsAll d.expression).filterMap Term.requiredKey? = []) :
      .required key ∉ Term.subtermsAll d.expression := by
    intro hkey
    have hmem : key ∈ (Term.subtermsAll d.expression).filterMap Term.requiredKey? :=
      List.mem_filterMap.2 ⟨_, hkey, rfl⟩
    rw [h] at hmem
    cases hmem
  refine ⟨⟨by with_unfolding_all rfl, fun key hkey => absurd hkey (hnone rfl), rfl, ?_⟩,
    ⟨by with_unfolding_all rfl, fun key hkey => absurd hkey (hnone rfl), rfl, ?_⟩⟩
  · rintro ⟨c, hc, -⟩
    rw [Directive.evaluate_equality_of_zeroLimit 1] at hc
    cases hc
  · rintro ⟨c, hc, -⟩
    have htooLong := Decimal.tooLong_leastTooLong (by decide)
    rw [Directive.evaluate_concatenation_of_tooLong htooLong 1] at hc
    cases hc

end SqlTemplate
