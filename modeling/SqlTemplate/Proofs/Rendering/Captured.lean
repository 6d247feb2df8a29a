import Mathlib.Data.List.Infix
import SqlTemplate.Proofs.Rendering.Filled
import SqlTemplate.Proofs.Rendering.Joining
import SqlTemplate.Proofs.Template.Reading

/-!
# What becomes of a comparison

A condition takes the comparison in front of it out of its line, so its output is the only place
where the comparison can come back. It does when the condition is not negated, since its rendering
is among the texts that are joined, and when it is negated and all other terms keep the sample. But
a negated condition has no text of its own, so if another term replaces the sample, the output is
that of the other terms alone, and the comparison is missing (`Directive.statedIn_output_iff`).
-/

namespace SqlTemplate

/-- A comparison is stated in a text: its subject stands in front of its operator or of a test of
membership, which the operator becomes for several values. -/
def Comparison.StatedIn (c : Comparison) (t : Text) : Prop :=
  ∃ operator, (operator = c.operator ∨ ∃ m : Marks.Membership, operator = m.operator) ∧
    c.subject ++ ' ' :: operator ++ [' '] <:+: t

theorem Comparison.StatedIn.mono {c : Comparison} {t u : Text} (h : c.StatedIn t) (htu : t <:+: u) :
    c.StatedIn u := by
  obtain ⟨operator, hoperator, hinfix⟩ := h
  exact ⟨operator, hoperator, hinfix.trans htu⟩

namespace Marks

variable {c : Comparison} {count : Nat} {sample : Option Text} {limit : Int} {t : Text}

theorem statedIn_single (c : Comparison) : c.StatedIn (single c) := by
  refine ⟨c.operator, .inl rfl, [], [mark], ?_⟩
  simp [single]

theorem statedIn_test (c : Comparison) (m : Membership) (inner : Text) :
    c.StatedIn (test c.subject m inner) := by
  refine ⟨m.operator, .inr ⟨m, rfl⟩, [], parenthesised inner, ?_⟩
  simp [test]

theorem infix_parenthesised (t : Text) : t <:+: parenthesised t :=
  ⟨['('], [')'], rfl⟩

theorem infix_intercalate_cons (sep t : Text) (ts : List Text) :
    t <:+: List.intercalate sep (t :: ts) := by
  cases ts with
  | nil => rw [List.intercalate_singleton]
  | cons u ts =>
    rw [List.intercalate_cons_cons, List.append_assoc]
    exact (List.prefix_append t _).isInfix

theorem statedIn_of_membership (m : Membership) (hcount : count ≠ 0) (hlimit : 0 ≤ limit)
    (h : membership c.subject m count sample limit = .ok t) : c.StatedIn t := by
  unfold membership at h
  split at h
  · obtain rfl := Except.ok.inj h
    exact statedIn_test c m _
  · split at h
    · obtain rfl := Except.ok.inj h
      exact statedIn_test c m _
    · split at h
      · rename_i sizes hsizes
        obtain rfl := Except.ok.inj h
        obtain ⟨n, rfl⟩ := Int.eq_ofNat_of_zero_le hlimit
        cases n with
        | zero => simp [parts] at hsizes
        | succ n =>
          obtain rfl := Except.ok.inj hsizes
          have hne : partSizes (n + 1) count ≠ [] := partSizes_ne_nil n.succ_ne_zero hcount
          obtain ⟨size, sizes, hparts⟩ := List.exists_cons_of_ne_nil hne
          rw [hparts, List.map_cons]
          exact (statedIn_test c m _).mono
            ((infix_intercalate_cons _ _ _).trans (infix_parenthesised _))
      · simp at h

/-- What a comparison with some values is rendered as states the comparison. -/
theorem statedIn_of_condition {multi : Bool} (hcount : count ≠ 0) (hlimit : 0 ≤ limit)
    (h : condition c count multi sample limit = .ok t) : c.StatedIn t := by
  unfold condition at h
  split at h
  · dsimp only at h
    split at h
    · rename_i hnormalized
      obtain rfl := Except.ok.inj h
      rcases hnormalized with hn | hn
      · rw [hn]
        exact statedIn_test c .isIn [mark]
      · rw [hn]
        exact statedIn_test c .isNotIn [mark]
    · obtain rfl := Except.ok.inj h
      exact statedIn_single c
  · split at h
    · rename_i m _
      exact statedIn_of_membership m hcount hlimit h
    · obtain rfl := Except.ok.inj h
      obtain ⟨n, rfl⟩ := Nat.exists_eq_succ_of_ne_zero hcount
      rw [List.replicate_succ]
      exact (statedIn_single c).mono
        ((infix_intercalate_cons _ _ _).trans (infix_parenthesised _))

end Marks

namespace Contribution

variable {chain : List Contribution} {c : Contribution}

theorem replacement_merge (chain : List Contribution) :
    (merge chain).replacement = mergedReplacement chain := by
  match chain with
  | [] => rfl
  | [c] =>
    rw [merge_singleton, mergedReplacement]
    cases hc : c.replacement with
    | none => simp [hc]
    | some t => cases t <;> simp [hc, text]
  | _ :: _ :: _ => rfl

theorem mergedReplacement_cons_of_replacement {t : Text} (h : c.replacement = some t) :
    mergedReplacement (c :: chain) = some (Block.join (t :: chain.map text)) := by
  have htext : c.text = t := by rw [text, h]; rfl
  rw [mergedReplacement, if_pos (by simp [h]), List.map_cons, htext]
  rfl

/-- What keeps the sample adds nothing to the text of the others. -/
theorem mergedReplacement_keep_cons (chain : List Contribution) :
    mergedReplacement (keep :: chain) = mergedReplacement chain := by
  simp [mergedReplacement, keep, text]

end Contribution

theorem Expression.exists_of_isCondition {e : Expression} (h : e.isCondition = true) :
    ∃ key negated rest, e = .reference .condition key negated :: rest := by
  match e with
  | .reference .condition key negated :: rest => exact ⟨key, negated, rest, rfl⟩

theorem Reference.exists_of_evaluate_condition {s : Scope} {d : Directive} {key : Text}
    {comparison : Comparison} {c : Contribution}
    (hpresent : s.renderer.negatives.isNegative (s.parameters.get key) = false)
    (hcomparison : d.comparison = some comparison)
    (hc : condition.evaluate s d key false = .ok c) :
    ∃ t, Marks.condition comparison (s.parameters.get key).flatten.length
        (s.parameters.get key).resolve.isSequence d.sample s.renderer.limit = .ok t ∧
      c = { Contribution.ofValues (s.parameters.get key).flatten with replacement := some t } := by
  cases ht : Marks.condition comparison (s.parameters.get key).flatten.length
      (s.parameters.get key).resolve.isSequence d.sample s.renderer.limit with
  | ok t =>
    rw [evaluate_condition_of_present hpresent hcomparison ht] at hc
    exact ⟨t, rfl, (Except.ok.inj hc).symm⟩
  | error e => simp [evaluate, hpresent, hcomparison, ht] at hc

namespace Directive

variable {s : Scope} {d : Directive} {comparison : Comparison} {key : Text} {rest : List Term}
  {c : Contribution} {cs : List Contribution}

theorem output_of_replacement {t : Text} (hshown : c.disposed = false)
    (hsample : c.keepsSample = false) (ht : c.replacement = some t) :
    d.output c = ⟨t, c.values⟩ := by
  simp [output, hshown, hsample, ht]

/-- Next to a term that replaces the sample, one that keeps it does not show. -/
theorem output_merge_keep_cons (h : ∃ x ∈ cs, x.keepsSample = false) :
    d.output (.merge (.keep :: cs)) = d.output (.merge cs) := by
  have hothers : (Contribution.merge cs).keepsSample = false := by
    rw [Contribution.keepsSample_merge, List.all_eq_false]
    obtain ⟨x, hx, hsample⟩ := h
    exact ⟨x, hx, by simp [hsample]⟩
  have hsample : (Contribution.merge (.keep :: cs)).keepsSample =
      (Contribution.merge cs).keepsSample := by
    simp [Contribution.keepsSample_merge, Contribution.keep]
  have hdisposed : (Contribution.merge (.keep :: cs)).disposed =
      (Contribution.merge cs).disposed := by
    simp [Contribution.disposed_merge, Contribution.keep]
  have hvalues : (Contribution.merge (.keep :: cs)).values = (Contribution.merge cs).values := by
    simp [Contribution.values_merge, Contribution.keep]
  have hreplacement : (Contribution.merge (.keep :: cs)).replacement =
      (Contribution.merge cs).replacement := by
    rw [Contribution.replacement_merge, Contribution.replacement_merge,
      Contribution.mergedReplacement_keep_cons]
  simp only [output, hsample, hdisposed, hvalues, hreplacement, hothers]

theorem exists_of_evaluate_cons [Runtime] {t : Term} (he : d.expression = t :: rest)
    (hc : d.evaluate s = .ok c) :
    ∃ first cs, Term.evaluate s d t = .ok first ∧ Term.evaluateAll s d rest = .ok cs ∧
      c = .merge (first :: cs) := by
  obtain ⟨chain, hchain, rfl⟩ := evaluate_eq_ok_iff.1 hc
  rw [he, Term.evaluateAll_cons_eq_ok_iff] at hchain
  obtain ⟨first, cs, hfirst, hcs, rfl⟩ := hchain
  exact ⟨first, cs, hfirst, hcs, rfl⟩

theorem dropsLine_of_evaluate [Runtime] {t : Term} (he : d.expression = t :: rest)
    (ht : Term.evaluate s d t = .ok (.drop false)) (hc : d.evaluate s = .ok c)
    (hshown : c.disposed = false) : c.dropsLine = true := by
  obtain ⟨first, cs, hfirst, -, rfl⟩ := exists_of_evaluate_cons he hc
  obtain rfl := Except.ok.inj (ht.symm.trans hfirst)
  rw [Contribution.dropsLine, hshown, Contribution.keepsLine_merge]
  rfl

/-- The rendering of a condition that is not negated is the first of the texts that are joined. -/
theorem output_of_condition [Runtime] (he : d.expression = .reference .condition key false :: rest)
    (hcomparison : d.comparison = some comparison) (hc : d.evaluate s = .ok c)
    (hkept : c.dropsLine = false) (hshown : c.disposed = false) :
    ∃ cs rendering, Term.evaluateAll s d rest = .ok cs ∧
      Marks.condition comparison (s.parameters.get key).flatten.length
        (s.parameters.get key).resolve.isSequence d.sample s.renderer.limit = .ok rendering ∧
      (s.parameters.get key).flatten.length ≠ 0 ∧
      (d.output c).sql = Block.join (rendering :: cs.map Contribution.text) := by
  cases habsent : s.renderer.negatives.isNegative (s.parameters.get key) with
  | true =>
    have hdrop := dropsLine_of_evaluate he (Reference.evaluate_of_absent false habsent) hc hshown
    exact absurd (hdrop.symm.trans hkept) (by decide)
  | false =>
    obtain ⟨first, cs, hfirst, hcs, rfl⟩ := exists_of_evaluate_cons he hc
    obtain ⟨rendering, hrendering, rfl⟩ :=
      Reference.exists_of_evaluate_condition habsent hcomparison hfirst
    refine ⟨cs, rendering, hcs, hrendering, Value.length_flatten_ne_zero_of_present habsent, ?_⟩
    have hreplacement := Contribution.replacement_merge
      ({ Contribution.ofValues (s.parameters.get key).flatten with
        replacement := some rendering } :: cs)
    rw [Contribution.mergedReplacement_cons_of_replacement rfl] at hreplacement
    rw [output_of_replacement hshown (by rw [Contribution.keepsSample_merge]; rfl) hreplacement]

/-- A negated condition only keeps the sample. -/
theorem exists_merge_keep_cons [Runtime]
    (he : d.expression = .reference .condition key true :: rest)
    (hc : d.evaluate s = .ok c) (hkept : c.dropsLine = false) (hshown : c.disposed = false) :
    ∃ cs, Term.evaluateAll s d rest = .ok cs ∧ c = .merge (.keep :: cs) := by
  cases habsent : s.renderer.negatives.isNegative (s.parameters.get key) with
  | false =>
    have hdrop := dropsLine_of_evaluate he (Reference.evaluate_negated_of_present habsent) hc hshown
    exact absurd (hdrop.symm.trans hkept) (by decide)
  | true =>
    obtain ⟨first, cs, hfirst, hcs, rfl⟩ := exists_of_evaluate_cons he hc
    obtain rfl := Except.ok.inj ((Reference.evaluate_of_absent true habsent).symm.trans hfirst)
    exact ⟨cs, hcs, rfl⟩

/-- Where all terms keep the sample, the comparison is written as it was. -/
theorem output_merge_of_keepsSample {sample : Text} (hcomparison : d.comparison = some comparison)
    (hsample : d.sample = some sample) (hshown : (Contribution.merge cs).disposed = false)
    (h : ∀ x ∈ cs, x.keepsSample = true) :
    d.output (.merge cs) =
      ⟨comparison.subject ++ ' ' :: comparison.operator ++ ' ' :: sample, []⟩ := by
  have hkeeps : (Contribution.merge cs).keepsSample = true := by
    rw [Contribution.keepsSample_merge, List.all_eq_true]
    exact h
  simp [output, hshown, hkeeps, hcomparison, hsample]

/-- The output of a directive that keeps its line and took a comparison out of it, term by term: the
rendering of the comparison in front of the texts of the other terms, or the comparison as it was, or
the output of the other terms alone. So the comparison is stated unless the condition is negated,
another term replaces the sample, and the comparison is not by chance stated by that one. -/
theorem statedIn_output_iff [Runtime] {registry : Registry} {resource : Option Text} {text : Text}
    {t : Template} (ht : Template.parse registry resource text = .ok t)
    (hd : d ∈ t.deepDirectives) (hcomparison : d.comparison = some comparison)
    (hc : d.evaluate s = .ok c) (hkept : c.dropsLine = false) (hshown : c.disposed = false) :
    ∃ key negated rest sample cs,
      d.expression = .reference .condition key negated :: rest ∧ d.sample = some sample ∧
      Term.evaluateAll s d rest = .ok cs ∧
      (negated = false → ∃ rendering,
        Marks.condition comparison (s.parameters.get key).flatten.length
          (s.parameters.get key).resolve.isSequence d.sample s.renderer.limit = .ok rendering ∧
        (d.output c).sql = Block.join (rendering :: cs.map Contribution.text) ∧
        (0 ≤ s.renderer.limit → comparison.StatedIn rendering)) ∧
      (negated = true → (∀ x ∈ cs, x.keepsSample = true) →
        d.output c = ⟨comparison.subject ++ ' ' :: comparison.operator ++ ' ' :: sample, []⟩) ∧
      (negated = true → (∃ x ∈ cs, x.keepsSample = false) →
        d.output c = d.output (.merge cs)) ∧
      (0 ≤ s.renderer.limit → (comparison.StatedIn (d.output c).sql ↔
        negated = false ∨ (∀ x ∈ cs, x.keepsSample = true) ∨
          comparison.StatedIn (d.output (.merge cs)).sql)) := by
  obtain ⟨hcondition, hsome⟩ := isCondition_of_parse ht d hd comparison hcomparison
  obtain ⟨sample, hsample⟩ := Option.isSome_iff_exists.1 hsome
  obtain ⟨key, negated, rest, he⟩ := Expression.exists_of_isCondition hcondition
  cases negated with
  | false =>
    obtain ⟨cs, rendering, hcs, hrendering, hcount, houtput⟩ :=
      output_of_condition he hcomparison hc hkept hshown
    have hstated (hlimit : 0 ≤ s.renderer.limit) : comparison.StatedIn rendering :=
      Marks.statedIn_of_condition hcount hlimit hrendering
    refine ⟨key, false, rest, sample, cs, he, hsample, hcs,
      fun _ => ⟨rendering, hrendering, houtput, hstated⟩, by simp, by simp, fun hlimit => ?_⟩
    simp only [true_or, iff_true]
    obtain ⟨gap, -, hjoin⟩ := Block.exists_join_cons rendering (cs.map Contribution.text)
    rw [houtput, hjoin]
    exact (hstated hlimit).mono (List.prefix_append ..).isInfix
  | true =>
    obtain ⟨cs, hcs, rfl⟩ := exists_merge_keep_cons he hc hkept hshown
    have hwritten (hkeep : ∀ x ∈ cs, x.keepsSample = true) :
        d.output (.merge (.keep :: cs)) =
          ⟨comparison.subject ++ ' ' :: comparison.operator ++ ' ' :: sample, []⟩ :=
      output_merge_of_keepsSample hcomparison hsample hshown
        (List.forall_mem_cons.2 ⟨rfl, hkeep⟩)
    refine ⟨key, true, rest, sample, cs, he, hsample, hcs, by simp, fun _ => hwritten,
      fun _ => output_merge_keep_cons, fun _ => ?_⟩
    by_cases hkeep : ∀ x ∈ cs, x.keepsSample = true
    · rw [hwritten hkeep]
      refine iff_of_true ⟨comparison.operator, .inl rfl, [], sample, ?_⟩ (.inr (.inl hkeep))
      simp
    · have hreplaced : ∃ x ∈ cs, x.keepsSample = false := by simpa using hkeep
      rw [output_merge_keep_cons hreplaced]
      simp [hkeep]

/-- A negated condition on `id = 1` next to one other term. -/
def unlessA (source : Text) (other : Term) : Directive where
  source := source
  expression := [.reference .condition ['a'] true, other]
  sample := some ['1']
  comparison := some ⟨"id".toList, ['=']⟩
  line := some 1

theorem statedIn_output_iff_presence :
    let text : Text := "SELECT * FROM t WHERE id = /* ?!a &b */1".toList
    let d := unlessA "?!a &b".toList (.reference .presence ['b'] false)
    let t : Template := ⟨[.mk "SELECT * FROM t WHERE ".toList 1 1 [.directive 22 d] none], none⟩
    let s : Scope := ⟨.standard, none, ⟨[(['b'], .int 2)]⟩⟩
    Template.parse .standard none text = .ok t ∧ d ∈ t.deepDirectives ∧
      ∃ c, d.evaluate s = .ok c ∧ c.dropsLine = false ∧ c.disposed = false ∧
        Comparison.StatedIn ⟨"id".toList, ['=']⟩ (d.output c).sql := by
  intro text d t s
  have ht : Template.parse .standard none text = .ok t := by with_unfolding_all rfl
  have hd : d ∈ t.deepDirectives := List.mem_singleton_self d
  have hc : d.evaluate s = .ok (.merge [.keep, .keep]) := rfl
  obtain ⟨key, negated, rest, sample, cs, he, -, hcs, -, -, -, hiff⟩ :=
    statedIn_output_iff ht hd rfl hc rfl rfl
  have hrest : rest = [.reference .presence ['b'] false] := (List.cons.inj he).2.symm
  have hkeep : cs = [.keep] := by
    rw [hrest] at hcs
    exact (Except.ok.inj hcs).symm
  refine ⟨ht, hd, _, hc, rfl, rfl, (hiff (by decide)).2 (.inr (.inl ?_))⟩
  rw [hkeep]
  exact List.forall_mem_singleton.2 rfl

/-- With a parameter behind it, a negated condition takes its comparison out of the statement. -/
theorem not_statedIn_output_param :
    let text : Text := "SELECT * FROM t WHERE id = /* ?!a $b */1".toList
    let d := unlessA "?!a $b".toList (.reference .param ['b'] false)
    let t : Template := ⟨[.mk "SELECT * FROM t WHERE ".toList 1 1 [.directive 22 d] none], none⟩
    let p : Parameters := ⟨[(['b'], .int 2)]⟩
    Template.parse .standard none text = .ok t ∧ d ∈ t.deepDirectives ∧
      (∃ c, d.evaluate ⟨.standard, none, p⟩ = .ok c ∧ c.dropsLine = false ∧ c.disposed = false ∧
        (d.output c).sql = ['?'] ∧
        ¬ Comparison.StatedIn ⟨"id".toList, ['=']⟩ (d.output c).sql) ∧
      Renderer.standard.render t p = .ok ⟨"SELECT * FROM t WHERE ?".toList, [.int 2]⟩ := by
  intro text d t p
  have ht : Template.parse .standard none text = .ok t := by with_unfolding_all rfl
  have hc : d.evaluate ⟨.standard, none, p⟩ = .ok (.merge [.keep, .ofValues [.int 2]]) := rfl
  have hrendered : Renderer.standard.render t p =
      .ok ⟨"SELECT * FROM t WHERE ?".toList, [.int 2]⟩ := by
    simp only [Renderer.render, t, Line.renderAll, Line.render, Line.renderSplices, hc]
    rfl
  refine ⟨ht, List.mem_singleton_self d, ⟨_, hc, rfl, rfl, rfl, ?_⟩, hrendered⟩
  -- the subject alone is longer than the output
  rintro ⟨operator, -, hinfix⟩
  have hlength := hinfix.length_le
  change (_ : List Char).length ≤ (['?'] : Text).length at hlength
  simp at hlength

end Directive

end SqlTemplate
