import SqlTemplate.Proofs.Rendering.Evaluation

/-!
# Directives that ask for what is present

A term is affirmative if it is not negated and does not call the function that removes an output and
keeps its line. Affirmative terms dispose of nothing, and they keep their line only if every term
inside of them does (`Function.keepsLine_of_apply`). All that they have looked at is present then. So
where more parameters are supplied, a directive of affirmative terms that keeps its line contributes
the same (`Directive.evaluate_of_supplies`).
-/

namespace SqlTemplate

/-- Parameters that have the value of every parameter that is present among others. Those that are
negative there may have got one. -/
def Parameters.Supplies (q : Parameters) (n : Negatives) (p : Parameters) : Prop :=
  ∀ key, n.isNegative (p.get key) = false → q.get key = p.get key

namespace Term

def isNegated : Term → Bool
  | reference _ _ negated => negated
  | call _ negated _ _ => negated
  | _ => false

/-- A term that is not negated and does not call the function that removes an output in the place of
its line. -/
structure Affirmative (registry : Registry) (t : Term) : Prop where
  plain : t.isNegated = false
  callee : ∀ name f, t.callee? = some name → registry.find? name = some f → f ≠ .ifOutput

end Term

namespace Function

open Contribution

variable {f : Function} {n : Negatives} {negated : Bool} {ins : Option (List Contribution)}
  {chain rest : List Contribution} {c condition : Contribution}

/-- A transformed chain keeps its line, and is disposed of, just as it is without the function. -/
theorem keepsLine_disposed_of_transformed [Runtime] (h : f.Transformed n chain c) :
    c.keepsLine = chain.all keepsLine ∧ c.disposed = chain.any disposed := by
  have hmerged : (merge chain).keepsLine = chain.all keepsLine ∧
      (merge chain).disposed = chain.any disposed := ⟨keepsLine_merge chain, disposed_merge chain⟩
  have hescaped : (merge (chain.map .escapeLike)).keepsLine = chain.all keepsLine ∧
      (merge (chain.map .escapeLike)).disposed = chain.any disposed := by
    rw [keepsLine_merge, disposed_merge, List.all_map, List.any_map]
    exact ⟨rfl, rfl⟩
  cases h with
  | concat => exact hmerged
  | escapeLike => exact hescaped
  | like => exact hescaped
  | compact => exact hmerged
  | sql => exact hmerged

/-- A condition and what follows it are all that a function is applied to. -/
theorem keepsLine_disposed_of_condition? (h : condition? ins chain = some (condition, rest)) :
    (ins.getD [] ++ chain).all keepsLine = (condition.keepsLine && rest.all keepsLine) ∧
      (ins.getD [] ++ chain).any disposed = (condition.disposed || rest.any disposed) := by
  cases ins with
  | some inside =>
    obtain ⟨rfl, rfl⟩ := Prod.mk.inj (Option.some.inj h)
    rw [Option.getD_some, List.all_append, List.any_append, keepsLine_merge, disposed_merge]
    exact ⟨rfl, rfl⟩
  | none =>
    cases chain with
    | nil => cases h
    | cons c chain =>
      obtain ⟨rfl, rfl⟩ := Prod.mk.inj (Option.some.inj h)
      exact ⟨rfl, rfl⟩

/-- A function that is not negated keeps its line only if all that it is applied to does. -/
theorem keepsLine_of_apply [Runtime] (h : f.apply n false ins chain = .ok c)
    (hc : c.keepsLine = true) : (ins.getD [] ++ chain).all keepsLine = true := by
  rcases apply_eq_ok_iff.1 h with ⟨t, ht, rfl⟩ | ⟨-, condition, rest, hcondition, rfl⟩
  · have hkeeps := (keepsLine_disposed_of_transformed ht).1
    cases ins with
    | none => exact hkeeps.symm.trans hc
    | some inside =>
      rw [followed, keepsLine_merge, List.all_cons, hkeeps] at hc
      rwa [List.all_append]
  · rw [(keepsLine_disposed_of_condition? hcondition).1]
    rw [settle] at hc
    cases hholds : condition.keepsLine with
    | false =>
      rw [hholds] at hc
      cases hc
    | true =>
      rw [hholds] at hc
      cases rest with
      | nil => rfl
      | cons x rest => exact (keepsLine_merge _).symm.trans hc

/-- Nothing is disposed of where a function other than the one for that is applied. -/
theorem disposed_of_apply [Runtime] (hf : f ≠ ifOutput) (h : f.apply n negated ins chain = .ok c)
    (hoperands : (ins.getD [] ++ chain).any disposed = false) : c.disposed = false := by
  rcases apply_eq_ok_iff.1 h with ⟨t, ht, rfl⟩ | ⟨-, condition, rest, hcondition, rfl⟩
  · have hdisposed := (keepsLine_disposed_of_transformed ht).2
    cases ins with
    | none => exact hdisposed.trans hoperands
    | some inside =>
      rw [List.any_append] at hoperands
      rwa [followed, disposed_merge, List.any_cons, hdisposed]
  · rw [(keepsLine_disposed_of_condition? hcondition).2, Bool.or_eq_false_iff] at hoperands
    obtain ⟨hdisposed, hrest⟩ := hoperands
    unfold settle
    split
    · unfold ofHolding
      split
      · exact hdisposed
      · rwa [disposed_merge]
    · exact Bool.or_eq_false_iff.2 ⟨beq_eq_false_iff_ne.2 hf, hdisposed⟩

end Function

namespace Reference

variable {s : Scope} {d : Directive} {kind : Reference} {key : Text} {negated : Bool}
  {c : Contribution}

theorem disposed_evaluate (h : kind.evaluate s d key negated = .ok c) : c.disposed = false := by
  unfold evaluate at h
  dsimp only at h
  split at h
  · obtain rfl := Except.ok.inj h
    rfl
  · split at h
    · obtain rfl := Except.ok.inj h
      rfl
    · split at h
      · split at h
        · obtain rfl := Except.ok.inj h
          rfl
        · cases h
      · obtain rfl := Except.ok.inj h
        rfl

end Reference

section Supplied

variable {r : Renderer} {resource : Option Text} {p q : Parameters} {d : Directive}

/-- A reference that keeps its line contributes the same where its parameter has the same value. -/
theorem Reference.evaluate_of_supplies (hsupply : q.Supplies r.negatives p) {kind : Reference}
    {key : Text} {c : Contribution} (h : kind.evaluate ⟨r, resource, p⟩ d key false = .ok c)
    (hc : c.keepsLine = true) : kind.evaluate ⟨r, resource, q⟩ d key false = .ok c := by
  cases habsent : r.negatives.isNegative (p.get key) with
  | true =>
    rw [Reference.evaluate_of_absent false habsent] at h
    obtain rfl := Except.ok.inj h
    cases hc
  | false =>
    unfold Reference.evaluate at h ⊢
    dsimp only at h ⊢
    rw [hsupply key habsent]
    exact h

variable [Runtime]

mutual

/-- An affirmative term disposes of nothing, and where it keeps its line it contributes the same when
more parameters are supplied. -/
theorem Term.evaluate_of_supplies (hsupply : q.Supplies r.negatives p) (t : Term)
    (ht : ∀ u ∈ t.subterms, u.Affirmative r.registry) {c : Contribution}
    (h : Term.evaluate ⟨r, resource, p⟩ d t = .ok c) :
    c.disposed = false ∧ (c.keepsLine = true → Term.evaluate ⟨r, resource, q⟩ d t = .ok c) := by
  cases t with
  | reference kind key negated =>
    obtain rfl : negated = false := (ht _ (Term.mem_subterms_self _)).plain
    exact ⟨Reference.disposed_evaluate h, Reference.evaluate_of_supplies hsupply h⟩
  | required key =>
    rw [Term.evaluate] at h
    split at h
    · cases h
    · rename_i hpresent
      obtain rfl := Except.ok.inj h
      have hpresent : r.negatives.isNegative (p.get key) = false := by simpa using hpresent
      refine ⟨rfl, fun _ => ?_⟩
      rw [Term.evaluate]
      dsimp only
      rw [hsupply key hpresent, hpresent]
      rfl
  | literal t =>
    obtain rfl := Except.ok.inj h
    exact ⟨rfl, fun _ => rfl⟩
  | group chain =>
    obtain ⟨cs, hcs, rfl⟩ := Term.evaluate_group_eq_ok_iff.1 h
    obtain ⟨hdisposed, hagain⟩ := Term.evaluateAll_of_supplies hsupply chain
      (fun u hu => ht u (List.mem_cons_of_mem _ hu)) hcs
    rw [Contribution.disposed_merge, Contribution.keepsLine_merge]
    exact ⟨hdisposed, fun hkeeps =>
      Term.evaluate_group_eq_ok_iff.2 ⟨cs, hagain hkeeps, rfl⟩⟩
  | call name negated inside chain =>
    obtain ⟨f, ins, cs, hf, hins, hcs, happly⟩ := Term.evaluate_call_eq_ok_iff.1 h
    obtain ⟨hplain, hcallee⟩ := ht _ (Term.mem_subterms_self _)
    obtain rfl : negated = false := hplain
    obtain ⟨hinside, hinsAgain⟩ := Term.evaluateInside_of_supplies hsupply inside
      (fun u hu => ht u (List.mem_cons_of_mem _ (List.mem_append_left _ hu))) hins
    obtain ⟨hchain, hcsAgain⟩ := Term.evaluateAll_of_supplies hsupply chain
      (fun u hu => ht u (List.mem_cons_of_mem _ (List.mem_append_right _ hu))) hcs
    constructor
    · refine Function.disposed_of_apply (hcallee name f rfl hf) happly ?_
      rw [List.any_append, hinside, hchain]
      rfl
    · intro hkeeps
      have hall := Function.keepsLine_of_apply happly hkeeps
      rw [List.all_append, Bool.and_eq_true] at hall
      exact Term.evaluate_call_eq_ok_iff.2
        ⟨f, ins, cs, hf, hinsAgain hall.1, hcsAgain hall.2, happly⟩

theorem Term.evaluateInside_of_supplies (hsupply : q.Supplies r.negatives p)
    (inside : Option (List Term))
    (hinside : ∀ u ∈ Term.subtermsInside inside, u.Affirmative r.registry)
    {ins : Option (List Contribution)}
    (h : Term.evaluateInside ⟨r, resource, p⟩ d inside = .ok ins) :
    (ins.getD []).any Contribution.disposed = false ∧
      ((ins.getD []).all Contribution.keepsLine = true →
        Term.evaluateInside ⟨r, resource, q⟩ d inside = .ok ins) := by
  rcases Term.evaluateInside_eq_ok_iff.1 h with ⟨rfl, rfl⟩ | ⟨chain, cs, rfl, hcs, rfl⟩
  · exact ⟨rfl, fun _ => rfl⟩
  · obtain ⟨hdisposed, hagain⟩ := Term.evaluateAll_of_supplies hsupply chain hinside hcs
    exact ⟨hdisposed, fun hkeeps =>
      Term.evaluateInside_eq_ok_iff.2 (.inr ⟨chain, cs, rfl, hagain hkeeps, rfl⟩)⟩

theorem Term.evaluateAll_of_supplies (hsupply : q.Supplies r.negatives p) (ts : List Term)
    (hts : ∀ u ∈ Term.subtermsAll ts, u.Affirmative r.registry) {cs : List Contribution}
    (h : Term.evaluateAll ⟨r, resource, p⟩ d ts = .ok cs) :
    cs.any Contribution.disposed = false ∧
      (cs.all Contribution.keepsLine = true →
        Term.evaluateAll ⟨r, resource, q⟩ d ts = .ok cs) := by
  cases ts with
  | nil =>
    obtain rfl := Term.evaluateAll_nil_eq_ok_iff.1 h
    exact ⟨rfl, fun _ => rfl⟩
  | cons t ts =>
    obtain ⟨c, rest, hc, hrest, rfl⟩ := Term.evaluateAll_cons_eq_ok_iff.1 h
    obtain ⟨hdisposed, hagain⟩ := Term.evaluate_of_supplies hsupply t
      (fun u hu => hts u (List.mem_append_left _ hu)) hc
    obtain ⟨hrestDisposed, hrestAgain⟩ := Term.evaluateAll_of_supplies hsupply ts
      (fun u hu => hts u (List.mem_append_right _ hu)) hrest
    rw [List.any_cons, hdisposed, hrestDisposed, List.all_cons, Bool.and_eq_true]
    exact ⟨rfl, fun hkeeps => Term.evaluateAll_cons_eq_ok_iff.2
      ⟨c, rest, hagain hkeeps.1, hrestAgain hkeeps.2, rfl⟩⟩

end

/-- A directive of affirmative terms. -/
def Directive.Affirmative (registry : Registry) (d : Directive) : Prop :=
  ∀ u ∈ Term.subtermsAll d.expression, u.Affirmative registry

/-- Where more parameters are supplied, an affirmative directive that does not drop its line
contributes the same. -/
theorem Directive.evaluate_of_supplies (hsupply : q.Supplies r.negatives p)
    (hd : d.Affirmative r.registry) {c : Contribution}
    (h : d.evaluate ⟨r, resource, p⟩ = .ok c) (hc : c.dropsLine = false) :
    d.evaluate ⟨r, resource, q⟩ = .ok c := by
  obtain ⟨cs, hcs, rfl⟩ := Directive.evaluate_eq_ok_iff.1 h
  obtain ⟨hdisposed, hagain⟩ := Term.evaluateAll_of_supplies hsupply d.expression hd hcs
  rw [Contribution.dropsLine, Contribution.disposed_merge, hdisposed,
    Contribution.keepsLine_merge] at hc
  have hkeeps : cs.all Contribution.keepsLine = true := by simpa using hc
  exact Directive.evaluate_eq_ok_iff.2 ⟨cs, hagain hkeeps, rfl⟩

end Supplied

end SqlTemplate
