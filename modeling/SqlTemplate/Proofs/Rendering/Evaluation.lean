import SqlTemplate.Proofs.Directive.Subterms
import SqlTemplate.Proofs.Rendering.Application

/-!
# What evaluation keeps

Contributions are only ever merged, transformed by functions, or replaced by one that drops the line
or keeps it as it is. `Contribution.Kept` lists what a property of contributions must withstand for
that; `Kept.of_evaluate` and `Kept.of_evaluateAll` say that then whatever terms contribute has it, if
what references and literals contribute has.
-/

namespace SqlTemplate

/-- A property of contributions that is kept by everything that is made of them. Leaving out values
and writing them into the text matters only if the functions that do so are `Admitted`. -/
structure Contribution.Kept (Admitted : Function → Prop) (P : Contribution → Prop) : Prop where
  drop : ∀ disposed, P (.drop disposed)
  hold : ∀ disposed, P { keep with disposed := disposed }
  merge : ∀ chain, (∀ c ∈ chain, P c) → P (.merge chain)
  concat : ∀ chain t, P (.joined chain t)
  like : ∀ chain t, P (.pattern chain t)
  escapeLike : ∀ c, P c → P c.escapeLike
  compact : Admitted .compact → ∀ c, P c →
    P { c with values := c.values.filter fun v => !v.isNull }
  sql : Admitted .sql → ∀ chain t, P (.inserted chain t)

/-- A property of what the parameters that are `Named` and present contribute to a directive: their
values, alone or with the comparison that the directive renders. -/
structure Directive.Sources (s : Scope) (d : Directive) (Named : Text → Prop)
    (P : Contribution → Prop) : Prop where
  values : ∀ key, Named key → s.renderer.negatives.isNegative (s.parameters.get key) = false →
    P (.ofValues (s.parameters.get key).flatten)
  condition : ∀ key comparison t, Named key →
    s.renderer.negatives.isNegative (s.parameters.get key) = false →
    d.comparison = some comparison →
    Marks.condition comparison (s.parameters.get key).flatten.length
      (s.parameters.get key).resolve.isSequence d.sample s.renderer.limit = .ok t →
    P { Contribution.ofValues (s.parameters.get key).flatten with replacement := some t }

/-- A term that is no literal, or one with a property, that refers only to keys that are `Named`, and
that calls only the functions `Admitted`. -/
structure Term.Admits (registry : Registry) (Admitted : Function → Prop) (Named : Text → Prop)
    (P : Contribution → Prop) (t : Term) : Prop where
  key : ∀ key, t.key? = some key → Named key
  literal : ∀ u, t.literal? = some u → P (.ofText u)
  callee : ∀ name f, t.callee? = some name → registry.find? name = some f → Admitted f

namespace Contribution.Kept

variable {n : Negatives} {Admitted : Function → Prop} {Named : Text → Prop}
  {P : Contribution → Prop}

theorem ofHolding (k : Kept Admitted P) (condition : Contribution) {chain : List Contribution}
    (h : ∀ c ∈ chain, P c) : P (ofHolding condition chain) := by
  unfold Contribution.ofHolding
  split
  · exact k.hold condition.disposed
  · exact k.merge chain h

theorem transform [Runtime] (k : Kept Admitted P) {f : Function} (hf : Admitted f)
    {chain : List Contribution} (h : ∀ c ∈ chain, P c) {c : Contribution}
    (hc : f.Transformed n chain c) : P c := by
  cases hc with
  | concat => exact k.concat chain _
  | escapeLike =>
      apply k.merge
      intro x hx
      obtain ⟨y, hy, rfl⟩ := List.mem_map.1 hx
      exact k.escapeLike y (h y hy)
  | like => exact k.like _ _
  | compact => exact k.compact hf _ (k.merge chain h)
  | sql => exact k.sql hf chain _

theorem apply [Runtime] (k : Kept Admitted P) {f : Function} (hf : Admitted f) {negated : Bool}
    {ins : Option (List Contribution)} {chain : List Contribution}
    (hins : ∀ cs, ins = some cs → ∀ c ∈ cs, P c) (hchain : ∀ c ∈ chain, P c) {c : Contribution}
    (h : f.apply n negated ins chain = .ok c) : P c := by
  have hoperands : ∀ x ∈ ins.getD chain, P x := by
    cases ins with
    | none => exact hchain
    | some cs => exact hins cs rfl
  rcases Function.apply_eq_ok_iff.1 h with ⟨t, ht, rfl⟩ | ⟨-, condition, rest, hcondition, rfl⟩
  · have htransformed := k.transform hf hoperands ht
    unfold Function.followed
    split
    · exact k.merge _ (List.forall_mem_cons.2 ⟨htransformed, hchain⟩)
    · exact htransformed
  · have hrest : ∀ x ∈ rest, P x := by
      unfold Function.condition? at hcondition
      split at hcondition
      · obtain ⟨-, rfl⟩ := Prod.mk.inj (Option.some.inj hcondition)
        exact hchain
      · simp at hcondition
      · obtain ⟨-, rfl⟩ := Prod.mk.inj (Option.some.inj hcondition)
        exact fun x hx => hchain x (List.mem_cons_of_mem _ hx)
    unfold Function.settle
    split
    · exact k.ofHolding condition hrest
    · exact k.drop _

variable {s : Scope} {d : Directive}

theorem of_reference (k : Kept Admitted P) (hd : d.Sources s Named P) {kind : Reference}
    {key : Text} (hkey : Named key) {negated : Bool} {c : Contribution}
    (h : kind.evaluate s d key negated = .ok c) : P c := by
  cases habsent : s.renderer.negatives.isNegative (s.parameters.get key) with
  | true =>
      rw [Reference.evaluate_of_absent negated habsent] at h
      obtain rfl := Except.ok.inj h
      cases negated with
      | true => exact k.hold false
      | false => exact k.drop false
  | false =>
      unfold Reference.evaluate at h
      dsimp only at h
      rw [habsent] at h
      split at h
      · obtain rfl := Except.ok.inj h
        exact k.drop false
      · split at h
        · obtain rfl := Except.ok.inj h
          exact k.hold false
        · split at h
          · rename_i comparison hcomparison _
            split at h
            · rename_i t ht
              obtain rfl := Except.ok.inj h
              exact hd.condition key comparison t hkey habsent hcomparison ht
            · simp at h
          · obtain rfl := Except.ok.inj h
            exact hd.values key hkey habsent

mutual

theorem of_evaluate [Runtime] (k : Kept Admitted P) (hd : d.Sources s Named P) (t : Term)
    (ht : ∀ u ∈ t.subterms, u.Admits s.renderer.registry Admitted Named P) {c : Contribution}
    (h : Term.evaluate s d t = .ok c) : P c := by
  cases t with
  | reference kind key negated =>
      exact k.of_reference hd ((ht _ (List.mem_singleton_self _)).key key rfl) h
  | required key =>
      rw [Term.evaluate] at h
      split at h
      · simp at h
      · rename_i hpresent
        obtain rfl := Except.ok.inj h
        exact hd.values key ((ht _ (List.mem_singleton_self _)).key key rfl)
          (Bool.not_eq_true _ ▸ hpresent)
  | literal u =>
      obtain rfl := Except.ok.inj h
      exact (ht _ (List.mem_singleton_self _)).literal u rfl
  | group chain =>
      obtain ⟨cs, hcs, rfl⟩ := Term.evaluate_group_eq_ok_iff.1 h
      exact k.merge cs (k.of_evaluateAll hd chain (fun u hu => ht u (List.mem_cons_of_mem _ hu)) hcs)
  | call name negated inside chain =>
      obtain ⟨f, ins, cs, hf, hins, hcs, happly⟩ := Term.evaluate_call_eq_ok_iff.1 h
      have hadmitted := (ht _ (Term.mem_subterms_self _)).callee name f rfl hf
      refine k.apply hadmitted ?_ ?_ happly
      · rcases Term.evaluateInside_eq_ok_iff.1 hins with ⟨-, rfl⟩ | ⟨terms, xs, rfl, hxs, rfl⟩
        · simp
        · intro ys hys
          obtain rfl := Option.some.inj hys
          exact k.of_evaluateAll hd terms
            (fun u hu => ht u (List.mem_cons_of_mem _ (List.mem_append_left _ hu))) hxs
      · exact k.of_evaluateAll hd chain
          (fun u hu => ht u (List.mem_cons_of_mem _ (List.mem_append_right _ hu))) hcs

theorem of_evaluateAll [Runtime] (k : Kept Admitted P) (hd : d.Sources s Named P)
    (ts : List Term) (hts : ∀ u ∈ Term.subtermsAll ts, u.Admits s.renderer.registry Admitted Named P)
    {cs : List Contribution} (h : Term.evaluateAll s d ts = .ok cs) : ∀ c ∈ cs, P c := by
  cases ts with
  | nil =>
      rw [Term.evaluateAll_nil_eq_ok_iff.1 h]
      simp
  | cons t ts =>
      obtain ⟨c, rest, hc, hrest, rfl⟩ := Term.evaluateAll_cons_eq_ok_iff.1 h
      exact List.forall_mem_cons.2
        ⟨k.of_evaluate hd t (fun u hu => hts u (List.mem_append_left _ hu)) hc,
          k.of_evaluateAll hd ts (fun u hu => hts u (List.mem_append_right _ hu)) hrest⟩

end

end Contribution.Kept

end SqlTemplate
