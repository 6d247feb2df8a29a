import Mathlib.Algebra.GroupWithZero.Nat
import SqlTemplate.Proofs.Line.Ending
import SqlTemplate.Proofs.Rendering.Evaluation
import SqlTemplate.Proofs.Template.Reading

/-!
# Counting marks

Whatever is written for `n` values holds `n` marks: the marks that replace a sample, rows, and
comparisons, also those that split a list. From this the contributions of terms are balanced: a text
that stands for values has a mark for each of them, and a sample that stays has no values. Every
function keeps that except those that write values into the text or leave values out.
-/

namespace SqlTemplate

namespace Marks

theorem space_beq_mark : (' ' == mark) = false := by decide

theorem count_intercalate {separator : Text} (h : mark ∉ separator) (ts : List Text) :
    (List.intercalate separator ts).count mark = (ts.map (List.count mark)).sum := by
  induction ts with
  | nil => rfl
  | cons t ts ih =>
      cases ts with
      | nil => simp
      | cons u ts =>
          rw [List.intercalate_cons_cons, List.count_append, List.count_append, ih,
            List.count_eq_zero_of_not_mem h, Nat.add_zero]
          rfl

theorem count_intercalate_replicate {separator : Text} (h : mark ∉ separator) (n : Nat) (t : Text) :
    (List.intercalate separator (List.replicate n t)).count mark = n * t.count mark := by
  rw [count_intercalate h, List.map_replicate, List.sum_replicate_nat]

@[simp] theorem count_list (n : Nat) : (list n).count mark = n := by
  rw [list, count_intercalate_replicate (by decide)]
  simp

@[simp] theorem count_parenthesised (t : Text) : (parenthesised t).count mark = t.count mark := by
  simp [parenthesised, mark]

/-- Rows come out even. -/
theorem count_of_rows? {sample : Option Text} {count : Nat} {t : Text}
    (h : rows? sample count = some t) : t.count mark = count := by
  obtain ⟨-, -, heven, rfl⟩ := rows?_eq_some_iff.1 h
  rw [count_intercalate_replicate (by decide)]
  exact Nat.div_mul_cancel heven

theorem count_bind (count : Nat) (sample : Option Text) :
    (bind count sample).count mark = count := by
  unfold bind
  split
  · rename_i rows hrows
    exact count_of_rows? hrows
  · split
    · rw [count_parenthesised, count_list]
    · exact count_list count

/-- A comparison whose subject and operator hold no mark. -/
structure Clear (c : Comparison) : Prop where
  subject : mark ∉ c.subject
  operator : mark ∉ c.operator

theorem count_test {subject : Text} (h : mark ∉ subject) (m : Membership) (inner : Text) :
    (test subject m inner).count mark = inner.count mark := by
  have hoperator : m.operator.count mark = 0 := by cases m <;> decide
  simp only [test, List.count_append, List.count_cons, hoperator, space_beq_mark,
    count_parenthesised, List.count_eq_zero_of_not_mem h]
  simp

theorem count_single {c : Comparison} (h : Clear c) : (single c).count mark = 1 := by
  simp only [single, List.count_append, List.count_cons, space_beq_mark,
    List.count_eq_zero_of_not_mem h.subject, List.count_eq_zero_of_not_mem h.operator]
  simp

/-- The parts of a list hold all of its values. -/
theorem sum_partSizes {limit : Nat} (hlimit : limit ≠ 0) (count : Nat) :
    (partSizes limit count).sum = count := by
  have hdivided := Nat.div_add_mod' count limit
  rw [partSizes_eq_replicate_append hlimit, List.sum_append, List.sum_replicate_nat]
  split
  · rename_i hmod
    rw [List.sum_nil]
    omega
  · rw [List.sum_singleton]
    exact hdivided

theorem not_mem_joiner (m : Membership) : mark ∉ m.joiner := by
  cases m <;> decide

theorem count_of_membership {subject : Text} (h : mark ∉ subject) {m : Membership} {count : Nat}
    {sample : Option Text} {limit : Int} (hlimit : 1 ≤ limit) {t : Text}
    (ht : membership subject m count sample limit = .ok t) : t.count mark = count := by
  unfold membership at ht
  split at ht
  · rename_i rows hrows
    obtain rfl := Except.ok.inj ht
    rw [count_test h, count_of_rows? hrows]
  · split at ht
    · obtain rfl := Except.ok.inj ht
      rw [count_test h, count_list]
    · obtain ⟨n, rfl⟩ : ∃ n : Nat, limit = ((n + 1 : Nat) : Int) := ⟨limit.toNat - 1, by omega⟩
      obtain rfl := Except.ok.inj ht
      have htests : (List.count mark ∘ fun size => test subject m (list size)) = id := by
        funext size
        rw [Function.comp_apply, count_test h, count_list]
        rfl
      rw [count_parenthesised, count_intercalate (not_mem_joiner m), List.map_map, htests,
        List.map_id, sum_partSizes n.succ_ne_zero]

/-- A comparison with some values holds a mark for each. -/
theorem count_of_condition {c : Comparison} (h : Clear c) {count : Nat} {multi : Bool}
    {sample : Option Text} {limit : Int} (hlimit : 1 ≤ limit) {t : Text}
    (ht : condition c count multi sample limit = .ok t) : t.count mark = count := by
  unfold condition at ht
  split at ht
  · rename_i hsingle
    rw [hsingle.1]
    dsimp only at ht
    split at ht
    · rename_i hnormalized
      obtain rfl := Except.ok.inj ht
      have hoperator : (Membership.normalize c.operator).count mark = 0 := by
        rcases hnormalized with hn | hn
        · rw [hn]
          decide
        · rw [hn]
          decide
      simp only [List.count_append, List.count_cons, hoperator, space_beq_mark,
        count_parenthesised, List.count_eq_zero_of_not_mem h.subject]
      simp
    · obtain rfl := Except.ok.inj ht
      exact count_single h
  · split at ht
    · exact count_of_membership h.subject hlimit ht
    · obtain rfl := Except.ok.inj ht
      rw [count_parenthesised, count_intercalate_replicate (by decide), count_single h, Nat.mul_one]

end Marks

/-- The comparison of a compiled directive holds no mark. -/
theorem Directive.Compiled.clear {registry : Registry} {d : Directive} (h : d.Compiled registry)
    {c : Comparison} (hc : d.comparison = some c) : Marks.Clear c := by
  obtain ⟨reversed, e, he, rfl⟩ := h.comparison c hc
  obtain ⟨hsubject, hoperator⟩ :=
    (Ending.found_of_comparison? he).not_mem (by decide : ¬Ending.IsOperatorChar Marks.mark)
  exact ⟨hsubject, hoperator⟩

namespace Contribution

/-- A contribution whose text, if it has one, holds a mark for each of its values, and which has
neither text nor values if the sample stays. -/
structure Balanced (c : Contribution) : Prop where
  marks : ∀ t, c.replacement = some t → t.count Marks.mark = c.values.length
  sample : c.keepsSample = true → c.values = [] ∧ c.replacement = none

variable {chain : List Contribution}

theorem balanced_drop (disposed : Bool) : (drop disposed).Balanced :=
  ⟨by simp [drop], by simp [drop]⟩

theorem balanced_hold (disposed : Bool) : Balanced { keep with disposed := disposed } :=
  ⟨by simp [keep], by simp [keep]⟩

theorem balanced_ofValues (vs : List Value) : (ofValues vs).Balanced :=
  ⟨by simp [ofValues], by simp [ofValues]⟩

theorem balanced_of_count {vs : List Value} {t : Text} (h : t.count Marks.mark = vs.length) :
    Balanced { ofValues vs with replacement := some t } := by
  refine ⟨?_, by simp [ofValues]⟩
  intro u hu
  obtain rfl := Option.some.inj hu
  exact h

theorem balanced_ofText {t : Text} (h : Marks.mark ∉ t) : (ofText t).Balanced :=
  balanced_of_count (List.count_eq_zero_of_not_mem h)

theorem Balanced.count_text {c : Contribution} (h : c.Balanced) :
    c.text.count Marks.mark = c.values.length := by
  unfold text
  cases hr : c.replacement with
  | none => exact Marks.count_list _
  | some t => exact h.marks t hr

/-- A chain that has a text holds the marks of all its contributions, also of those without one. -/
theorem count_of_mergedReplacement {t : Text} (ht : mergedReplacement chain = some t) :
    t.count Marks.mark = (chain.map fun c => c.text.count Marks.mark).sum := by
  have hkept (ts : List Text) : ((ts.filter fun t => !t.isEmpty).map (List.count Marks.mark)).sum =
      (ts.map (List.count Marks.mark)).sum := by
    induction ts with
    | nil => rfl
    | cons t ts ih =>
        cases t with
        | nil => simpa using ih
        | cons c t => simpa using ih
  unfold mergedReplacement at ht
  split at ht
  · obtain rfl := Option.some.inj ht
    rw [Marks.count_intercalate (by decide), hkept, List.map_map]
    rfl
  · simp at ht

theorem count_mergedReplacement (h : ∀ c ∈ chain, c.Balanced) {t : Text}
    (ht : mergedReplacement chain = some t) :
    t.count Marks.mark = (chain.flatMap values).length := by
  rw [count_of_mergedReplacement ht, List.length_flatMap]
  congr 1
  exact List.map_congr_left fun c hc => (h c hc).count_text

theorem balanced_merge (h : ∀ c ∈ chain, c.Balanced) : (merge chain).Balanced := by
  match chain with
  | [] => exact balanced_hold false
  | [c] => exact h c (List.mem_singleton_self c)
  | c :: d :: rest =>
      constructor
      · intro t ht
        exact count_mergedReplacement h ht
      · intro hsample
        have hall : ∀ x ∈ c :: d :: rest, x.values = [] ∧ x.replacement = none := by
          intro x hx
          exact (h x hx).sample (List.all_eq_true.1 hsample x hx)
        constructor
        · exact List.flatMap_eq_nil_iff.2 fun x hx => (hall x hx).1
        · exact mergedReplacement_eq_none_iff.2 fun x hx => (hall x hx).2

theorem Balanced.escapeLike {c : Contribution} (h : c.Balanced) : c.escapeLike.Balanced := by
  constructor
  · intro t ht
    rw [h.marks t ht]
    exact (List.length_map ..).symm
  · intro hsample
    obtain ⟨hvalues, hnone⟩ := h.sample hsample
    exact ⟨by simp [Contribution.escapeLike, hvalues], hnone⟩

theorem balanced_joined (chain : List Contribution) (t : WideText) : (joined chain t).Balanced :=
  ⟨by simp [joined], by simp [joined]⟩

theorem balanced_pattern (chain : List Contribution) (t : WideText) :
    (pattern chain t).Balanced := by
  refine ⟨?_, by simp [pattern, joined]⟩
  intro u hu
  obtain rfl := Option.some.inj hu
  rfl

/-- Every function keeps balance but the one that writes values into the text and the one that
leaves values out. -/
theorem kept_balanced : Kept (fun f => f ≠ .sql ∧ f ≠ .compact) Balanced where
  drop := balanced_drop
  hold := balanced_hold
  merge := fun _ h => balanced_merge h
  concat := balanced_joined
  like := balanced_pattern
  escapeLike := fun _ h => h.escapeLike
  compact := fun h => absurd rfl h.2
  sql := fun h => absurd rfl h.1

end Contribution

section Terms

variable {s : Scope} {d : Directive}

/-- A term that neither writes text with marks nor calls a function that breaks balance. -/
structure Term.Even (registry : Registry) (t : Term) : Prop where
  literal : ∀ u, t.literal? = some u → Marks.mark ∉ u
  sql : ∀ name, t.callee? = some name → registry.find? name ≠ some .sql
  compact : ∀ name, t.callee? = some name → registry.find? name ≠ some .compact

theorem Term.Even.admits {registry : Registry} {t : Term} (h : t.Even registry) :
    t.Admits registry (fun f => f ≠ .sql ∧ f ≠ .compact) (fun _ => True) Contribution.Balanced := by
  refine ⟨fun _ _ => trivial, ?_, ?_⟩
  · intro u hu
    exact Contribution.balanced_ofText (h.literal u hu)
  · intro name f hname hf
    constructor
    · rintro rfl
      exact h.sql name hname hf
    · rintro rfl
      exact h.compact name hname hf

theorem Term.balanced_of_evaluateAll [Runtime] (hlimit : 1 ≤ s.renderer.limit)
    (hclear : ∀ c, d.comparison = some c → Marks.Clear c) (ts : List Term)
    (hts : ∀ u ∈ Term.subtermsAll ts, u.Even s.renderer.registry) {cs : List Contribution}
    (h : Term.evaluateAll s d ts = .ok cs) : ∀ c ∈ cs, c.Balanced := by
  have hsources : d.Sources s (fun _ => True) Contribution.Balanced := by
    refine ⟨fun _ _ _ => Contribution.balanced_ofValues _,
      fun key comparison t _ _ hcomparison ht => ?_⟩
    exact Contribution.balanced_of_count
      (Marks.count_of_condition (hclear comparison hcomparison) hlimit ht)
  exact Contribution.kept_balanced.of_evaluateAll hsources ts (fun u hu => (hts u hu).admits) h

end Terms

end SqlTemplate
