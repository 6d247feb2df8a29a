import SqlTemplate.Proofs.Rendering.Steps
import SqlTemplate.Proofs.Value.Writing

/-!
# What functions make of chains

A function that transforms chains makes one contribution of a chain (`Transformed`), unless it joins
values into a text and one of them cannot be written (`Contribution.Unwritten`). Applied to operands it
makes this contribution with what stands behind its parentheses, and a conditional function settles on
one (`apply_eq_ok_iff`). It fails where values cannot be written or a condition is missing, and nowhere
else (`apply_eq_error`).
-/

namespace SqlTemplate

namespace Contribution

variable [Runtime] {n : Negatives} {c : Contribution} {chain : List Contribution}
  {make : WideText → Contribution}

/-- A contribution without a text of its own in which a value is not negative and cannot be written. -/
def Unwritten (n : Negatives) (c : Contribution) : Prop :=
  c.replacement = none ∧ ∃ v ∈ c.values, n.isNegative v = false ∧ v.plain? = none

theorem joinedText?_eq_none_iff : joinedText? n c = none ↔ c.Unwritten n := by
  rw [joinedText?, Unwritten]
  cases c.replacement with
  | some t => simp
  | none => simp [WideText.joined?_eq_none_iff, and_assoc]

theorem joinedTexts?_eq_none_iff : joinedTexts? n chain = none ↔ ∃ c ∈ chain, c.Unwritten n := by
  simp only [joinedTexts?, WideText.joined?_eq_none_iff, joinedText?_eq_none_iff]

theorem ofJoined_eq_ok_iff :
    ofJoined n chain make = .ok c ↔ ∃ t, joinedTexts? n chain = some t ∧ make t = c := by
  rw [ofJoined]
  cases joinedTexts? n chain with
  | none => simp
  | some t => simp

theorem ofJoined_eq_error_iff {e : RenderError} :
    ofJoined n chain make = .error e ↔ e = .tooManyDigits ∧ ∃ c ∈ chain, c.Unwritten n := by
  rw [ofJoined, ← joinedTexts?_eq_none_iff]
  cases joinedTexts? n chain with
  | none => simp [eq_comm]
  | some t => simp

/-- What is bound for a text, if it can be written. -/
def boundText : Option WideText → Except RenderError (List Value)
  | some t => .ok [.text t]
  | none => .error .tooManyDigits

theorem map_values_ofJoined (h : ∀ t, (make t).values = [.text t]) :
    (ofJoined n chain make).map values = boundText (joinedTexts? n chain) := by
  rw [ofJoined]
  cases joinedTexts? n chain with
  | none => rfl
  | some t => exact congrArg Except.ok (h t)

theorem map_values_concat (n : Negatives) (chain : List Contribution) :
    (concat n chain).map values = boundText (joinedTexts? n chain) :=
  map_values_ofJoined fun _ => rfl

theorem map_values_like (n : Negatives) (chain : List Contribution) :
    (like n chain).map values = boundText (joinedTexts? n (chain.map escapeLike)) :=
  map_values_ofJoined fun _ => rfl

/-- Escaping changes texts only, and texts can be written. -/
theorem unwritten_escapeLike_iff : c.escapeLike.Unwritten n ↔ c.Unwritten n := by
  have hvalue (v : Value) : n.isNegative v.escapeLike = false ∧ v.escapeLike.plain? = none ↔
      n.isNegative v = false ∧ v.plain? = none := by
    cases v with
    | text t => simp [Value.escapeLike]
    | _ => rfl
  have hvalues : c.escapeLike.values = c.values.map Value.escapeLike := rfl
  have hreplacement : c.escapeLike.replacement = c.replacement := rfl
  rw [Unwritten, Unwritten, hvalues, hreplacement]
  simp only [List.mem_map, exists_exists_and_eq_and, hvalue]

end Contribution

namespace Function

open Contribution

variable [Runtime] {f : Function} {n : Negatives} {negated : Bool} {inside : Option (List Contribution)}
  {chain rest : List Contribution} {c condition : Contribution}

/-- What the functions that transform chains make of one. -/
inductive Transformed (n : Negatives) (chain : List Contribution) : Function → Contribution → Prop
  | concat {t : WideText} (h : joinedTexts? n chain = some t) :
      Transformed n chain .concat (joined chain t)
  | escapeLike : Transformed n chain .escapeLike (merge (chain.map .escapeLike))
  | like {t : WideText} (h : joinedTexts? n (chain.map .escapeLike) = some t) :
      Transformed n chain .like (pattern (chain.map .escapeLike) t)
  | compact : Transformed n chain .compact (.compact chain)
  | sql {t : WideText} (h : joinedTexts? n chain = some t) :
      Transformed n chain .sql (inserted chain t)

theorem Transformed.not_conditional (h : f.Transformed n chain c) :
    ¬(f = ifPresent ∨ f = ifOutput) := by
  cases h <;> simp

/-- Whether a function joins values into a text. -/
def joins : Function → Bool
  | concat | like | sql => true
  | _ => false

theorem transform?_eq_none_iff : f.transform? n chain = none ↔ f = ifPresent ∨ f = ifOutput := by
  cases f <;> simp [transform?]

theorem transform?_eq_ok_iff : f.transform? n chain = some (.ok c) ↔ f.Transformed n chain c := by
  constructor
  · intro h
    cases f with
    | concat =>
      obtain ⟨t, ht, rfl⟩ := ofJoined_eq_ok_iff.1 (Option.some.inj h)
      exact .concat ht
    | escapeLike =>
      obtain rfl := Except.ok.inj (Option.some.inj h)
      exact .escapeLike
    | like =>
      obtain ⟨t, ht, rfl⟩ := ofJoined_eq_ok_iff.1 (Option.some.inj h)
      exact .like ht
    | compact =>
      obtain rfl := Except.ok.inj (Option.some.inj h)
      exact .compact
    | sql =>
      obtain ⟨t, ht, rfl⟩ := ofJoined_eq_ok_iff.1 (Option.some.inj h)
      exact .sql ht
    | ifPresent => cases h
    | ifOutput => cases h
  · intro h
    cases h with
    | concat ht => exact congrArg some (ofJoined_eq_ok_iff.2 ⟨_, ht, rfl⟩)
    | escapeLike => rfl
    | like ht => exact congrArg some (ofJoined_eq_ok_iff.2 ⟨_, ht, rfl⟩)
    | compact => rfl
    | sql ht => exact congrArg some (ofJoined_eq_ok_iff.2 ⟨_, ht, rfl⟩)

/-- A chain is not transformed where a value that is joined into a text cannot be written. -/
theorem transform?_eq_error_iff {e : RenderError} :
    f.transform? n chain = some (.error e) ↔
      e = .tooManyDigits ∧ f.joins = true ∧ ∃ c ∈ chain, c.Unwritten n := by
  have hescaped : (∃ c ∈ chain.map Contribution.escapeLike, c.Unwritten n) ↔
      ∃ c ∈ chain, c.Unwritten n := by
    simp only [List.mem_map, exists_exists_and_eq_and, unwritten_escapeLike_iff]
  cases f with
  | concat => simp [transform?, Contribution.concat, ofJoined_eq_error_iff, joins]
  | like => simp only [transform?, Contribution.like, Option.some.injEq, ofJoined_eq_error_iff, joins,
      hescaped, true_and]
  | sql => simp [transform?, Contribution.sql, ofJoined_eq_error_iff, joins]
  | _ => simp [transform?, joins]

theorem apply_eq_ok_iff :
    f.apply n negated inside chain = .ok c ↔
      (∃ t, f.Transformed n (inside.getD chain) t ∧ c = followed inside chain t) ∨
      ((f = ifPresent ∨ f = ifOutput) ∧ ∃ condition rest,
        condition? inside chain = some (condition, rest) ∧ c = f.settle negated condition rest) := by
  have hconditional : f.transform? n (inside.getD chain) = none ↔ f = ifPresent ∨ f = ifOutput :=
    transform?_eq_none_iff
  simp only [← transform?_eq_ok_iff, ← hconditional]
  rw [apply]
  cases f.transform? n (inside.getD chain) with
  | some transformed => cases transformed <;> simp [Except.map, eq_comm]
  | none =>
    cases condition? inside chain with
    | none => simp
    | some p => simp [eq_comm, Prod.ext_iff]

/-- A function fails where a value that it joins into a text cannot be written, or where it has no
condition. -/
theorem apply_eq_error {e : RenderError} (h : f.apply n negated inside chain = .error e) :
    (e = .tooManyDigits ∧ f.joins = true ∧ ∃ c ∈ inside.getD chain, c.Unwritten n) ∨
      ((f = ifPresent ∨ f = ifOutput) ∧ condition? inside chain = none) := by
  rw [apply] at h
  cases ht : f.transform? n (inside.getD chain) with
  | some transformed =>
    rw [ht] at h
    cases transformed with
    | ok t => cases h
    | error e' =>
      obtain rfl := Except.error.inj h
      exact .inl (transform?_eq_error_iff.1 ht)
  | none =>
    rw [ht] at h
    cases hcondition : condition? inside chain with
    | none => exact .inr ⟨transform?_eq_none_iff.1 ht, rfl⟩
    | some p =>
      rw [hcondition] at h
      cases h

end Function

end SqlTemplate
