import Mathlib.Algebra.Order.BigOperators.Group.List
import Mathlib.Algebra.Order.Group.Nat
import SqlTemplate.Proofs.Rendering.Patterns

/-!
# Values left out of patterns

Negative values are left out when a chain is joined into a pattern, but by then the values are
escaped, and it is the escaped value that is or is not negative (`map_values_like_escaped`). This
makes a difference only if a text is registered as negative that needs escaping: it is no longer
found among the negative values when it is escaped. So a pattern leaves out just the negative values,
whatever the chain, if all registered texts are literal (`values_like_iff_literal`).
-/

namespace SqlTemplate

/-- A text without characters that mean something in patterns. -/
def IsLiteral (t : WideText) : Prop := ∀ p ∈ t, p.char?.any isLikeSpecial = false

instance : DecidablePred IsLiteral := fun t => inferInstanceAs (Decidable (∀ p ∈ t, _))

section Escaping

variable {t : WideText}

theorem escapeLikeText_cons (p : CodePoint) (t : WideText) :
    escapeLikeText (p :: t) =
      (if p.char?.any isLikeSpecial then [.char likeEscape, p] else [p]) ++ escapeLikeText t :=
  List.flatMap_cons

theorem IsLiteral.escapeLikeText_eq_self (h : IsLiteral t) : escapeLikeText t = t := by
  induction t with
  | nil => rfl
  | cons p t ih =>
    obtain ⟨hp, ht⟩ := List.forall_mem_cons.1 h
    rw [escapeLikeText_cons, hp, ih ht]
    rfl

/-- Escaping adds a character for each one that is escaped. -/
theorem length_escapeLikeText (t : WideText) :
    (escapeLikeText t).length = t.length + t.countP fun p => p.char?.any isLikeSpecial := by
  induction t with
  | nil => rfl
  | cons p t ih =>
    rw [escapeLikeText_cons, List.length_append, ih, List.length_cons, List.countP_cons]
    split <;> simp <;> omega

theorem length_lt_of_not_isLiteral (h : ¬ IsLiteral t) : t.length < (escapeLikeText t).length := by
  rw [length_escapeLikeText, Nat.lt_add_right_iff_pos, List.countP_pos_iff]
  simpa [IsLiteral] using h

theorem sublist_escapeLikeText (t : WideText) : t.Sublist (escapeLikeText t) := by
  induction t with
  | nil => exact .slnil
  | cons p t ih =>
    rw [escapeLikeText_cons]
    split
    · exact .append (.cons _ (.refl [p])) ih
    · exact .append (.refl [p]) ih

theorem IsLiteral.of_escapeLikeText (h : IsLiteral (escapeLikeText t)) : IsLiteral t :=
  fun p hp => h p ((sublist_escapeLikeText t).subset hp)

end Escaping

namespace Negatives

variable {n : Negatives}

theorem isNegative_text_iff {t : WideText} :
    n.isNegative (.text t) = true ↔ .text t ∈ n.extra := by
  have hsame (v : Value) : v.same (.text t) = true ↔ v = .text t := by
    cases v <;> simp [Value.same, Value.sameType, Value.equal]
  simp [isNegative, contains, among, values, defaults, hsame]

/-- The texts that are registered are not longer than some length. -/
theorem exists_length_le (n : Negatives) : ∃ k, ∀ t, .text t ∈ n.extra → t.length ≤ k := by
  refine ⟨(n.extra.map fun v => (v.plain?.getD []).length).sum, fun t ht => ?_⟩
  exact List.single_le_sum (fun _ _ => Nat.zero_le _) _ (List.mem_map.2 ⟨.text t, ht, rfl⟩)

/-- Escaping a text never changes whether it is negative just if no text is registered that needs
escaping: otherwise all texts that are made of it by escaping again and again would be registered. -/
theorem isNegative_escapeLikeText_iff_literal :
    (∀ t, n.isNegative (.text (escapeLikeText t)) = n.isNegative (.text t)) ↔
      ∀ t, .text t ∈ n.extra → IsLiteral t := by
  constructor
  · intro hsame t ht
    by_contra hmarked
    obtain ⟨k, hbound⟩ := n.exists_length_le
    have hlonger (j : Nat) : ∃ u, .text u ∈ n.extra ∧ ¬ IsLiteral u ∧ j ≤ u.length := by
      induction j with
      | zero => exact ⟨t, ht, hmarked, Nat.zero_le _⟩
      | succ j ih =>
        obtain ⟨u, hu, hmarked, hlength⟩ := ih
        refine ⟨escapeLikeText u, ?_, mt IsLiteral.of_escapeLikeText hmarked, ?_⟩
        · rw [← isNegative_text_iff, hsame, isNegative_text_iff]
          exact hu
        · exact Nat.lt_of_le_of_lt hlength (length_lt_of_not_isLiteral hmarked)
    obtain ⟨u, hu, -, hlength⟩ := hlonger (k + 1)
    exact absurd (hbound u hu) (Nat.not_le.2 hlength)
  · intro hliteral t
    by_cases ht : IsLiteral t
    · rw [ht.escapeLikeText_eq_self]
    · have hplain : n.isNegative (.text t) = false :=
        Bool.eq_false_iff.2 fun h => ht (hliteral t (isNegative_text_iff.1 h))
      have hescaped : n.isNegative (.text (escapeLikeText t)) = false :=
        Bool.eq_false_iff.2 fun h =>
          ht (hliteral _ (isNegative_text_iff.1 h)).of_escapeLikeText
      rw [hplain, hescaped]

end Negatives

namespace Contribution

variable {n : Negatives} {skip skip' : Value → Bool} {chain : List Contribution}

/-- The text that a contribution adds to a pattern that leaves some values out: its own, or its other
values, escaped, if each of them can be written. -/
def escapedText? [Runtime] (skip : Value → Bool) (c : Contribution) : Option WideText :=
  match c.replacement with
  | some t => some (.ofText t)
  | none => WideText.joined? (fun v => v.escapeLike.plain?) (c.values.filter fun v => !skip v)

def escapedTexts? [Runtime] (skip : Value → Bool) (chain : List Contribution) : Option WideText :=
  WideText.joined? (escapedText? skip) chain

theorem joinedText?_escapeLike [Runtime] (n : Negatives) (c : Contribution) :
    joinedText? n c.escapeLike = escapedText? (fun v => n.isNegative v.escapeLike) c := by
  rw [joinedText?, escapedText?, replacement_escapeLike]
  cases c.replacement with
  | some t => rfl
  | none =>
    have hvalues : c.escapeLike.values = c.values.map Value.escapeLike := rfl
    simp only [hvalues, List.filter_map, WideText.joined?_map]
    rfl

/-- A pattern leaves out the values that are negative once they are escaped. -/
theorem map_values_like_escaped [Runtime] (n : Negatives) (chain : List Contribution) :
    (like n chain).map values =
      boundText (escapedTexts? (fun v => n.isNegative v.escapeLike) chain) := by
  rw [map_values_like, joinedTexts?, WideText.joined?_map, escapedTexts?]
  exact congrArg boundText (WideText.joined?_congr fun c _ => joinedText?_escapeLike n c)

theorem escapedTexts?_congr [Runtime]
    (h : ∀ c ∈ chain, c.replacement = none → ∀ v ∈ c.values, skip v = skip' v) :
    escapedTexts? skip chain = escapedTexts? skip' chain := by
  refine WideText.joined?_congr fun c hc => ?_
  rw [escapedText?, escapedText?]
  cases hreplacement : c.replacement with
  | some t => rfl
  | none =>
    have hfilter : (c.values.filter fun v => !skip v) = c.values.filter fun v => !skip' v :=
      List.filter_congr fun v hv => by rw [h c hc hreplacement v hv]
    simp only [hfilter]

/-- A single text is in the pattern unless it is left out. -/
theorem escapedTexts?_single [Runtime] (skip : Value → Bool) (t : WideText) :
    escapedTexts? skip [ofValues [.text t]] =
      some (if skip (.text t) then [] else escapeLikeText t) := by
  rw [escapedTexts?, WideText.joined?_singleton, escapedText?]
  cases hskip : skip (.text t) <;>
    simp [ofValues, hskip, Value.escapeLike, WideText.joined?_singleton]

end Contribution

namespace Function

open Contribution

/-- A pattern holds the texts of its chain and, escaped, those values that are not negative once they
are escaped, and there is none if one of these values cannot be written. So it leaves out just the
negative values of a chain if escaping changes none of them from negative to not negative or back, and
it does so for all chains if and only if no text is registered as negative that needs escaping. -/
theorem values_like_iff_literal [Runtime] (n : Negatives) :
    (∀ chain, ∃ pattern, like.transform? n chain = some pattern ∧
      pattern.map values =
        boundText (escapedTexts? (fun v => n.isNegative v.escapeLike) chain) ∧
      ((∀ c ∈ chain, c.replacement = none →
          ∀ v ∈ c.values, n.isNegative v.escapeLike = n.isNegative v) →
        pattern.map values = boundText (escapedTexts? n.isNegative chain))) ∧
    ((∀ chain pattern, like.transform? n chain = some pattern →
        pattern.map values = boundText (escapedTexts? n.isNegative chain)) ↔
      ∀ t, .text t ∈ n.extra → IsLiteral t) := by
  constructor
  · intro chain
    refine ⟨_, rfl, map_values_like_escaped n chain, fun hsame => ?_⟩
    rw [← escapedTexts?_congr hsame]
    exact map_values_like_escaped n chain
  rw [← Negatives.isNegative_escapeLikeText_iff_literal]
  constructor
  · intro hexact t
    by_cases hliteral : IsLiteral t
    · rw [hliteral.escapeLikeText_eq_self]
    have hne : escapeLikeText t ≠ [] :=
      List.length_pos_iff.1 (Nat.zero_lt_of_lt (length_lt_of_not_isLiteral hliteral))
    have hvalues := (map_values_like_escaped n [ofValues [.text t]]).symm.trans (hexact _ _ rfl)
    rw [escapedTexts?_single, escapedTexts?_single] at hvalues
    have htexts := Value.text.inj (List.cons.inj (Except.ok.inj hvalues)).1
    change (if n.isNegative (.text (escapeLikeText t)) then [] else _) = _ at htexts
    cases hescaped : n.isNegative (.text (escapeLikeText t)) <;>
      cases hplain : n.isNegative (.text t) <;> simp_all
  · intro hsame chain pattern hpattern
    obtain rfl := Option.some.inj hpattern
    have hvalue (v : Value) : n.isNegative v.escapeLike = n.isNegative v := by
      cases v with
      | text t => exact hsame t
      | _ => rfl
    rw [← escapedTexts?_congr fun _ _ _ v _ => hvalue v]
    exact map_values_like_escaped n chain

/-- A wildcard that is registered as negative is not left out of a pattern, but bound escaped. -/
theorem values_like_registeredWildcard :
    let n : Negatives := .ofValues [.text (.ofText ['%'])]
    let chain := [ofValues [.text (.ofText ['%']), .text (.ofText ['b'])]]
    ∃ pattern, like.transform? n chain = some (.ok pattern) ∧
      pattern.values = [.text (.ofText "#%b".toList)] ∧
      escapedTexts? n.isNegative chain = some (.ofText ['b']) ∧
      .ok pattern.values ≠ boundText (escapedTexts? n.isNegative chain) := by
  intro n chain
  refine ⟨_, rfl, rfl, rfl, ?_⟩
  intro h
  have hvalues : [Value.text (.ofText "#%b".toList)] = [.text (.ofText ['b'])] := Except.ok.inj h
  have htexts := Value.text.inj (List.cons.inj hvalues).1
  exact absurd htexts (by decide)

end Function

end SqlTemplate
