import SqlTemplate.Proofs.Rendering.Application

/-!
# Redacted values

Rendering looks at the values of parameters only to decide whether they are absent, how many they
are, and which of them are null. `redact` replaces values by what remains of them then: null, or one
and the same value. Every step from the contributions of terms to the statement commutes with it,
except for the function that writes values into the text of the statement.
-/

namespace SqlTemplate

namespace Value

/-- What is left of a value that must not be told. -/
def redact (v : Value) : Value := if v.isNull then null else bool true

@[simp] theorem isNull_redact (v : Value) : v.redact.isNull = v.isNull := by
  unfold redact
  cases h : v.isNull <;> rfl

@[simp] theorem redact_escapeLike (v : Value) : v.escapeLike.redact = v.redact := by
  cases v <;> rfl

theorem map_redact_eq_of_map_isNull_eq {vs ws : List Value}
    (h : vs.map isNull = ws.map isNull) : vs.map redact = ws.map redact := by
  have hfactor : redact = (fun b : Bool => if b then null else bool true) ∘ isNull := by
    funext v
    rfl
  rw [hfactor, ← List.map_map, h, List.map_map]

end Value

namespace Contribution

def redact (c : Contribution) : Contribution := { c with values := c.values.map Value.redact }

variable {chain chain' : List Contribution}

@[simp] theorem redact_ofValues (vs : List Value) :
    (ofValues vs).redact = ofValues (vs.map Value.redact) := rfl

@[simp] theorem text_redact (c : Contribution) : c.redact.text = c.text := by
  simp [text, redact]

theorem map_text_redact (chain : List Contribution) :
    (chain.map redact).map text = chain.map text := by
  rw [List.map_map]
  congr 1
  funext c
  exact text_redact c

theorem mergedReplacement_redact (chain : List Contribution) :
    mergedReplacement (chain.map redact) = mergedReplacement chain := by
  unfold mergedReplacement
  rw [map_text_redact, List.any_map]
  rfl

theorem redact_merge (chain : List Contribution) :
    (merge chain).redact = merge (chain.map redact) := by
  match chain with
  | [] => rfl
  | [c] => rfl
  | c :: d :: rest =>
      have hvalues : ((c :: d :: rest).flatMap values).map Value.redact =
          ((c :: d :: rest).map redact).flatMap values := by
        rw [List.map_flatMap, List.flatMap_map]
        rfl
      have hreplacement := mergedReplacement_redact (c :: d :: rest)
      simp only [List.map_cons] at hvalues hreplacement ⊢
      simp only [merge, redact, hvalues, ← hreplacement, List.all_cons, List.any_cons, List.all_map,
        List.any_map]
      rfl

/-- Chains with the same redaction merge to contributions with the same redaction. -/
theorem redact_merge_eq (h : chain.map redact = chain'.map redact) :
    (merge chain).redact = (merge chain').redact := by
  rw [redact_merge, h, ← redact_merge]

theorem keepsLine_eq {c c' : Contribution} (h : c.redact = c'.redact) :
    c.keepsLine = c'.keepsLine := by
  change c.redact.keepsLine = c'.redact.keepsLine
  rw [h]

theorem disposed_eq {c c' : Contribution} (h : c.redact = c'.redact) :
    c.disposed = c'.disposed := by
  change c.redact.disposed = c'.redact.disposed
  rw [h]

theorem redact_escapeLike (c : Contribution) : c.escapeLike.redact = c.redact := by
  simp only [redact, escapeLike, List.map_map]
  congr 2
  funext v
  exact Value.redact_escapeLike v

theorem map_redact_escapeLike (chain : List Contribution) :
    (chain.map escapeLike).map redact = chain.map redact := by
  rw [List.map_map]
  congr 1
  funext c
  exact redact_escapeLike c

/-- A text stands for the values of a chain, whatever the text is. -/
theorem redact_joined_eq (t t' : WideText) (h : chain.map redact = chain'.map redact) :
    (joined chain t).redact = (joined chain' t').redact := by
  have hmerged := redact_merge_eq h
  simp only [joined, redact, keepsLine_eq hmerged, disposed_eq hmerged]
  rfl

theorem redact_pattern_eq (t t' : WideText) (h : chain.map redact = chain'.map redact) :
    (pattern (chain.map escapeLike) t).redact = (pattern (chain'.map escapeLike) t').redact := by
  have hescaped : (chain.map escapeLike).map redact = (chain'.map escapeLike).map redact := by
    rw [map_redact_escapeLike, map_redact_escapeLike, h]
  exact congrArg (fun c : Contribution => { c with replacement := some likeClause })
    (redact_joined_eq t t' hescaped)

theorem map_redact_filter (vs : List Value) :
    (vs.filter fun v => !v.isNull).map Value.redact =
      (vs.map Value.redact).filter fun v => !v.isNull := by
  rw [List.filter_map]
  congr 2
  funext v
  simp

theorem redact_compact_eq (h : chain.map redact = chain'.map redact) :
    (compact chain).redact = (compact chain').redact := by
  have hcompact : ∀ chain, (compact chain).redact =
      { (merge chain).redact with
        values := (merge chain).redact.values.filter fun v => !v.isNull } := by
    intro chain
    simp only [compact, redact, map_redact_filter]
  rw [hcompact, hcompact, redact_merge_eq h]

theorem redact_ofHolding_eq {c c' : Contribution} (hc : c.redact = c'.redact)
    (h : chain.map redact = chain'.map redact) :
    (ofHolding c chain).redact = (ofHolding c' chain').redact := by
  have hempty : chain.isEmpty = chain'.isEmpty := by
    simpa using congrArg List.isEmpty h
  unfold ofHolding
  rw [hempty, disposed_eq hc]
  split
  · rfl
  · exact redact_merge_eq h

end Contribution

namespace Function

open Contribution

variable [Runtime] {chain chain' : List Contribution}

theorem redact_eq_of_transformed {f : Function} {n : Negatives} (hf : f ≠ sql)
    {c c' : Contribution} (hc : f.Transformed n chain c) (hc' : f.Transformed n chain' c')
    (h : chain.map redact = chain'.map redact) : c.redact = c'.redact := by
  cases hc with
  | concat =>
    cases hc'
    exact redact_joined_eq _ _ h
  | escapeLike =>
    cases hc'
    refine redact_merge_eq ?_
    rw [map_redact_escapeLike, map_redact_escapeLike, h]
  | like =>
    cases hc'
    exact redact_pattern_eq _ _ h
  | compact =>
    cases hc'
    exact redact_compact_eq h
  | sql => exact absurd rfl hf

end Function

namespace Fragment

def redact (f : Fragment) : Fragment := ⟨f.sql, f.values.map Value.redact⟩

@[simp] theorem redact_append (f g : Fragment) : (f ++ g).redact = f.redact ++ g.redact := by
  change Fragment.mk _ _ = Fragment.mk _ _
  simp [redact]

end Fragment

theorem Directive.redact_output (d : Directive) (c : Contribution) :
    (d.output c).redact = d.output c.redact := by
  unfold output
  simp only [Contribution.redact, Fragment.redact, List.length_map]
  split
  · rfl
  · split
    · split <;> rfl
    · split <;> rfl

namespace Block

theorem map_textOf_redact (results : List (Option Fragment)) :
    (results.map (Option.map Fragment.redact)).map textOf = results.map textOf := by
  rw [List.map_map]
  congr 1
  funext result
  cases result <;> rfl

theorem flatMap_valuesOf_redact (results : List (Option Fragment)) :
    (results.map (Option.map Fragment.redact)).flatMap valuesOf =
      (results.flatMap valuesOf).map Value.redact := by
  rw [List.flatMap_map, List.map_flatMap]
  congr 1
  funext result
  cases result <;> rfl

theorem redact_assemble (lines : List Line) (results : List (Option Fragment)) :
    (assemble lines results).map Fragment.redact =
      assemble lines (results.map (Option.map Fragment.redact)) := by
  unfold assemble
  rw [map_textOf_redact, flatMap_valuesOf_redact]
  have hempty : ((results.flatMap valuesOf).map Value.redact).isEmpty =
      (results.flatMap valuesOf).isEmpty := by simp
  simp only [hempty]
  split
  · split <;> rfl
  · rfl

theorem redact_attach (own : Fragment) (children : Option Fragment) :
    (attach own children).map Fragment.redact =
      attach own.redact (children.map Fragment.redact) := by
  have hbelow : (children.map Fragment.redact).getD .empty = (children.getD .empty).redact := by
    cases children <;> rfl
  unfold attach
  rw [hbelow]
  simp only [Fragment.redact, ← List.map_append, List.isEmpty_map]
  split
  · split <;> rfl
  · rfl

end Block

end SqlTemplate
