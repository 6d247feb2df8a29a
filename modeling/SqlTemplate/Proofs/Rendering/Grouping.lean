import Mathlib.Data.List.Basic
import SqlTemplate.Proofs.Rendering.Steps

/-!
# Grouping

A chain that is merged in parts and then as a whole contributes what it contributes when it is merged
at once, but for the spaces and commas of its text: marks of one contribution are separated by commas
and those of several ones by spaces. `Contribution.condense` is what is left of a contribution without
them, and `merge_ungrouped` says that a directive comes to the same without its groups.
-/

namespace SqlTemplate

/-- A text with its spaces and commas deleted. -/
def condensed (t : Text) : Text := t.filter fun c => c != ' ' && c != ','

@[simp] theorem condensed_nil : condensed [] = [] := rfl

@[simp] theorem condensed_append (s t : Text) : condensed (s ++ t) = condensed s ++ condensed t :=
  List.filter_append ..

@[simp] theorem condensed_condensed (t : Text) : condensed (condensed t) = condensed t :=
  List.filter_filter.trans (List.filter_congr fun _ _ => Bool.and_self _)

/-- Texts that are joined with spaces, the empty ones left out. -/
theorem condensed_intercalate (texts : List Text) :
    condensed (List.intercalate [' '] (texts.filter fun t => !t.isEmpty)) =
      texts.flatMap condensed := by
  have hjoined (ts : List Text) :
      condensed (List.intercalate [' '] ts) = ts.flatMap condensed := by
    induction ts with
    | nil => rfl
    | cons t ts ih =>
      cases ts with
      | nil => simp
      | cons u ts =>
        have hspace : condensed [' '] = [] := rfl
        rw [List.intercalate_cons_cons, condensed_append, condensed_append, hspace, ih,
          List.append_nil, ← List.flatMap_cons]
  rw [hjoined]
  induction texts with
  | nil => rfl
  | cons t texts ih => cases t <;> simp [ih]

theorem Marks.condensed_list (count : Nat) :
    condensed (list count) = List.replicate count mark := by
  induction count with
  | zero => rfl
  | succ count ih =>
    cases count with
    | zero => rfl
    | succ count =>
      have hlist : list (count + 2) = [mark] ++ ", ".toList ++ list (count + 1) := rfl
      rw [hlist, condensed_append, condensed_append, ih]
      rfl

namespace Contribution

variable {c c' : Contribution} {chain chain' : List Contribution}

/-- A contribution with the spaces and commas of its text deleted. -/
def condense (c : Contribution) : Contribution :=
  { c with replacement := c.replacement.map condensed }

theorem condensed_text_condense (c : Contribution) : condensed c.condense.text = condensed c.text := by
  unfold text condense
  cases c.replacement <;> simp

theorem condense_eq (hvalues : c.values = c'.values)
    (hnone : c.replacement = none ↔ c'.replacement = none)
    (htext : condensed c.text = condensed c'.text) (hline : c.keepsLine = c'.keepsLine)
    (hdisposed : c.disposed = c'.disposed) (hsample : c.keepsSample = c'.keepsSample) :
    c.condense = c'.condense := by
  obtain ⟨values, replacement, keepsLine, disposed, keepsSample⟩ := c
  obtain ⟨values', replacement', keepsLine', disposed', keepsSample'⟩ := c'
  obtain rfl : values = values' := hvalues
  obtain rfl : keepsLine = keepsLine' := hline
  obtain rfl : disposed = disposed' := hdisposed
  obtain rfl : keepsSample = keepsSample' := hsample
  cases replacement <;> cases replacement' <;> simp_all [condense, text]

/-- The marks of a contribution without a text of its own. -/
theorem condensed_text_of_replacement_eq_none (h : c.replacement = none) :
    condensed c.text = c.values.map fun _ => Marks.mark := by
  rw [text, h, Option.getD_none, Marks.condensed_list, List.map_const']

theorem condensed_text_merge (chain : List Contribution) :
    condensed (merge chain).text = chain.flatMap fun c => condensed c.text := by
  match chain with
  | [] => rfl
  | [c] => simp
  | c :: d :: rest =>
    cases hmerged : mergedReplacement (c :: d :: rest) with
    | none =>
      have hnone := mergedReplacement_eq_none_iff.1 hmerged
      rw [condensed_text_of_replacement_eq_none hmerged, values_merge, List.map_flatMap]
      refine List.flatMap_congr fun x hx => ?_
      rw [condensed_text_of_replacement_eq_none (hnone x hx)]
    | some t =>
      have htext : (merge (c :: d :: rest)).text = t := congrArg (Option.getD · _) hmerged
      have hany : ((c :: d :: rest).any fun x => x.replacement.isSome) = true := by
        by_contra hnot
        rw [mergedReplacement, if_neg hnot] at hmerged
        cases hmerged
      rw [mergedReplacement, if_pos hany] at hmerged
      rw [htext, ← Option.some.inj hmerged, condensed_intercalate, List.flatMap_map]

/-- A chain is merged to the same in parts and as a whole. -/
theorem condense_merge_map_merge (chains : List (List Contribution)) :
    (merge (chains.map merge)).condense = (merge chains.flatten).condense := by
  apply condense_eq
  · rw [← List.flatMap_id, values_merge, values_merge, List.flatMap_assoc, List.flatMap_map]
    simp only [values_merge, id]
  · simp only [replacement_merge_eq_none_iff, List.forall_mem_map, List.mem_flatten]
    exact ⟨fun h c ⟨chain, hchain, hc⟩ => h chain hchain c hc,
      fun h chain hchain c hc => h c ⟨chain, hchain, hc⟩⟩
  · rw [← List.flatMap_id, condensed_text_merge, condensed_text_merge, List.flatMap_assoc,
      List.flatMap_map]
    simp only [condensed_text_merge, id]
  · simp [keepsLine_merge, List.all_flatten, List.all_map, Function.comp_def]
  · simp [disposed_merge, List.any_flatten, List.any_map, Function.comp_def]
  · simp [keepsSample_merge, List.all_flatten, List.all_map, Function.comp_def]

theorem condense_merge (chain : List Contribution) :
    (merge (chain.map condense)).condense = (merge chain).condense := by
  apply condense_eq
  · rw [values_merge, values_merge, List.flatMap_map]
    rfl
  · simp [replacement_merge_eq_none_iff, condense]
  · simp only [condensed_text_merge, List.flatMap_map, condensed_text_condense]
  · rw [keepsLine_merge, keepsLine_merge, List.all_map]
    rfl
  · rw [disposed_merge, disposed_merge, List.any_map]
    rfl
  · rw [keepsSample_merge, keepsSample_merge, List.all_map]
    rfl

/-- Two chains one after the other may be merged, and condensed, on their own before. -/
theorem condense_merge_append (chain rest : List Contribution) :
    (merge (chain ++ rest)).condense =
      (merge [(merge chain).condense, (merge rest).condense]).condense := by
  calc (merge (chain ++ rest)).condense
      = (merge [merge chain, merge rest]).condense := by
        simpa using (condense_merge_map_merge [chain, rest]).symm
    _ = (merge [(merge chain).condense, (merge rest).condense]).condense :=
        (condense_merge [merge chain, merge rest]).symm

end Contribution

namespace Directive

/-- What goes where a directive stood binds the values that were contributed, unless it is removed or
the sample is kept. -/
theorem values_output (d : Directive) (c : Contribution) :
    (d.output c).values = if c.disposed || c.keepsSample then [] else c.values := by
  obtain ⟨values, replacement, keepsLine, disposed, keepsSample⟩ := c
  unfold output
  cases disposed with
  | true => rfl
  | false =>
    cases keepsSample with
    | true => cases d.comparison <;> rfl
    | false => cases replacement <;> cases d.sample <;> rfl

end Directive

namespace Term

variable {s : Scope} {d d' : Directive}

mutual

/-- The terms that a term is made of if groups are opened, those inside of groups as well. The
operands of a call stay as they are: the function sees each of them. -/
def ungrouped : Term → List Term
  | group chain => ungroupedAll chain
  | t => [t]

def ungroupedAll : List Term → List Term
  | [] => []
  | t :: ts => ungrouped t ++ ungroupedAll ts

end

mutual

/-- Only the comparison and the sample of a directive matter to its terms. -/
theorem evaluate_congr [Runtime] (hc : d.comparison = d'.comparison) (hs : d.sample = d'.sample) :
    (t : Term) → evaluate s d t = evaluate s d' t
  | reference kind key negated => by
    rw [evaluate, evaluate]
    simp only [Reference.evaluate, hc, hs]
  | required key => by rw [evaluate, evaluate]
  | literal t => by rw [evaluate, evaluate]
  | group chain => by rw [evaluate, evaluate, evaluateAll_congr hc hs chain]
  | call name negated inside chain => by
    rw [evaluate, evaluate, evaluateInside_congr hc hs inside, evaluateAll_congr hc hs chain]

theorem evaluateInside_congr [Runtime] (hc : d.comparison = d'.comparison)
    (hs : d.sample = d'.sample) :
    (inside : Option (List Term)) → evaluateInside s d inside = evaluateInside s d' inside
  | none => by rw [evaluateInside, evaluateInside]
  | some chain => by rw [evaluateInside, evaluateInside, evaluateAll_congr hc hs chain]

theorem evaluateAll_congr [Runtime] (hc : d.comparison = d'.comparison)
    (hs : d.sample = d'.sample) :
    (ts : List Term) → evaluateAll s d ts = evaluateAll s d' ts
  | [] => by rw [evaluateAll, evaluateAll]
  | t :: ts => by
    rw [evaluateAll, evaluateAll, evaluate_congr hc hs t, evaluateAll_congr hc hs ts]

end

theorem evaluateAll_append [Runtime] (ts us : List Term) :
    evaluateAll s d (ts ++ us) = do
      let cs ← evaluateAll s d ts
      let rest ← evaluateAll s d us
      return cs ++ rest := by
  induction ts with
  | nil =>
    rw [List.nil_append, evaluateAll]
    cases evaluateAll s d us <;> rfl
  | cons t ts ih =>
    rw [List.cons_append, evaluateAll, evaluateAll, ih]
    cases evaluate s d t with
    | error e => rfl
    | ok c =>
      cases evaluateAll s d ts with
      | error e => rfl
      | ok cs => cases evaluateAll s d us <;> rfl

/-! ### Opening groups -/

/-- What a chain of terms contributes, without spaces and commas. -/
def condensedAll [Runtime] (s : Scope) (d : Directive) (ts : List Term) :
    Except RenderError Contribution :=
  (evaluateAll s d ts).map fun cs => (Contribution.merge cs).condense

theorem condensedAll_append [Runtime] (ts us : List Term) :
    condensedAll s d (ts ++ us) = do
      let c ← condensedAll s d ts
      let rest ← condensedAll s d us
      return (Contribution.merge [c, rest]).condense := by
  unfold condensedAll
  rw [evaluateAll_append]
  cases evaluateAll s d ts with
  | error e => rfl
  | ok cs =>
    cases evaluateAll s d us with
    | error e => rfl
    | ok rest => exact congrArg Except.ok (Contribution.condense_merge_append cs rest)

/-- A group has the values of its terms, in their order, and fails where they do. -/
theorem map_values_evaluate_group [Runtime] (s : Scope) (d : Directive) (chain : List Term) :
    (evaluate s d (group chain)).map Contribution.values =
      (evaluateAll s d chain).map fun cs => cs.flatMap Contribution.values := by
  rw [evaluate]
  cases evaluateAll s d chain with
  | error e => rfl
  | ok cs => exact congrArg Except.ok (Contribution.values_merge cs)

/-- A group contributes what is in it. -/
theorem condensedAll_group [Runtime] (chain : List Term) :
    condensedAll s d [group chain] = condensedAll s d chain := by
  unfold condensedAll
  rw [evaluateAll, evaluateAll, evaluate]
  cases evaluateAll s d chain <;> rfl

mutual

theorem condensedAll_ungrouped [Runtime] :
    (t : Term) → condensedAll s d t.ungrouped = condensedAll s d [t]
  | reference .. => rfl
  | required _ => rfl
  | literal _ => rfl
  | group chain => by rw [ungrouped, condensedAll_ungroupedAll chain, condensedAll_group]
  | call .. => rfl

theorem condensedAll_ungroupedAll [Runtime] :
    (ts : List Term) → condensedAll s d (ungroupedAll ts) = condensedAll s d ts
  | [] => by rw [ungroupedAll]
  | t :: ts => by
    rw [ungroupedAll, condensedAll_append, condensedAll_ungrouped t, condensedAll_ungroupedAll ts,
      ← condensedAll_append, List.singleton_append]

end

end Term

namespace Directive

/-- A directive with its groups opened. -/
def ungrouped (d : Directive) : Directive :=
  { d with expression := Term.ungroupedAll d.expression }

theorem map_condense_evaluate [Runtime] (s : Scope) (d : Directive) :
    (d.evaluate s).map Contribution.condense = Term.condensedAll s d d.expression := by
  unfold evaluate Term.condensedAll
  cases Term.evaluateAll s d d.expression <;> rfl

theorem map_condense_evaluate_ungrouped [Runtime] (s : Scope) (d : Directive) :
    (d.ungrouped.evaluate s).map Contribution.condense =
      (d.evaluate s).map Contribution.condense := by
  have hcomparison : d.ungrouped.comparison = d.comparison := rfl
  have hsample : d.ungrouped.sample = d.sample := rfl
  rw [map_condense_evaluate, map_condense_evaluate,
    ← Term.condensedAll_ungroupedAll d.expression]
  exact congrArg (Except.map _) (Term.evaluateAll_congr hcomparison hsample _)

/-- What a directive binds can be told without the spaces and commas of its text. -/
theorem map_values_output [Runtime] (s : Scope) (d : Directive) :
    (d.evaluate s).map (fun c => (d.output c).values) =
      ((d.evaluate s).map Contribution.condense).map fun c : Contribution =>
        if c.disposed || c.keepsSample then [] else c.values := by
  cases d.evaluate s with
  | error e => rfl
  | ok c => exact congrArg Except.ok (d.values_output c)

end Directive

/-- Chains that are merged one by one and then together are merged to the same as all their
contributions at once: the same values and the same say in what becomes of the line, and a text, if
there is one, that differs in spaces and commas only. So an empty chain among others is neutral. A group
has the values of its terms in their order, wherever it stands in a directive, as an operand of a
function as well, and a directive contributes the same, and binds the same values in the same order,
whether or not some of its terms are grouped. -/
theorem Contribution.merge_ungrouped [Runtime] :
    (∀ chains : List (List Contribution),
      (merge (chains.map merge)).condense = (merge chains.flatten).condense) ∧
    (∀ before after : List Contribution,
      (merge (before ++ merge [] :: after)).condense = (merge (before ++ after)).condense) ∧
    (∀ (s : Scope) (d : Directive) (chain : List Term),
      (Term.evaluate s d (.group chain)).map values =
        (Term.evaluateAll s d chain).map fun cs => cs.flatMap values) ∧
    ∀ (s : Scope) (d : Directive),
      (d.ungrouped.evaluate s).map condense = (d.evaluate s).map condense ∧
      (d.ungrouped.evaluate s).map (fun c => (d.ungrouped.output c).values) =
        (d.evaluate s).map fun c => (d.output c).values := by
  refine ⟨condense_merge_map_merge, fun before after => ?_, Term.map_values_evaluate_group,
    fun s d => ⟨?_, ?_⟩⟩
  · have hparts :=
      condense_merge_map_merge (before.map (fun c => [c]) ++ [] :: after.map fun c => [c])
    simpa [Function.comp_def, ← List.flatMap_def] using hparts
  · exact d.map_condense_evaluate_ungrouped s
  · rw [d.ungrouped.map_values_output, d.map_condense_evaluate_ungrouped, d.map_values_output]

end SqlTemplate
