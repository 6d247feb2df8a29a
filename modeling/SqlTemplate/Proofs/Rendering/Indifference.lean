import SqlTemplate.Proofs.Rendering.Completion
import SqlTemplate.Proofs.Rendering.Redaction

/-!
# Values never reach the statement

Two parameter maps are alike for a template if the values of every key in it are alike: both absent,
or both present, both sequences or both single values, and as many of them with nulls at the same
places. A template that does not call the function for text of the statement is rendered alike with
both: the same parameter is missing, or the statements are the same and only the bound values may
differ. A runtime that limits digits may end one of the runs before, at a number that is joined.

`Agree` relates the two runs. It is carried from references over terms and directives to lines by
induction on what is rendered, and every step on the way respects it because it commutes with
redaction.
-/

namespace SqlTemplate

/-- Values that rendering cannot tell apart. -/
def Value.Alike (n : Negatives) (v w : Value) : Prop :=
  (n.isNegative v = true ∧ n.isNegative w = true) ∨
    (n.isNegative v = false ∧ n.isNegative w = false ∧
      v.resolve.isSequence = w.resolve.isSequence ∧
      v.flatten.map Value.isNull = w.flatten.map Value.isNull)

instance (n : Negatives) (v w : Value) : Decidable (v.Alike n w) :=
  inferInstanceAs (Decidable (_ ∨ _))

/-- Two runs that miss the same parameter, or whose results look the same, or of which one stops at a
value that is too long. -/
inductive Agree {α β : Type} (resource : Option Text) (view : α → β) :
    Except RenderError α → Except RenderError α → Prop
  | ok {a b : α} (h : view a = view b) : Agree resource view (.ok a) (.ok b)
  | missing (key : Text) :
      Agree resource view (.error (.missingParameter key resource))
        (.error (.missingParameter key resource))
  | overlong (y : Except RenderError α) : Agree resource view (.error .tooManyDigits) y
  | otherOverlong (x : Except RenderError α) : Agree resource view x (.error .tooManyDigits)

namespace Agree

variable {α β γ δ : Type} {resource : Option Text} {view : α → β} {look : γ → δ}
  {x y : Except RenderError α}

theorem bind {f g : α → Except RenderError γ} (h : Agree resource view x y)
    (hfg : ∀ a b, x = .ok a → view a = view b → Agree resource look (f a) (g b)) :
    Agree resource look (x >>= f) (y >>= g) := by
  cases h with
  | ok hab => exact hfg _ _ rfl hab
  | missing key => exact .missing key
  | overlong y => exact .overlong _
  | otherOverlong x => exact .otherOverlong _

theorem map {f g : α → γ} (h : Agree resource view x y)
    (hfg : ∀ a b, view a = view b → look (f a) = look (g b)) :
    Agree resource look (x >>= fun a => .ok (f a)) (y >>= fun b => .ok (g b)) :=
  h.bind fun a b _ hab => .ok (hfg a b hab)

end Agree

namespace Function

open Contribution

variable {ins ins' : Option (List Contribution)} {chain chain' : List Contribution}

/-- Conditions of calls that look the same. -/
theorem exists_condition?_eq (hins : ins.map (List.map redact) = ins'.map (List.map redact))
    (hchain : chain.map redact = chain'.map redact) (hne : ins ≠ none ∨ chain ≠ []) :
    ∃ c rest c' rest', condition? ins chain = some (c, rest) ∧
      condition? ins' chain' = some (c', rest') ∧ c.redact = c'.redact ∧
      rest.map redact = rest'.map redact := by
  cases ins with
  | some inside =>
      cases ins' with
      | none => simp at hins
      | some inside' =>
          have hinside := Option.some.inj hins
          exact ⟨_, _, _, _, rfl, rfl, redact_merge_eq hinside, hchain⟩
  | none =>
      cases ins' with
      | some inside' => simp at hins
      | none =>
          cases chain with
          | nil => simp at hne
          | cons c rest =>
              cases chain' with
              | nil => simp at hchain
              | cons c' rest' =>
                  obtain ⟨hc, hrest⟩ := List.cons.inj hchain
                  exact ⟨c, rest, c', rest', rfl, rfl, hc, hrest⟩

theorem map_redact_getD_eq (hins : ins.map (List.map redact) = ins'.map (List.map redact))
    (hchain : chain.map redact = chain'.map redact) :
    (ins.getD chain).map redact = (ins'.getD chain').map redact := by
  cases ins with
  | none =>
      cases ins' with
      | none => exact hchain
      | some inside' => simp at hins
  | some inside =>
      cases ins' with
      | none => simp at hins
      | some inside' => exact Option.some.inj hins

theorem redact_settle_eq {f : Function} {negated : Bool} {condition condition' : Contribution}
    {rest rest' : List Contribution} (hcondition : condition.redact = condition'.redact)
    (hrest : rest.map redact = rest'.map redact) :
    (f.settle negated condition rest).redact = (f.settle negated condition' rest').redact := by
  rw [settle, settle, keepsLine_eq hcondition, disposed_eq hcondition]
  split
  · exact redact_ofHolding_eq hcondition hrest
  · rfl

theorem redact_followed_eq {c c' : Contribution} (hc : c.redact = c'.redact)
    (hins : ins.map (List.map redact) = ins'.map (List.map redact))
    (hchain : chain.map redact = chain'.map redact) :
    (followed ins chain c).redact = (followed ins' chain' c').redact := by
  cases ins with
  | none =>
      cases ins' with
      | none => exact hc
      | some inside' => simp at hins
  | some inside =>
      cases ins' with
      | none => simp at hins
      | some inside' =>
          apply redact_merge_eq
          rw [List.map_cons, List.map_cons, hc, hchain]

/-- A function that writes no text of the statement, applied to a condition if it needs one. -/
theorem agree_apply [Runtime] {f : Function} (hf : f ≠ sql) (resource : Option Text) (n : Negatives)
    (negated : Bool) (hins : ins.map (List.map redact) = ins'.map (List.map redact))
    (hchain : chain.map redact = chain'.map redact)
    (hne : (f = ifPresent ∨ f = ifOutput) → ins ≠ none ∨ chain ≠ []) :
    Agree resource redact (f.apply n negated ins chain) (f.apply n negated ins' chain') := by
  have hne' : (f = ifPresent ∨ f = ifOutput) → ins' ≠ none ∨ chain' ≠ [] := by
    intro hcondition
    obtain ⟨_, _, _, _, -, hsome, -⟩ := exists_condition?_eq hins hchain (hne hcondition)
    cases ins' with
    | some inside' => exact .inl (Option.some_ne_none _)
    | none =>
        cases chain' with
        | nil => cases hsome
        | cons c rest => exact .inr (List.cons_ne_nil _ _)
  cases h : f.apply n negated ins chain with
  | error e =>
      obtain ⟨rfl, -⟩ := unwritten_of_apply_eq_error hne h
      exact .overlong _
  | ok c =>
      cases h' : f.apply n negated ins' chain' with
      | error e =>
          obtain ⟨rfl, -⟩ := unwritten_of_apply_eq_error hne' h'
          exact .otherOverlong _
      | ok c' =>
          refine .ok ?_
          rcases apply_eq_ok_iff.1 h with ⟨t, ht, rfl⟩ | ⟨hcondition, condition, rest, hsome, rfl⟩
          · obtain ⟨t', ht', rfl⟩ := (apply_eq_ok_iff.1 h').resolve_right
              (fun hconditional => ht.not_conditional hconditional.1)
            exact redact_followed_eq (redact_eq_of_transformed hf ht ht'
              (map_redact_getD_eq hins hchain)) hins hchain
          · obtain ⟨-, condition', rest', hsome', rfl⟩ := (apply_eq_ok_iff.1 h').resolve_left
              (fun ⟨_, ht', _⟩ => ht'.not_conditional hcondition)
            obtain ⟨x, xs, x', xs', hx, hx', hc, hrest⟩ :=
              exists_condition?_eq hins hchain (hne hcondition)
            obtain ⟨rfl, rfl⟩ := Prod.mk.inj (Option.some.inj (hsome.symm.trans hx))
            obtain ⟨rfl, rfl⟩ := Prod.mk.inj (Option.some.inj (hsome'.symm.trans hx'))
            exact redact_settle_eq hc hrest

end Function

section Runs

variable {r : Renderer} {p q : Parameters}

/-- A term that gives nothing away about the values in which two parameter maps differ. -/
structure Term.Discreet (r : Renderer) (p q : Parameters) (t : Term) : Prop where
  valid : t.IsValid r.registry
  callee : ∀ name, t.callee? = some name → r.registry.find? name ≠ some .sql
  key : ∀ key, t.key? = some key → Value.Alike r.negatives (p.get key) (q.get key)

variable (resource : Option Text) (d : Directive)

theorem Reference.agree_evaluate (hlimit : 1 ≤ r.limit) {kind : Reference} {key : Text}
    {negated : Bool} (h : Value.Alike r.negatives (p.get key) (q.get key)) :
    Agree resource Contribution.redact (kind.evaluate ⟨r, resource, p⟩ d key negated)
      (kind.evaluate ⟨r, resource, q⟩ d key negated) := by
  rcases h with ⟨hp, hq⟩ | ⟨hp, hq, hsequence, hnulls⟩
  · rw [evaluate_of_absent negated hp, evaluate_of_absent negated hq]
    exact .ok rfl
  · have hlength : (p.get key).flatten.length = (q.get key).flatten.length := by
      simpa using congrArg List.length hnulls
    have hvalues := Value.map_redact_eq_of_map_isNull_eq hnulls
    have hbound : (Contribution.ofValues (p.get key).flatten).redact =
        (Contribution.ofValues (q.get key).flatten).redact :=
      congrArg Contribution.ofValues hvalues
    cases negated with
    | true =>
        rw [evaluate_negated_of_present hp, evaluate_negated_of_present hq]
        exact .ok rfl
    | false =>
        cases kind with
        | presence =>
            rw [evaluate_presence_of_present hp, evaluate_presence_of_present hq]
            exact .ok rfl
        | param =>
            rw [evaluate_of_present (by simp) hp (.inl rfl),
              evaluate_of_present (by simp) hq (.inl rfl)]
            exact .ok hbound
        | condition =>
            cases hc : d.comparison with
            | none =>
                rw [evaluate_of_present (by simp) hp (.inr hc),
                  evaluate_of_present (by simp) hq (.inr hc)]
                exact .ok hbound
            | some c =>
                obtain ⟨t, ht⟩ := Marks.exists_condition_eq_ok c (q.get key).flatten.length
                  (q.get key).resolve.isSequence d.sample (show r.limit ≠ 0 by omega)
                have htp : Marks.condition c (p.get key).flatten.length
                    (p.get key).resolve.isSequence d.sample r.limit = .ok t := by
                  rw [hsequence, hlength, ht]
                rw [evaluate_condition_of_present (s := ⟨r, resource, p⟩) hp hc htp,
                  evaluate_condition_of_present (s := ⟨r, resource, q⟩) hq hc ht]
                exact .ok (congrArg (fun c : Contribution => { c with replacement := some t })
                  hbound)

mutual

theorem Term.agree_evaluate [Runtime] (hlimit : 1 ≤ r.limit) (t : Term)
    (h : ∀ u ∈ t.subterms, u.Discreet r p q) :
    Agree resource Contribution.redact (Term.evaluate ⟨r, resource, p⟩ d t)
      (Term.evaluate ⟨r, resource, q⟩ d t) := by
  cases t with
  | reference kind key negated =>
      have ht := h _ (List.mem_singleton_self _)
      exact Reference.agree_evaluate resource d hlimit (ht.key key rfl)
  | required key =>
      have ht := h _ (List.mem_singleton_self _)
      rw [Term.evaluate, Term.evaluate]
      rcases ht.key key rfl with ⟨hp, hq⟩ | ⟨hp, hq, -, hnulls⟩
      · rw [if_pos hp, if_pos hq]
        exact .missing key
      · rw [if_neg (by simp [hp]), if_neg (by simp [hq])]
        exact .ok (congrArg Contribution.ofValues (Value.map_redact_eq_of_map_isNull_eq hnulls))
  | literal t => exact .ok rfl
  | group chain =>
      have hchain := Term.agree_evaluateAll hlimit chain
        fun u hu => h u (List.mem_cons_of_mem _ hu)
      exact hchain.map fun a b hab => Contribution.redact_merge_eq hab
  | call name negated inside chain =>
      obtain ⟨hvalid, hcallee, -⟩ := h _ (Term.mem_subterms_self _)
      obtain ⟨f, hf, hproblem⟩ := hvalid
      have hsql : f ≠ .sql := by
        rintro rfl
        exact hcallee name rfl hf
      have hinside := Term.agree_evaluateInside hlimit inside
        fun u hu => h u (List.mem_cons_of_mem _ (List.mem_append_left _ hu))
      have hchain := Term.agree_evaluateAll hlimit chain
        fun u hu => h u (List.mem_cons_of_mem _ (List.mem_append_right _ hu))
      rw [Term.evaluate, Term.evaluate, hf]
      refine hinside.bind fun ins ins' hins hsame => hchain.bind fun cs cs' hcs hcsame => ?_
      apply Function.agree_apply hsql resource _ negated hsame hcsame
      intro hcond
      exact Term.ne_nil_of_evaluate (Function.ne_nil_of_problem?_eq_none hproblem hcond) hins hcs

theorem Term.agree_evaluateInside [Runtime] (hlimit : 1 ≤ r.limit) (inside : Option (List Term))
    (h : ∀ u ∈ Term.subtermsInside inside, u.Discreet r p q) :
    Agree resource (Option.map (List.map Contribution.redact))
      (Term.evaluateInside ⟨r, resource, p⟩ d inside)
      (Term.evaluateInside ⟨r, resource, q⟩ d inside) := by
  cases inside with
  | none => exact .ok rfl
  | some chain =>
      exact (Term.agree_evaluateAll hlimit chain h).map fun a b hab => congrArg some hab

theorem Term.agree_evaluateAll [Runtime] (hlimit : 1 ≤ r.limit) (ts : List Term)
    (h : ∀ u ∈ Term.subtermsAll ts, u.Discreet r p q) :
    Agree resource (List.map Contribution.redact) (Term.evaluateAll ⟨r, resource, p⟩ d ts)
      (Term.evaluateAll ⟨r, resource, q⟩ d ts) := by
  cases ts with
  | nil => exact .ok rfl
  | cons t ts =>
      have ht := Term.agree_evaluate hlimit t fun u hu => h u (List.mem_append_left _ hu)
      have hts := Term.agree_evaluateAll hlimit ts fun u hu => h u (List.mem_append_right _ hu)
      rw [Term.evaluateAll, Term.evaluateAll]
      refine ht.bind fun c c' _ hc => hts.map fun cs cs' hcs => ?_
      rw [List.map_cons, List.map_cons, hc, hcs]

end

/-- A directive made of discreet terms. -/
def Directive.Discreet (r : Renderer) (p q : Parameters) (d : Directive) : Prop :=
  ∀ u ∈ Term.subtermsAll d.expression, u.Discreet r p q

theorem Directive.agree_evaluate [Runtime] (hlimit : 1 ≤ r.limit) {d : Directive}
    (h : d.Discreet r p q) :
    Agree resource Contribution.redact (d.evaluate ⟨r, resource, p⟩)
      (d.evaluate ⟨r, resource, q⟩) :=
  (Term.agree_evaluateAll resource d hlimit d.expression h).map
    fun _ _ hc => Contribution.redact_merge_eq hc

theorem Contribution.dropsLine_eq {c c' : Contribution} (h : c.redact = c'.redact) :
    c.dropsLine = c'.dropsLine := by
  rw [dropsLine, dropsLine, keepsLine_eq h, disposed_eq h]

theorem Directive.redact_output_eq (d : Directive) {c c' : Contribution}
    (h : c.redact = c'.redact) : (d.output c).redact = (d.output c').redact := by
  rw [redact_output, h, ← redact_output]

theorem Block.redact_assemble_eq (lines : List Line) {results results' : List (Option Fragment)}
    (h : results.map (Option.map Fragment.redact) = results'.map (Option.map Fragment.redact)) :
    (assemble lines results).map Fragment.redact =
      (assemble lines results').map Fragment.redact := by
  rw [redact_assemble, h, ← redact_assemble]

theorem Fragment.redact_map_append_eq (before : Fragment) {f f' : Fragment}
    {after after' : Option Fragment} (hf : f.redact = f'.redact)
    (hafter : after.map redact = after'.map redact) :
    (after.map fun g => before ++ f ++ g).map redact =
      (after'.map fun g => before ++ f' ++ g).map redact := by
  have hsplit : ∀ (f : Fragment) (after : Option Fragment),
      (after.map fun g => before ++ f ++ g).map redact =
        (after.map redact).map fun g => before.redact ++ f.redact ++ g := by
    intro f after
    cases after with
    | none => rfl
    | some g => simp
  rw [hsplit, hsplit, hf, hafter]

mutual

/-- Runs of a line agree if its directives are discreet. -/
theorem Line.agree_render [Runtime] (hlimit : 1 ≤ r.limit) (l : Line)
    (hsplices : ∀ d ∈ Splice.deepDirectives l.splices, d.Discreet r p q)
    (hchildren : ∀ d ∈ Line.deepDirectives l.children, d.Discreet r p q) :
    Agree resource (Option.map Fragment.redact) (Line.render ⟨r, resource, p⟩ l)
      (Line.render ⟨r, resource, q⟩ l) := by
  cases l with
  | mk sql first last splices block =>
      rw [Line.render, Line.render]
      refine (Line.agree_renderSplices hlimit 0 sql splices hsplices).bind ?_
      intro own own' _ hown
      cases own with
      | none =>
          cases own' with
          | none => exact .ok rfl
          | some f' => simp at hown
      | some f =>
          cases own' with
          | none => simp at hown
          | some f' =>
              have hstripped : Fragment.redact ⟨strip f.sql, f.values⟩ =
                  Fragment.redact ⟨strip f'.sql, f'.values⟩ :=
                congrArg (fun g : Fragment => { g with sql := strip g.sql })
                  (Option.some.inj hown)
              cases block with
              | none => exact .ok (congrArg some hstripped)
              | some children =>
                  dsimp only
                  split
                  · exact .ok (congrArg some hstripped)
                  · refine (Line.agree_renderAll hlimit children hchildren).map ?_
                    intro results results' hresults
                    rw [Block.redact_attach, Block.redact_attach, hstripped,
                      Block.redact_assemble_eq children hresults]

theorem Line.agree_renderSplices [Runtime] (hlimit : 1 ≤ r.limit) (start : Nat) (rest : Text)
    (splices : List Splice) (h : ∀ d ∈ Splice.deepDirectives splices, d.Discreet r p q) :
    Agree resource (Option.map Fragment.redact)
      (Line.renderSplices ⟨r, resource, p⟩ start rest splices)
      (Line.renderSplices ⟨r, resource, q⟩ start rest splices) := by
  cases splices with
  | nil => exact .ok rfl
  | cons s splices =>
      cases s with
      | directive offset d =>
          obtain ⟨hd, hrest⟩ := Splice.forall_deepDirectives_directive.1 h
          rw [Line.renderSplices, Line.renderSplices]
          refine (Directive.agree_evaluate resource hlimit hd).bind ?_
          intro c c' _ hc
          rw [Contribution.dropsLine_eq hc]
          split
          · exact .ok rfl
          · refine (Line.agree_renderSplices hlimit offset _ splices hrest).map ?_
            intro after after' hafter
            exact Fragment.redact_map_append_eq _ (d.redact_output_eq hc) hafter
      | group offset lines =>
          obtain ⟨hlines, hrest⟩ := Splice.forall_deepDirectives_group.1 h
          rw [Line.renderSplices, Line.renderSplices]
          refine (Line.agree_renderAll hlimit lines hlines).bind ?_
          intro results results' _ hresults
          have hcontent := Block.redact_assemble_eq lines hresults
          have hafter : ∀ f f' : Fragment, f.redact = f'.redact →
              Agree resource (Option.map Fragment.redact)
                (Line.renderSplices ⟨r, resource, p⟩ offset (rest.drop (offset - start)) splices >>=
                  fun after => .ok (after.map fun g => ⟨rest.take (offset - start), []⟩ ++ f ++ g))
                (Line.renderSplices ⟨r, resource, q⟩ offset (rest.drop (offset - start)) splices >>=
                  fun after =>
                    .ok (after.map fun g => ⟨rest.take (offset - start), []⟩ ++ f' ++ g)) :=
            fun f f' hf => (Line.agree_renderSplices hlimit offset _ splices hrest).map
              fun _ _ hafter => Fragment.redact_map_append_eq _ hf hafter
          cases hp : Block.assemble lines results with
          | none =>
              cases hq : Block.assemble lines results' with
              | none =>
                  cases lines with
                  | nil => exact hafter _ _ rfl
                  | cons l ls => exact .ok rfl
              | some f' => simp [hp, hq] at hcontent
          | some f =>
              cases hq : Block.assemble lines results' with
              | none => simp [hp, hq] at hcontent
              | some f' =>
                  rw [hp, hq] at hcontent
                  exact hafter f f' (Option.some.inj hcontent)

theorem Line.agree_renderAll [Runtime] (hlimit : 1 ≤ r.limit) (ls : List Line)
    (h : ∀ d ∈ Line.deepDirectives ls, d.Discreet r p q) :
    Agree resource (List.map (Option.map Fragment.redact))
      (Line.renderAll ⟨r, resource, p⟩ ls) (Line.renderAll ⟨r, resource, q⟩ ls) := by
  cases ls with
  | nil => exact .ok rfl
  | cons l ls =>
      obtain ⟨⟨hsplices, hchildren⟩, hls⟩ := Line.forall_deepDirectives_cons.1 h
      rw [Line.renderAll, Line.renderAll]
      refine (Line.agree_render hlimit l hsplices hchildren).bind fun result result' _ hresult => ?_
      refine (Line.agree_renderAll hlimit ls hls).map fun results results' hresults => ?_
      rw [List.map_cons, List.map_cons, hresult, hresults]

end

end Runs

end SqlTemplate
