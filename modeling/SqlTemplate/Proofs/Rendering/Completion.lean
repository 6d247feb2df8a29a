import SqlTemplate.Proofs.Rendering.Overlong
import SqlTemplate.Proofs.Template.Reading

/-!
# What rendering can fail for

A template that was parsed can be rendered with any parameters, up to a required one that is negative.
What else could go wrong is ruled out before: the functions that a template calls were looked up when
it was compiled, the conditional ones were given a condition then, and a limit other than zero splits
every list into parts. Only a runtime that limits the digits of numbers may end a run for a reason of
its own, at a number that is joined into a text (`render_eq_ok_or_missing_or_overlong`).

`Template.FailsWith` lists these reasons, and `FailsOnly` says of a run that it fails for no other one.
It is carried from references over terms and directives to lines by induction on what is rendered.
-/

namespace SqlTemplate

/-- The key of a required reference. -/
def Term.requiredKey? : Term → Option Text
  | required key => some key
  | _ => none

/-- The keys that a template requires. -/
def Template.requiredKeys (t : Template) : List Text :=
  t.deepDirectives.flatMap fun d => (Term.subtermsAll d.expression).filterMap Term.requiredKey?

/-- A template with a call of a function that joins values, around a parameter with a value that is
too long. -/
def Template.Overlong [Runtime] (r : Renderer) (p : Parameters) (t : Template) : Prop :=
  ∃ d ∈ t.deepDirectives, d.Overlong r p

theorem Template.Overlong.digitLimit_ne_zero [Runtime] {r : Renderer} {p : Parameters}
    {t : Template}
    (h : t.Overlong r p) : Runtime.digitLimit ≠ 0 := by
  obtain ⟨d, -, hd⟩ := h
  exact hd.digitLimit_ne_zero

/-- The reasons for which a run of a template may fail: a required parameter that is negative, a list
that has to be split into parts of no values, and a value that is too long to be joined. -/
inductive Template.FailsWith [Runtime] (r : Renderer) (p : Parameters) (t : Template) :
    RenderError → Prop
  | missing {key : Text} (hkey : key ∈ t.requiredKeys)
      (habsent : r.negatives.isNegative (p.get key) = true) :
      FailsWith r p t (.missingParameter key t.resource)
  | zeroLimit (h : r.limit = 0) : FailsWith r p t .zeroLimit
  | overlong (h : t.Overlong r p) : FailsWith r p t .tooManyDigits

/-- A run that fails with no other errors than those that are `Allowed`. -/
def FailsOnly {α : Type} (Allowed : RenderError → Prop) (x : Except RenderError α) : Prop :=
  ∀ e, x = .error e → Allowed e

namespace FailsOnly

variable {α β : Type} {Allowed : RenderError → Prop} {x : Except RenderError α}

theorem ok (a : α) : FailsOnly Allowed (.ok a : Except RenderError α) := fun _ h => by cases h

theorem error {e : RenderError} (h : Allowed e) :
    FailsOnly Allowed (.error e : Except RenderError α) := by
  intro e' he
  obtain rfl := Except.error.inj he
  exact h

theorem bind {f : α → Except RenderError β} (h : FailsOnly Allowed x)
    (hf : ∀ a, x = .ok a → FailsOnly Allowed (f a)) : FailsOnly Allowed (x >>= f) := by
  cases x with
  | ok a => exact hf a rfl
  | error e => exact error (h e rfl)

theorem map (f : α → β) (h : FailsOnly Allowed x) :
    FailsOnly Allowed (x >>= fun a => .ok (f a)) :=
  h.bind fun a _ => .ok (f a)

end FailsOnly

namespace Marks

/-- A comparison can be written for every count of values unless the limit is zero. -/
theorem exists_condition_eq_ok (c : Comparison) (count : Nat) (multi : Bool) (sample : Option Text)
    {limit : Int} (h : limit ≠ 0) : ∃ t, condition c count multi sample limit = .ok t := by
  unfold condition
  split
  · dsimp only
    split
    · exact ⟨_, rfl⟩
    · exact ⟨_, rfl⟩
  · split
    · unfold membership
      split
      · exact ⟨_, rfl⟩
      · split
        · exact ⟨_, rfl⟩
        · match limit with
          | .ofNat 0 => exact absurd rfl h
          | .ofNat (n + 1) => exact ⟨_, rfl⟩
          | .negSucc n => exact ⟨_, rfl⟩
    · exact ⟨_, rfl⟩

end Marks

namespace Function

variable {ins : Option (List Contribution)} {chain : List Contribution}

theorem exists_condition?_eq_some (h : ins ≠ none ∨ chain ≠ []) :
    ∃ c rest, condition? ins chain = some (c, rest) := by
  cases ins with
  | some inside => exact ⟨_, _, rfl⟩
  | none =>
      cases chain with
      | nil => simp at h
      | cons c rest => exact ⟨c, rest, rfl⟩

/-- A function that is given a condition when it needs one fails only for a value that cannot be
joined. -/
theorem unwritten_of_apply_eq_error [Runtime] {f : Function} {n : Negatives} {negated : Bool}
    {e : RenderError} (hne : (f = ifPresent ∨ f = ifOutput) → ins ≠ none ∨ chain ≠ [])
    (h : f.apply n negated ins chain = .error e) :
    e = .tooManyDigits ∧ f.joins = true ∧ ∃ c ∈ ins.getD chain, c.Unwritten n := by
  rcases apply_eq_error h with hjoins | ⟨hf, hnone⟩
  · exact hjoins
  · obtain ⟨c, rest, hc⟩ := exists_condition?_eq_some (hne hf)
    rw [hnone] at hc
    cases hc

theorem ne_nil_of_problem?_eq_none {f : Function} {name : Text} {inside : Option (List Term)}
    {terms : List Term} (h : f.problem? name inside terms = none)
    (hf : f = ifPresent ∨ f = ifOutput) : inside ≠ none ∨ terms ≠ [] := by
  rcases hf with rfl | rfl
  · cases inside <;> cases terms <;> simp [problem?] at h ⊢
  · cases inside <;> cases terms <;> simp [problem?] at h ⊢

end Function

/-- A reference fails only where a list has to be split into parts of no values. -/
theorem Reference.limit_eq_zero_of_evaluate {s : Scope} {d : Directive} {kind : Reference}
    {key : Text} {negated : Bool} {e : RenderError}
    (h : kind.evaluate s d key negated = .error e) : e = .zeroLimit ∧ s.renderer.limit = 0 := by
  unfold evaluate at h
  dsimp only at h
  split at h
  · cases h
  split at h
  · cases h
  split at h
  · rename_i comparison _ _
    split at h
    · cases h
    · rename_i hcondition
      refine ⟨(Except.error.inj h).symm, ?_⟩
      by_contra hlimit
      obtain ⟨t, ht⟩ := Marks.exists_condition_eq_ok comparison
        (s.parameters.get key).flatten.length (s.parameters.get key).resolve.isSequence d.sample
        hlimit
      rw [ht] at hcondition
      cases hcondition
  · cases h

section Runs

variable [Runtime] {r : Renderer} {resource : Option Text} {p : Parameters}
  {Allowed : RenderError → Prop} (d : Directive)

/-- A term that is no call or a valid one, and fails only with errors that are `Allowed`: as a
reference to a required parameter that is negative, and as a call that joins values that are too
long. -/
structure Term.Fulfilled (r : Renderer) (resource : Option Text) (p : Parameters)
    (Allowed : RenderError → Prop) (t : Term) : Prop where
  valid : t.IsValid r.registry
  required : ∀ key, t.requiredKey? = some key → r.negatives.isNegative (p.get key) = true →
    Allowed (.missingParameter key resource)
  overlong : t.Overlong r p → Allowed .tooManyDigits

mutual

theorem Term.failsOnly_evaluate (hlimit : r.limit = 0 → Allowed .zeroLimit) (t : Term)
    (h : ∀ u ∈ t.subterms, u.Fulfilled r resource p Allowed) :
    FailsOnly Allowed (Term.evaluate ⟨r, resource, p⟩ d t) := by
  cases t with
  | reference kind key negated =>
      intro e he
      obtain ⟨rfl, hzero⟩ := Reference.limit_eq_zero_of_evaluate he
      exact hlimit hzero
  | required key =>
      rw [Term.evaluate]
      split
      · rename_i habsent
        exact .error ((h _ (List.mem_singleton_self _)).required key rfl habsent)
      · exact .ok _
  | literal t => exact .ok _
  | group chain =>
      exact (Term.failsOnly_evaluateAll hlimit chain
        fun u hu => h u (List.mem_cons_of_mem _ hu)).map _
  | call name negated inside chain =>
      have hself := h _ (Term.mem_subterms_self _)
      obtain ⟨f, hf, hproblem⟩ := hself.valid
      have hinside := Term.failsOnly_evaluateInside hlimit inside
        fun u hu => h u (List.mem_cons_of_mem _ (List.mem_append_left _ hu))
      have hchain := Term.failsOnly_evaluateAll hlimit chain
        fun u hu => h u (List.mem_cons_of_mem _ (List.mem_append_right _ hu))
      rw [Term.evaluate, hf]
      refine hinside.bind fun ins hins => hchain.bind fun cs hcs => ?_
      have hne : (f = .ifPresent ∨ f = .ifOutput) → ins ≠ none ∨ cs ≠ [] := fun hcond =>
        Term.ne_nil_of_evaluate (Function.ne_nil_of_problem?_eq_none hproblem hcond) hins hcs
      cases happly : f.apply r.negatives negated ins cs with
      | ok c => exact .ok c
      | error e =>
          obtain ⟨rfl, hjoins, c, hc, hunwritten⟩ :=
            Function.unwritten_of_apply_eq_error hne happly
          refine .error (hself.overlong ⟨⟨name, f, rfl, hf, hjoins⟩, ?_⟩)
          exact Term.exists_overlong_of_call hins hcs hc hunwritten

theorem Term.failsOnly_evaluateInside (hlimit : r.limit = 0 → Allowed .zeroLimit)
    (inside : Option (List Term))
    (h : ∀ u ∈ Term.subtermsInside inside, u.Fulfilled r resource p Allowed) :
    FailsOnly Allowed (Term.evaluateInside ⟨r, resource, p⟩ d inside) := by
  cases inside with
  | none => exact .ok _
  | some chain => exact (Term.failsOnly_evaluateAll hlimit chain h).map _

theorem Term.failsOnly_evaluateAll (hlimit : r.limit = 0 → Allowed .zeroLimit) (ts : List Term)
    (h : ∀ u ∈ Term.subtermsAll ts, u.Fulfilled r resource p Allowed) :
    FailsOnly Allowed (Term.evaluateAll ⟨r, resource, p⟩ d ts) := by
  cases ts with
  | nil => exact .ok _
  | cons t ts =>
      have ht := Term.failsOnly_evaluate hlimit t fun u hu => h u (List.mem_append_left _ hu)
      have hts := Term.failsOnly_evaluateAll hlimit ts fun u hu => h u (List.mem_append_right _ hu)
      exact ht.bind fun c _ => hts.map _

end

/-- A directive made of fulfilled terms. -/
def Directive.Fulfilled (r : Renderer) (resource : Option Text) (p : Parameters)
    (Allowed : RenderError → Prop) (d : Directive) : Prop :=
  ∀ u ∈ Term.subtermsAll d.expression, u.Fulfilled r resource p Allowed

mutual

/-- The run of a line fails for no other reason if its directives are fulfilled. -/
theorem Line.failsOnly_render (hlimit : r.limit = 0 → Allowed .zeroLimit) (l : Line)
    (hsplices : ∀ d ∈ Splice.deepDirectives l.splices, d.Fulfilled r resource p Allowed)
    (hchildren : ∀ d ∈ Line.deepDirectives l.children, d.Fulfilled r resource p Allowed) :
    FailsOnly Allowed (Line.render ⟨r, resource, p⟩ l) := by
  cases l with
  | mk sql first last splices block =>
      rw [Line.render]
      refine (Line.failsOnly_renderSplices hlimit 0 sql splices hsplices).bind fun own _ => ?_
      cases own with
      | none => exact .ok _
      | some f =>
          cases block with
          | none => exact .ok _
          | some children =>
              dsimp only
              split
              · exact .ok _
              · exact (Line.failsOnly_renderAll hlimit children hchildren).map _

theorem Line.failsOnly_renderSplices (hlimit : r.limit = 0 → Allowed .zeroLimit) (start : Nat)
    (rest : Text) (splices : List Splice)
    (h : ∀ d ∈ Splice.deepDirectives splices, d.Fulfilled r resource p Allowed) :
    FailsOnly Allowed (Line.renderSplices ⟨r, resource, p⟩ start rest splices) := by
  cases splices with
  | nil => exact .ok _
  | cons s splices =>
      cases s with
      | directive offset d =>
          obtain ⟨hd, hrest⟩ := Splice.forall_deepDirectives_directive.1 h
          have hdirective : FailsOnly Allowed (d.evaluate ⟨r, resource, p⟩) :=
            (Term.failsOnly_evaluateAll d hlimit d.expression hd).map _
          rw [Line.renderSplices]
          refine hdirective.bind fun c _ => ?_
          split
          · exact .ok _
          · exact (Line.failsOnly_renderSplices hlimit offset _ splices hrest).map _
      | group offset lines =>
          obtain ⟨hlines, hrest⟩ := Splice.forall_deepDirectives_group.1 h
          rw [Line.renderSplices]
          refine (Line.failsOnly_renderAll hlimit lines hlines).bind fun results _ => ?_
          split
          · exact .ok _
          · exact (Line.failsOnly_renderSplices hlimit offset _ splices hrest).map _

theorem Line.failsOnly_renderAll (hlimit : r.limit = 0 → Allowed .zeroLimit) (ls : List Line)
    (h : ∀ d ∈ Line.deepDirectives ls, d.Fulfilled r resource p Allowed) :
    FailsOnly Allowed (Line.renderAll ⟨r, resource, p⟩ ls) := by
  cases ls with
  | nil => exact .ok _
  | cons l ls =>
      obtain ⟨⟨hsplices, hchildren⟩, hls⟩ := Line.forall_deepDirectives_cons.1 h
      rw [Line.renderAll]
      exact (Line.failsOnly_render hlimit l hsplices hchildren).bind fun result _ =>
        (Line.failsOnly_renderAll hlimit ls hls).map _

end

end Runs

section Parsed

variable {r : Renderer} {resource : Option Text} {text : Text} {t : Template}

theorem Template.isValid_of_parse (ht : Template.parse r.registry resource text = .ok t) :
    ∀ d ∈ t.deepDirectives, ∀ u ∈ Term.subtermsAll d.expression, u.IsValid r.registry :=
  fun d hd => Term.forall_mem_subtermsAll_iff.2
    (Expression.sound_of_compile (compiled_of_parse ht d hd).expression)

variable [Runtime]

theorem Template.fulfilled_of_parse (ht : Template.parse r.registry resource text = .ok t)
    (p : Parameters) :
    ∀ d ∈ t.deepDirectives, d.Fulfilled r t.resource p (t.FailsWith r p) := by
  intro d hd u hu
  refine ⟨Template.isValid_of_parse ht d hd u hu, fun key hkey habsent => ?_,
    fun hoverlong => .overlong ⟨d, hd, u, hu, hoverlong⟩⟩
  exact .missing (List.mem_flatMap.2 ⟨d, hd, List.mem_filterMap.2 ⟨u, hu, hkey⟩⟩) habsent

/-- The run of a template that was parsed fails only for one of the reasons. -/
theorem Renderer.failsOnly_render (ht : Template.parse r.registry resource text = .ok t)
    (p : Parameters) : FailsOnly (t.FailsWith r p) (r.render t p) :=
  (Line.failsOnly_renderAll .zeroLimit t.lines (Template.fulfilled_of_parse ht p)).map
    fun results => (Block.assemble t.lines results).getD .empty

end Parsed

/-- A template with a condition inside of a condition and a required parameter. -/
def Template.conditionsAndKey : Template where
  lines :=
    [.mk "SELECT *".toList 1 1 [] none,
      .mk "WHERE".toList 2 2 []
        (some [.mk "  a = ".toList 3 3
            [.directive 6
              { source := "%!IF(&k) (%IFLN &x 'y') | $z".toList
                expression :=
                  [.call "IF".toList true (some [.reference .presence "k".toList false])
                      [.group [.call "IFLN".toList false none
                        [.reference .presence "x".toList false, .literal "y".toList]]],
                    .reference .param "z".toList false]
                sample := some "1".toList
                comparison := none
                line := some 3 }] none,
          .mk "  AND b = ".toList 4 4
            [.directive 10
              { source := "@b".toList
                expression := [.required "b".toList]
                sample := some "0".toList
                comparison := none
                line := some 4 }] none])]
  resource := none

/-- A directive that joins a parameter into a text, on a line with some number. -/
def Directive.concatenation (n : Nat) : Directive where
  source := "%CONCAT $x".toList
  expression := [.call "CONCAT".toList false none [.reference .param "x".toList false]]
  sample := some "1".toList
  comparison := none
  line := some n

/-- The only parameter is a whole number. -/
def Parameters.ofNumber (i : Int) : Parameters := ⟨[("x".toList, .int i)]⟩

/-- A directive that compares something with a parameter, on a line with some number. -/
def Directive.equality (n : Nat) : Directive where
  source := "?x".toList
  expression := [.reference .condition "x".toList false]
  sample := some "1".toList
  comparison := some ⟨"a".toList, "=".toList⟩
  line := some n

/-- The only parameter is a list. -/
def Parameters.twoNumbers : Parameters := ⟨[("x".toList, .sequence .list [.int 1, .int 2])]⟩

/-- A list cannot be split into parts of no values. -/
theorem Directive.evaluate_equality_of_zeroLimit [Runtime] (n : Nat) :
    (equality n).evaluate ⟨⟨.none, .standard, 0⟩, none, .twoNumbers⟩ = .error .zeroLimit := rfl

/-- A number with too many digits cannot be joined. -/
theorem Directive.evaluate_concatenation_of_tooLong [Runtime] {i : Int} (h : Decimal.TooLong i)
    (n : Nat) :
    (concatenation n).evaluate ⟨.standard, none, .ofNumber i⟩ = .error .tooManyDigits := by
  have hplain : (Value.int i).plain? = none :=
    (Value.plain?_eq_none_iff _).2 ⟨i, List.mem_singleton_self i, h⟩
  have hjoined : Contribution.concat Renderer.standard.negatives [.ofValues [.int i]] =
      .error .tooManyDigits :=
    Contribution.ofJoined_eq_error_iff.2
      ⟨rfl, _, List.mem_singleton_self _, rfl, _, List.mem_singleton_self _, rfl, hplain⟩
  have happly : Function.concat.apply Renderer.standard.negatives false none [.ofValues [.int i]] =
      .error .tooManyDigits := by
    simp only [Function.apply, Function.transform?, Option.getD_none, hjoined]
    rfl
  have hfind : Renderer.standard.registry.find? "CONCAT".toList = some .concat := rfl
  have hoperands : Term.evaluateAll ⟨.standard, none, .ofNumber i⟩ (concatenation n)
      [.reference .param "x".toList false] = .ok [.ofValues [.int i]] := rfl
  have hcall : Term.evaluate ⟨.standard, none, .ofNumber i⟩ (concatenation n)
      (.call "CONCAT".toList false none [.reference .param "x".toList false]) =
        .error .tooManyDigits := by
    simp only [Term.evaluate, Term.evaluateInside, hfind, hoperands, ok_bind, happly]
  have hexpression : (concatenation n).expression =
      [.call "CONCAT".toList false none [.reference .param "x".toList false]] := rfl
  rw [Directive.evaluate, hexpression, Term.evaluateAll, hcall]
  rfl

def Template.concatenation : Template where
  lines := [.mk "SELECT ".toList 1 1 [.directive 7 (.concatenation 1)] none]
  resource := none

/-- A run does end at a number with too many digits, where there are such numbers. -/
theorem Template.render_concatenation_of_tooLong [Runtime] {i : Int} (h : Decimal.TooLong i) :
    Template.parse .standard none "SELECT /* %CONCAT $x */1".toList = .ok .concatenation ∧
      Renderer.standard.render .concatenation (.ofNumber i) = .error .tooManyDigits := by
  refine ⟨by with_unfolding_all rfl, ?_⟩
  have hline : Line.render ⟨.standard, none, .ofNumber i⟩
      (.mk "SELECT ".toList 1 1 [.directive 7 (.concatenation 1)] none) =
        .error .tooManyDigits := by
    rw [Line.render, Line.renderSplices, Directive.evaluate_concatenation_of_tooLong h 1]
    rfl
  rw [Renderer.render, Template.concatenation, Line.renderAll, hline]
  rfl

end SqlTemplate
