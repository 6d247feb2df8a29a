import SqlTemplate.Proofs.Rendering.Evaluation

/-!
# Values that are too long to be joined

Functions that join values fail on a value that cannot be written. Every value that reaches them is
one of a parameter or a text that was joined before, and texts can be written (`kept_drawn`). So a
function fails only in a call around a parameter that is `Overlong`: a whole number in a value of it
has too many digits (`exists_overlong_of_unwritten`).
-/

namespace SqlTemplate

variable [Runtime]

/-- One of the values of a parameter is not negative, and a whole number in it is too long to be
written. -/
def Parameters.Overlong (p : Parameters) (n : Negatives) (key : Text) : Prop :=
  ∃ v ∈ (p.get key).flatten, n.isNegative v = false ∧ ∃ i ∈ v.numbers, Decimal.TooLong i

/-- A call of a function that joins values, around a parameter with a value that is too long. -/
def Term.Overlong (r : Renderer) (p : Parameters) (t : Term) : Prop :=
  (∃ name f, t.callee? = some name ∧ r.registry.find? name = some f ∧ f.joins = true) ∧
    ∃ u ∈ t.subterms, ∃ key, u.key? = some key ∧ p.Overlong r.negatives key

/-- A directive with such a call. -/
def Directive.Overlong (r : Renderer) (p : Parameters) (d : Directive) : Prop :=
  ∃ t ∈ Term.subtermsAll d.expression, t.Overlong r p

/-- Nothing is too long where the digits of numbers are not limited. -/
theorem Directive.Overlong.digitLimit_ne_zero {r : Renderer} {p : Parameters} {d : Directive}
    (h : d.Overlong r p) : Runtime.digitLimit ≠ 0 := by
  obtain ⟨t, -, -, u, -, key, -, v, -, -, i, -, hi⟩ := h
  exact hi.1

namespace Contribution

variable {p : Parameters} {Named : Text → Prop}

/-- Those values of a contribution that cannot be written are values of parameters that are
`Named`. -/
def Drawn (p : Parameters) (Named : Text → Prop) (c : Contribution) : Prop :=
  ∀ v ∈ c.values, v.plain? = none → ∃ key, Named key ∧ v ∈ (p.get key).flatten

theorem drawn_of_values_eq_nil {c : Contribution} (h : c.values = []) : c.Drawn p Named := by
  intro v hv
  rw [h] at hv
  cases hv

theorem drawn_joined (chain : List Contribution) (t : WideText) :
    (joined chain t).Drawn p Named := by
  intro v hv hplain
  obtain rfl := List.mem_singleton.1 hv
  cases hplain

theorem Drawn.escapeLike {c : Contribution} (h : c.Drawn p Named) : c.escapeLike.Drawn p Named := by
  intro v hv hplain
  obtain ⟨w, hw, rfl⟩ := List.mem_map.1 hv
  cases w with
  | text t => cases hplain
  | _ => exact h _ hw hplain

theorem drawn_merge {chain : List Contribution} (h : ∀ c ∈ chain, c.Drawn p Named) :
    (merge chain).Drawn p Named := by
  intro v hv
  rw [values_merge] at hv
  obtain ⟨c, hc, hv⟩ := List.mem_flatMap.1 hv
  exact h c hc v hv

theorem kept_drawn : Kept (fun _ => True) (Drawn p Named) where
  drop := fun _ => drawn_of_values_eq_nil rfl
  hold := fun _ => drawn_of_values_eq_nil rfl
  merge := fun _ h => drawn_merge h
  concat := drawn_joined
  like := drawn_joined
  escapeLike := fun _ h => h.escapeLike
  compact := fun _ _ h v hv => h v (List.mem_of_mem_filter hv)
  sql := fun _ _ _ => drawn_of_values_eq_nil rfl

end Contribution

/-- A value of a chain that cannot be joined is one of a parameter that the chain refers to. -/
theorem Term.exists_overlong_of_unwritten {s : Scope} {d : Directive} {ts : List Term}
    {cs : List Contribution} (hcs : Term.evaluateAll s d ts = .ok cs) {c : Contribution}
    (hc : c ∈ cs) (h : c.Unwritten s.renderer.negatives) :
    ∃ u ∈ Term.subtermsAll ts, ∃ key, u.key? = some key ∧
      s.parameters.Overlong s.renderer.negatives key := by
  have hsources : d.Sources s (fun key => ∃ u ∈ Term.subtermsAll ts, u.key? = some key)
      (Contribution.Drawn s.parameters fun key => ∃ u ∈ Term.subtermsAll ts, u.key? = some key) :=
    ⟨fun key hkey _ v hv _ => ⟨key, hkey, hv⟩, fun key _ _ hkey _ _ _ v hv _ => ⟨key, hkey, hv⟩⟩
  have hdrawn := Contribution.kept_drawn.of_evaluateAll hsources ts
    (fun u hu => ⟨fun key hkey => ⟨u, hu, hkey⟩,
      fun _ _ => Contribution.drawn_of_values_eq_nil rfl, fun _ _ _ _ => trivial⟩) hcs c hc
  obtain ⟨-, v, hv, hpresent, hplain⟩ := h
  obtain ⟨key, ⟨u, hu, hkey⟩, hflatten⟩ := hdrawn v hv hplain
  exact ⟨u, hu, key, hkey, v, hflatten, hpresent, (Value.plain?_eq_none_iff v).1 hplain⟩

/-- A value that the operands of a call cannot be joined for is one of a parameter that the call refers
to. -/
theorem Term.exists_overlong_of_call {s : Scope} {d : Directive} {name : Text} {negated : Bool}
    {inside : Option (List Term)} {chain : List Term} {ins : Option (List Contribution)}
    {cs : List Contribution} (hins : Term.evaluateInside s d inside = .ok ins)
    (hcs : Term.evaluateAll s d chain = .ok cs) {c : Contribution} (hc : c ∈ ins.getD cs)
    (h : c.Unwritten s.renderer.negatives) :
    ∃ u ∈ (Term.call name negated inside chain).subterms, ∃ key, u.key? = some key ∧
      s.parameters.Overlong s.renderer.negatives key := by
  rcases Term.evaluateInside_eq_ok_iff.1 hins with ⟨rfl, rfl⟩ | ⟨terms, xs, rfl, hxs, rfl⟩
  · obtain ⟨u, hu, hkey⟩ := Term.exists_overlong_of_unwritten hcs hc h
    exact ⟨u, List.mem_cons_of_mem _ (List.mem_append_right _ hu), hkey⟩
  · obtain ⟨u, hu, hkey⟩ := Term.exists_overlong_of_unwritten hxs hc h
    exact ⟨u, List.mem_cons_of_mem _ (List.mem_append_left _ hu), hkey⟩

end SqlTemplate
