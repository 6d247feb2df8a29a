import SqlTemplate.Directive.Expression
import SqlTemplate.Proofs.Directive.Spelling

/-!
# Terms inside of terms

`Term.subterms` lists a term and every term inside of it, from left to right. What a directive
refers to is read off this list: its keys, its literals and the names that it calls. A compiled
directive is writable (`writable_of_compile`): every name in it, however deep, is spelled as such,
and every call is a valid call of a function that the registry knows. This is carried through
compiling by `Unfinished.Writable`, which asks for it of all that has been read so far.
-/

namespace SqlTemplate

mutual

/-- A term and the terms inside of it. -/
def Term.subterms : Term → List Term
  | .reference kind key negated => [.reference kind key negated]
  | .required key => [.required key]
  | .literal t => [.literal t]
  | .group chain => .group chain :: Term.subtermsAll chain
  | .call name negated inside chain =>
      .call name negated inside chain :: (Term.subtermsInside inside ++ Term.subtermsAll chain)

/-- The terms in the parentheses of a call and the terms inside of them. -/
def Term.subtermsInside : Option (List Term) → List Term
  | none => []
  | some chain => Term.subtermsAll chain

/-- Terms and the terms inside of them. -/
def Term.subtermsAll : List Term → List Term
  | [] => []
  | t :: ts => Term.subterms t ++ Term.subtermsAll ts

end

namespace Term

/-- The key that a term refers to. -/
def key? : Term → Option Text
  | reference _ key _ => some key
  | required key => some key
  | _ => none

def literal? : Term → Option Text
  | literal t => some t
  | _ => none

def callee? : Term → Option Text
  | call name _ _ _ => some name
  | _ => none

theorem subtermsAll_eq_flatMap (ts : List Term) : subtermsAll ts = ts.flatMap subterms := by
  induction ts with
  | nil => rfl
  | cons t ts ih => rw [subtermsAll, ih, List.flatMap_cons]

theorem subtermsInside_eq (inside : Option (List Term)) :
    subtermsInside inside = subtermsAll (inside.getD []) := by
  cases inside with
  | none => rfl
  | some chain => rfl

theorem mem_subterms_self (t : Term) : t ∈ t.subterms := by
  cases t <;> simp [subterms]

end Term

namespace Expression

/-- The keys that a directive refers to. -/
def keys (e : Expression) : List Text := (Term.subtermsAll e).filterMap Term.key?

def literals (e : Expression) : List Text := (Term.subtermsAll e).filterMap Term.literal?

def callees (e : Expression) : List Text := (Term.subtermsAll e).filterMap Term.callee?

end Expression

namespace Term

/-- A term that is no call, or a valid call of a function that the registry knows. -/
def IsValid (registry : Registry) : Term → Prop
  | call name _ inside chain =>
      ∃ f, registry.find? name = some f ∧ f.problem? name inside chain = none
  | _ => True

/-- A term in which every call is a valid one. -/
def Sound (registry : Registry) (t : Term) : Prop := ∀ u ∈ t.subterms, u.IsValid registry

variable {registry : Registry}

theorem forall_mem_subtermsAll_iff {ts : List Term} :
    (∀ u ∈ subtermsAll ts, u.IsValid registry) ↔ ∀ t ∈ ts, t.Sound registry := by
  rw [subtermsAll_eq_flatMap]
  constructor
  · intro h t ht u hu
    exact h u (List.mem_flatMap.2 ⟨t, ht, hu⟩)
  · intro h u hu
    obtain ⟨t, ht, hut⟩ := List.mem_flatMap.1 hu
    exact h t ht u hut

/-- A term that can be written: the names in it are spelled as such, and it is no call or a valid
one. -/
def IsWritable (registry : Registry) : Term → Prop
  | reference _ key _ => Token.IsKey key
  | required key => Token.IsKey key
  | call name negated inside chain =>
      Token.IsName name ∧ (call name negated inside chain).IsValid registry
  | _ => True

/-- A term in which every term can be written. -/
def Writable (registry : Registry) (t : Term) : Prop := ∀ u ∈ t.subterms, u.IsWritable registry

theorem IsWritable.isValid {t : Term} (h : t.IsWritable registry) : t.IsValid registry := by
  cases t with
  | call name negated inside chain => exact h.2
  | _ => trivial

theorem Writable.sound {t : Term} (h : t.Writable registry) : t.Sound registry :=
  fun u hu => (h u hu).isValid

theorem writable_subtermsAll_iff {ts : List Term} :
    (∀ u ∈ subtermsAll ts, u.IsWritable registry) ↔ ∀ t ∈ ts, t.Writable registry := by
  rw [subtermsAll_eq_flatMap]
  constructor
  · intro h t ht u hu
    exact h u (List.mem_flatMap.2 ⟨t, ht, hu⟩)
  · intro h u hu
    obtain ⟨t, ht, hut⟩ := List.mem_flatMap.1 hu
    exact h t ht u hut

theorem writable_reference_iff {kind : Reference} {key : Text} {negated : Bool} :
    (reference kind key negated).Writable registry ↔ Token.IsKey key := by
  rw [Writable, subterms, List.forall_mem_singleton]
  rfl

theorem writable_required_iff {key : Text} :
    (required key).Writable registry ↔ Token.IsKey key := by
  rw [Writable, subterms, List.forall_mem_singleton]
  rfl

theorem writable_literal (t : Text) : (literal t).Writable registry := by
  rw [Writable, subterms, List.forall_mem_singleton]
  trivial

theorem writable_group_iff {chain : List Term} :
    (group chain).Writable registry ↔ ∀ t ∈ chain, t.Writable registry := by
  rw [Writable, subterms, List.forall_mem_cons, writable_subtermsAll_iff]
  exact and_iff_right trivial

theorem writable_call_iff {name : Text} {negated : Bool} {inside : Option (List Term)}
    {chain : List Term} :
    (call name negated inside chain).Writable registry ↔
      (Token.IsName name ∧ ∃ f, registry.find? name = some f ∧ f.problem? name inside chain = none) ∧
        (∀ t ∈ inside.getD [], t.Writable registry) ∧ ∀ t ∈ chain, t.Writable registry := by
  rw [Writable, subterms, subtermsInside_eq, List.forall_mem_cons, List.forall_mem_append,
    writable_subtermsAll_iff, writable_subtermsAll_iff]
  rfl

theorem eq_of_ofKey {sigil : Option Sigil} {negated : Bool} {key : Text} {t : Term}
    (h : ofKey sigil negated key = .ok t) :
    (∃ kind, t = reference kind key negated) ∨ t = required key := by
  unfold ofKey at h
  split at h
  · exact .inl ⟨_, (Except.ok.inj h).symm⟩
  · exact .inl ⟨_, (Except.ok.inj h).symm⟩
  · exact .inl ⟨_, (Except.ok.inj h).symm⟩
  · exact .inl ⟨_, (Except.ok.inj h).symm⟩
  · split at h
    · simp at h
    · exact .inr (Except.ok.inj h).symm

theorem writable_of_ofKey {sigil : Option Sigil} {negated : Bool} {key : Text} {t : Term}
    (h : ofKey sigil negated key = .ok t) (hkey : Token.IsKey key) : t.Writable registry := by
  rcases eq_of_ofKey h with ⟨kind, rfl⟩ | rfl
  · exact writable_reference_iff.2 hkey
  · exact writable_required_iff.2 hkey

/-- A call that is finished is the call as it was read, and a valid one. -/
theorem ofCall_eq_ok_iff {name : Text} {negated : Bool} {inside : Option (List Term)}
    {chain : List Term} {t : Term} :
    ofCall registry name negated inside chain = .ok t ↔
      t = call name negated inside chain ∧
        ∃ f, registry.find? name = some f ∧ f.problem? name inside chain = none := by
  unfold ofCall
  split
  · rename_i hf
    simp [hf]
  · rename_i f hf
    split
    · rename_i hp
      simp [hf, hp]
    · rename_i hp
      simp [hf, hp, eq_comm]

theorem writable_of_ofCall {name : Text} {negated : Bool} {inside : Option (List Term)}
    {chain : List Term} {t : Term} (h : ofCall registry name negated inside chain = .ok t)
    (hname : Token.IsName name) (hinside : ∀ u ∈ inside.getD [], u.Writable registry)
    (hchain : ∀ u ∈ chain, u.Writable registry) : t.Writable registry := by
  obtain ⟨rfl, hvalid⟩ := ofCall_eq_ok_iff.1 h
  exact writable_call_iff.2 ⟨⟨hname, hvalid⟩, hinside, hchain⟩

end Term

namespace OpenTerm

/-- An open term that can be written as far as it has been read. -/
def Writable (registry : Registry) : OpenTerm → Prop
  | group chain => ∀ t ∈ chain, t.Writable registry
  | inside name _ chain => Token.IsName name ∧ ∀ t ∈ chain, t.Writable registry
  | operands name _ ins chain =>
      Token.IsName name ∧ (∀ t ∈ ins.getD [], t.Writable registry) ∧
        ∀ t ∈ chain, t.Writable registry

theorem Writable.append {registry : Registry} {o : OpenTerm} {more : List Term}
    (h : o.Writable registry) (hmore : ∀ t ∈ more, t.Writable registry) :
    (o.append more).Writable registry := by
  cases o with
  | group chain => exact List.forall_mem_append.2 ⟨h, hmore⟩
  | inside name negated chain => exact ⟨h.1, List.forall_mem_append.2 ⟨h.2, hmore⟩⟩
  | operands name negated ins chain =>
      exact ⟨h.1, h.2.1, List.forall_mem_append.2 ⟨h.2.2, hmore⟩⟩

end OpenTerm

namespace Unfinished

/-- Everything that has been read can be written. -/
structure Writable (registry : Registry) (u : Unfinished) : Prop where
  chain : ∀ t ∈ u.chain, t.Writable registry
  opened : ∀ o ∈ u.opened, o.Writable registry

variable {registry : Registry} {u v : Unfinished}

theorem Writable.push (h : u.Writable registry) {t : Term} (ht : t.Writable registry) :
    (u.push t).Writable registry := by
  have hone : ∀ s ∈ [t], s.Writable registry := List.forall_mem_singleton.2 ht
  unfold Unfinished.push
  split
  · exact ⟨List.forall_mem_append.2 ⟨h.chain, hone⟩, by simp⟩
  · rename_i o opened ho
    have hopened := h.opened
    rw [ho, List.forall_mem_cons] at hopened
    exact ⟨h.chain, List.forall_mem_cons.2 ⟨hopened.1.append hone, hopened.2⟩⟩

theorem Writable.enter (h : u.Writable registry) {o : OpenTerm} (ho : o.Writable registry) :
    (u.enter o).Writable registry :=
  ⟨h.chain, List.forall_mem_cons.2 ⟨ho, h.opened⟩⟩

theorem writable_of_settle {chain more : List Term} {opened : List OpenTerm}
    (h : settle registry chain more opened = .ok v) (hchain : ∀ t ∈ chain, t.Writable registry)
    (hmore : ∀ t ∈ more, t.Writable registry) (hopened : ∀ o ∈ opened, o.Writable registry) :
    v.Writable registry := by
  fun_induction settle registry chain more opened with
  | case1 more =>
      obtain rfl := Except.ok.inj h
      exact ⟨List.forall_mem_append.2 ⟨hchain, hmore⟩, by simp⟩
  | case2 more name negated inside operands opened call hcall ih =>
      rw [List.forall_mem_cons] at hopened
      obtain ⟨⟨hname, hinside, hoperands⟩, hopened⟩ := hopened
      have hwritable : call.Writable registry :=
        Term.writable_of_ofCall hcall hname hinside (List.forall_mem_append.2 ⟨hoperands, hmore⟩)
      exact ih h (List.forall_mem_singleton.2 hwritable) hopened
  | case3 => simp at h
  | case4 more o opened hno =>
      obtain rfl := Except.ok.inj h
      rw [List.forall_mem_cons] at hopened
      exact ⟨hchain, List.forall_mem_cons.2 ⟨hopened.1.append hmore, hopened.2⟩⟩

theorem Writable.close (h : u.Writable registry) (hv : u.close registry = .ok v) :
    v.Writable registry := by
  unfold Unfinished.close at hv
  split at hv
  · simp at hv
  · rename_i chain opened outer hs
    obtain rfl := Except.ok.inj hv
    have hw := writable_of_settle hs h.chain (by simp) h.opened
    have hopened := List.forall_mem_cons.1 hw.opened
    have hrest : Writable registry ⟨opened, outer⟩ := ⟨hw.chain, hopened.2⟩
    exact hrest.push (Term.writable_group_iff.2 hopened.1)
  · rename_i name negated chain opened outer hs
    obtain rfl := Except.ok.inj hv
    have hw := writable_of_settle hs h.chain (by simp) h.opened
    have hopened := List.forall_mem_cons.1 hw.opened
    have hrest : Writable registry ⟨opened, outer⟩ := ⟨hw.chain, hopened.2⟩
    exact hrest.enter ⟨hopened.1.1, hopened.1.2, by simp⟩
  · simp at hv

theorem Writable.bar (h : u.Writable registry) (hv : u.bar registry = .ok v) :
    v.Writable registry := by
  unfold Unfinished.bar at hv
  split at hv
  · rename_i name negated inside operands opened ho
    split at hv
    · rename_i call hcall
      obtain rfl := Except.ok.inj hv
      have hopened := h.opened
      rw [ho, List.forall_mem_cons] at hopened
      obtain ⟨⟨hname, hinside, hoperands⟩, hopened⟩ := hopened
      have hrest : Writable registry ⟨opened, u.chain⟩ := ⟨h.chain, hopened⟩
      exact hrest.push (Term.writable_of_ofCall hcall hname hinside hoperands)
    · simp at hv
  · obtain rfl := Except.ok.inj hv
    exact h

theorem Writable.finish (h : u.Writable registry) {e : Expression}
    (he : u.finish registry = .ok e) : e ≠ [] ∧ ∀ t ∈ e, t.Writable registry := by
  unfold Unfinished.finish at he
  split at he
  · simp at he
  · rename_i chain hs
    split at he
    · simp at he
    · rename_i hne
      obtain rfl := Except.ok.inj he
      refine ⟨?_, (writable_of_settle hs h.chain (by simp) h.opened).chain⟩
      rintro rfl
      exact hne rfl
  · simp at he

/-- Reading tokens in which names are spelled as such keeps everything writable. -/
theorem Writable.read (h : u.Writable registry) {ps : List Placed} {e : Expression}
    (hps : ∀ p ∈ ps, p.token.WellSpelled) (he : u.read registry ps = .ok e) :
    e ≠ [] ∧ ∀ t ∈ e, t.Writable registry := by
  fun_induction Unfinished.read registry u ps with
  | case1 u => exact h.finish he
  | case2 u p ps q body hp ih =>
      exact ih (h.push (Term.writable_literal _)) (List.forall_mem_cons.1 hps).2 he
  | case3 u p ps body hp ih =>
      exact ih (h.push (Term.writable_literal _)) (List.forall_mem_cons.1 hps).2 he
  | case4 u p ps hp ih =>
      exact ih (h.enter (List.forall_mem_nil _)) (List.forall_mem_cons.1 hps).2 he
  | case5 u p ps hp w hw ih => exact ih (h.close hw) (List.forall_mem_cons.1 hps).2 he
  | case6 => simp at he
  | case7 u p ps c hp w hw ih => exact ih (h.bar hw) (List.forall_mem_cons.1 hps).2 he
  | case8 => simp at he
  | case9 u p c negated name hp ih =>
      obtain ⟨hspelled, hps⟩ := List.forall_mem_cons.1 hps
      rw [hp] at hspelled
      exact ih (h.enter ⟨hspelled, by simp, by simp⟩) hps he
  | case10 u p c negated name hp q qs hq ih =>
      obtain ⟨hspelled, hps⟩ := List.forall_mem_cons.1 hps
      rw [hp] at hspelled
      exact ih (h.enter ⟨hspelled, by simp⟩) (List.forall_mem_cons.1 hps).2 he
  | case11 u p c negated name hp q qs hq ih =>
      obtain ⟨hspelled, hps⟩ := List.forall_mem_cons.1 hps
      rw [hp] at hspelled
      exact ih (h.enter ⟨hspelled, by simp, by simp⟩) hps he
  | case12 u p ps sigil negated key hp t ht ih =>
      obtain ⟨hspelled, hps⟩ := List.forall_mem_cons.1 hps
      rw [hp] at hspelled
      exact ih (h.push (Term.writable_of_ofKey ht hspelled)) hps he
  | case13 => simp at he

end Unfinished

namespace Expression

variable {registry : Registry} {source : Text} {e : Expression}

/-- A compiled directive is not empty, and all of it can be written. -/
theorem writable_of_compile (h : compile registry source = .ok e) :
    e ≠ [] ∧ ∀ t ∈ e, t.Writable registry := by
  unfold compile at h
  split at h
  · rename_i ps hps
    refine Unfinished.Writable.read ⟨?_, ?_⟩ (Token.wellSpelled_of_tokensFrom hps) h
    · exact List.forall_mem_nil _
    · exact List.forall_mem_nil _
  · simp at h

/-- Compiling admits valid calls only. -/
theorem sound_of_compile (h : compile registry source = .ok e) : ∀ t ∈ e, t.Sound registry :=
  fun t ht => ((writable_of_compile h).2 t ht).sound

end Expression

end SqlTemplate
