import SqlTemplate.Directive.Token

/-!
# Attempts

Reading can be written as a descent: functions that call each other and share a cursor. Nothing in
the text of such functions says that they end, or that what they look for is always there. An
`Attempt` leaves both open: it may go on forever, it may end with a result or with a flaw of what it
was given, and it may come to a gap, a place where it cannot go on. `Attempt.Ends` says of an
attempt that it ends without a gap, and what holds of its result or of its flaw then.
-/

namespace SqlTemplate

/-- A place where an attempt cannot go on. -/
inductive Gap where
  /-- Nothing is found where something must be found. -/
  | nothingFound
  /-- Lines are to be put below a line, and there is no line. -/
  | noLine
  /-- A term is to be read where no token is left or where a token begins no term. -/
  | noTerm (token : Option Token)
deriving DecidableEq, Repr

/-- Why an attempt has no result. -/
inductive Halt (ε : Type) where
  | flaw (e : ε)
  | gap (g : Gap)

/-- A run that may go on forever, and that may halt. -/
abbrev Attempt (ε α : Type) := ExceptT (Halt ε) Option α

namespace Attempt

variable {ε ε' α β : Type}

def flaw (e : ε) : Attempt ε α := throw (.flaw e)

def gap (g : Gap) : Attempt ε α := throw (.gap g)

/-- The attempt that ends at once with what is given. -/
def ofExcept : Except ε α → Attempt ε α
  | .ok a => pure a
  | .error e => flaw e

/-- An attempt whose flaws are seen as others. -/
def mapFlaw (f : ε → ε') (a : Attempt ε α) : Attempt ε' α :=
  ExceptT.mk (a.run.map fun
    | .ok x => .ok x
    | .error (.flaw e) => .error (.flaw (f e))
    | .error (.gap g) => .error (.gap g))

/-- The attempt ends, with a result that satisfies `Q` or with a flaw that satisfies `E`. -/
def Ends (a : Attempt ε α) (Q : α → Prop) (E : ε → Prop) : Prop :=
  match a.run with
  | some (.ok x) => Q x
  | some (.error (.flaw e)) => E e
  | _ => False

variable {Q R : α → Prop} {E F : ε → Prop}

@[simp] theorem ends_pure {x : α} : Ends (pure x) Q E ↔ Q x := Iff.rfl

@[simp] theorem ends_flaw {e : ε} : Ends (flaw e) Q E ↔ E e := Iff.rfl

/-- An attempt ends without a gap just when it is one that ends at once. -/
theorem ends_iff {a : Attempt ε α} :
    a.Ends Q E ↔ (∃ x, a = pure x ∧ Q x) ∨ ∃ e, a = flaw e ∧ E e := by
  constructor
  · intro h
    unfold Ends at h
    split at h
    · rename_i x ha
      exact .inl ⟨x, ha, h⟩
    · rename_i e ha
      exact .inr ⟨e, ha, h⟩
    · exact h.elim
  · rintro (⟨x, rfl, hx⟩ | ⟨e, rfl, he⟩)
    · exact hx
    · exact he

theorem Ends.mono {a : Attempt ε α} (h : a.Ends Q E) (hQ : ∀ x, Q x → R x)
    (hE : ∀ e, E e → F e) : a.Ends R F := by
  rw [ends_iff] at h ⊢
  rcases h with ⟨x, ha, hx⟩ | ⟨e, ha, he⟩
  · exact .inl ⟨x, ha, hQ x hx⟩
  · exact .inr ⟨e, ha, hE e he⟩

/-- An attempt after another one ends if the first one ends with something that the second one ends
from. -/
theorem Ends.bind {a : Attempt ε α} {f : α → Attempt ε β} {R : β → Prop} (h : a.Ends Q E)
    (hf : ∀ x, Q x → (f x).Ends R E) : (a >>= f).Ends R E := by
  rcases ends_iff.1 h with ⟨x, rfl, hx⟩ | ⟨e, rfl, he⟩
  · exact hf x hx
  · exact he

theorem Ends.mapFlaw {a : Attempt ε α} {f : ε → ε'} {F : ε' → Prop}
    (h : a.Ends Q fun e => F (f e)) : (a.mapFlaw f).Ends Q F := by
  rcases ends_iff.1 h with ⟨x, rfl, hx⟩ | ⟨e, rfl, he⟩
  · exact hx
  · exact he

theorem ends_ofExcept {r : Except ε α} (hQ : ∀ x, r = .ok x → Q x)
    (hE : ∀ e, r = .error e → E e) : (ofExcept r).Ends Q E := by
  cases r with
  | ok x => exact hQ x rfl
  | error e => exact hE e rfl

end Attempt

end SqlTemplate
