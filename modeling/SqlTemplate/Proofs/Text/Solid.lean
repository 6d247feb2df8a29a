import Mathlib.Data.List.Chain
import SqlTemplate.Text.Blank

/-!
# Texts without an empty pair of parentheses

Whether an empty pair of parentheses comes about when texts are put together is decided at the seams.
A text is `Solid` if it holds none, and `Inner` if none comes about either when anything solid is put
in front of it or behind it.
-/

namespace SqlTemplate

/-- A text in which no parenthesis is closed as soon as it is opened. -/
def Solid (t : Text) : Prop := t.IsChain fun c d => ¬(c = '(' ∧ d = ')')

theorem solid_iff {t : Text} : Solid t ↔ ¬"()".toList <:+: t := by
  constructor
  · intro h hoccurs
    have hpair : List.IsChain (fun c d => ¬(c = '(' ∧ d = ')')) ['(', ')'] := h.infix hoccurs
    exact List.isChain_pair.1 hpair ⟨rfl, rfl⟩
  · intro h
    refine (List.isChain_isInfix t).imp fun c d hoccurs => ?_
    rintro ⟨rfl, rfl⟩
    exact h hoccurs

@[simp] theorem solid_nil : Solid [] := List.isChain_nil

theorem solid_of_not_mem {t : Text} (h : '(' ∉ t) : Solid t := by
  rw [solid_iff]
  intro hoccurs
  exact h (hoccurs.subset (List.mem_cons_self ..))

theorem Solid.append {s t : Text} (hs : Solid s) (ht : Solid t)
    (h : s.getLast? ≠ some '(' ∨ t.head? ≠ some ')') : Solid (s ++ t) := by
  refine List.isChain_append.2 ⟨hs, ht, ?_⟩
  rintro c hc d hd ⟨rfl, rfl⟩
  rcases h with h | h
  · exact h hc
  · exact h hd

/-- A text without parentheses. -/
def Parenless (t : Text) : Prop := '(' ∉ t ∧ ')' ∉ t

instance : DecidablePred Parenless := fun _ => inferInstanceAs (Decidable (_ ∧ _))

/-- A solid text that neither begins with a closing parenthesis nor ends with an opening one. -/
structure Inner (t : Text) : Prop where
  solid : Solid t
  head : ∃ c, t.head? = some c ∧ c ≠ ')'
  last : ∃ c, t.getLast? = some c ∧ c ≠ '('

namespace Inner

variable {s t : Text}

theorem head?_ne (h : Inner t) : t.head? ≠ some ')' := by
  obtain ⟨c, hc, hne⟩ := h.head
  rw [hc]
  exact fun he => hne (Option.some.inj he)

theorem getLast?_ne (h : Inner t) : t.getLast? ≠ some '(' := by
  obtain ⟨c, hc, hne⟩ := h.last
  rw [hc]
  exact fun he => hne (Option.some.inj he)

theorem append (hs : Inner s) (ht : Inner t) : Inner (s ++ t) := by
  refine ⟨hs.solid.append ht.solid (.inl hs.getLast?_ne), ?_, ?_⟩
  · obtain ⟨c, hc, hne⟩ := hs.head
    exact ⟨c, by rw [List.head?_append, hc, Option.some_or], hne⟩
  · obtain ⟨c, hc, hne⟩ := ht.last
    exact ⟨c, by rw [List.getLast?_append, hc, Option.some_or], hne⟩

theorem of_parenless (hne : t ≠ []) (h : Parenless t) : Inner t := by
  refine ⟨solid_of_not_mem h.1, ?_, ?_⟩
  · exact ⟨t.head hne, List.head?_eq_some_head hne, fun he => h.2 (he ▸ List.head_mem hne)⟩
  · exact ⟨t.getLast hne, List.getLast?_eq_some_getLast hne,
      fun he => h.1 (he ▸ List.getLast_mem hne)⟩

theorem parenthesised (h : Inner t) : Inner ('(' :: (t ++ [')'])) := by
  have hclosed : Solid (t ++ [')']) := h.solid.append (List.isChain_singleton _) (.inl h.getLast?_ne)
  have hhead : (t ++ [')']).head? ≠ some ')' := by
    obtain ⟨c, hc, hne⟩ := h.head
    rw [List.head?_append, hc, Option.some_or]
    exact fun he => hne (Option.some.inj he)
  refine ⟨?_, ⟨'(', rfl, by decide⟩, ⟨')', ?_, by decide⟩⟩
  · exact Solid.append (s := ['(']) (List.isChain_singleton _) hclosed (.inr hhead)
  · rw [← List.cons_append, List.getLast?_concat]

theorem intercalate {separator : Text} (hseparator : Inner separator) {ts : List Text} (hne : ts ≠ [])
    (h : ∀ t ∈ ts, Inner t) : Inner (List.intercalate separator ts) := by
  induction ts with
  | nil => exact absurd rfl hne
  | cons t ts ih =>
      obtain ⟨ht, hts⟩ := List.forall_mem_cons.1 h
      cases ts with
      | nil => simpa using ht
      | cons u ts =>
          rw [List.intercalate_cons_cons]
          exact (ht.append hseparator).append (ih (List.cons_ne_nil u ts) hts)

end Inner

/-- Solid texts are joined to one by a separator that keeps them apart. -/
theorem Solid.intercalate {separator : Text} (hseparator : Inner separator) {ts : List Text}
    (h : ∀ t ∈ ts, Solid t) : Solid (List.intercalate separator ts) := by
  induction ts with
  | nil => exact solid_nil
  | cons t ts ih =>
      obtain ⟨ht, hts⟩ := List.forall_mem_cons.1 h
      cases ts with
      | nil => simpa using ht
      | cons u ts =>
          rw [List.intercalate_cons_cons]
          have hjoined := ht.append hseparator.solid (.inr hseparator.head?_ne)
          refine hjoined.append (ih hts) (.inl ?_)
          obtain ⟨c, hc, hlast⟩ := hseparator.last
          rw [List.getLast?_append, hc, Option.some_or]
          exact fun he => hlast (Option.some.inj he)

end SqlTemplate
