import Mathlib.Data.List.TakeWhile
import SqlTemplate.Directive.Token

/-!
# How tokens are spelled

`Token.IsKey` and `Token.IsName` say which texts can be the name of a parameter and of a function.
The tokens of a source are spelled that way (`Token.wellSpelled_of_tokens`). Conversely a token that
is spelled that way is taken off a text, wherever what follows does not go on with it.
-/

namespace SqlTemplate

/-- A run of characters ends where another one follows. -/
theorem takeWhile_append_of_head? {p : Char → Bool} {t r : Text}
    (ht : ∀ c ∈ t, p c = true) (hr : ∀ c ∈ r.head?, p c = false) :
    (t ++ r).takeWhile p = t ∧ (t ++ r).dropWhile p = r := by
  induction t with
  | nil =>
      cases r with
      | nil => exact ⟨rfl, rfl⟩
      | cons c r => simp [hr c rfl]
  | cons c t ih =>
      rw [List.forall_mem_cons] at ht
      obtain ⟨htake, hdrop⟩ := ih ht.2
      simp [ht.1, htake, hdrop]

namespace Token

/-- A text that can name a parameter. -/
def IsKey (k : Text) : Prop := k ≠ [] ∧ ∀ c ∈ k, isKeyChar c = true

instance (k : Text) : Decidable (IsKey k) :=
  decidable_of_iff (k ≠ [] ∧ k.all isKeyChar = true) (and_congr_right' List.all_eq_true)

/-- A text that can name a function. -/
def IsName (n : Text) : Prop := ∃ c r, n = c :: r ∧ isNameStart c = true ∧ ∀ d ∈ r, isWord d = true

/-- A token in which names are spelled as such. -/
def WellSpelled : Token → Prop
  | key _ _ k => IsKey k
  | function _ _ n => IsName n
  | _ => True

variable {c : Char} {t r rest k n : Text} {token : Token} {negated : Bool}

theorem wellSpelled_of_ofFunctionMark? (h : ofFunctionMark? c t = some (token, r)) :
    token.WellSpelled := by
  unfold ofFunctionMark? at h
  split at h
  · rename_i negated d u hd
    split at h
    · rename_i hstart
      obtain ⟨rfl, -⟩ := Prod.mk.inj (Option.some.inj h)
      exact ⟨d, _, rfl, hstart, fun e he => List.mem_takeWhile_imp he⟩
    · split at h
      · exact absurd h (by simp)
      · obtain ⟨rfl, -⟩ := Prod.mk.inj (Option.some.inj h)
        trivial
  · split at h
    · exact absurd h (by simp)
    · obtain ⟨rfl, -⟩ := Prod.mk.inj (Option.some.inj h)
      trivial

theorem wellSpelled_of_key? (h : key? t = some (token, r)) : token.WellSpelled := by
  unfold key? at h
  simp only at h
  split at h
  · exact absurd h (by simp)
  · rename_i hne
    obtain ⟨rfl, -⟩ := Prod.mk.inj (Option.some.inj h)
    exact ⟨hne, fun d hd => List.mem_takeWhile_imp hd⟩

theorem wellSpelled_of_take? (h : take? c t = some (token, r)) : token.WellSpelled := by
  unfold take? at h
  split at h
  · obtain ⟨⟨body, rest⟩, -, he⟩ := Option.map_eq_some_iff.1 h
    obtain ⟨rfl, -⟩ := Prod.mk.inj he
    trivial
  · split at h
    · obtain ⟨rfl, -⟩ := Prod.mk.inj (Option.some.inj h)
      trivial
    · split at h
      · obtain ⟨rfl, -⟩ := Prod.mk.inj (Option.some.inj h)
        trivial
      · split at h
        · obtain ⟨rfl, -⟩ := Prod.mk.inj (Option.some.inj h)
          trivial
        · split at h
          · obtain ⟨rfl, -⟩ := Prod.mk.inj (Option.some.inj h)
            trivial
          · split at h
            · exact wellSpelled_of_ofFunctionMark? h
            · exact wellSpelled_of_key? h

/-- Names in the tokens of a source are spelled as such. -/
theorem wellSpelled_of_tokensFrom {position : Nat} {ps : List Placed}
    (h : tokensFrom position t = .ok ps) : ∀ p ∈ ps, p.token.WellSpelled := by
  fun_induction tokensFrom position t generalizing ps with
  | case1 =>
      obtain rfl := Except.ok.inj h
      simp
  | case2 position c t hc ih => exact ih h
  | case3 => exact absurd h (by simp)
  | case4 position c t hc token rest htake tokens htokens ih =>
      obtain rfl := Except.ok.inj h
      exact List.forall_mem_cons.2 ⟨wellSpelled_of_take? htake, ih htokens⟩
  | case5 => exact absurd h (by simp)

theorem takeNegation_append (hk : k.head? ≠ some '!') :
    takeNegation (negation negated ++ k) = (negated, k) := by
  cases negated with
  | true => rfl
  | false =>
      rw [negation, if_neg Bool.false_ne_true, List.nil_append]
      unfold takeNegation
      split
      · exact absurd rfl hk
      · rfl

theorem head?_ne_of_isKey (hk : IsKey k) : (k ++ rest).head? ≠ some '!' := by
  obtain ⟨hne, hall⟩ := hk
  obtain ⟨c, u, rfl⟩ := List.exists_cons_of_ne_nil hne
  intro h
  obtain rfl := Option.some.inj h
  exact absurd (hall _ (List.mem_cons_self ..)) (by decide)

/-- The name of a parameter is taken with its sign. -/
theorem take?_key (sigil : Sigil) (hk : IsKey k) (hrest : ∀ c ∈ rest.head?, isKeyChar c = false) :
    take? sigil.char (negation negated ++ (k ++ rest)) = some (key (some sigil) negated k, rest) := by
  obtain ⟨htake, hdrop⟩ := takeWhile_append_of_head? hk.2 hrest
  have hsigil : take? sigil.char (negation negated ++ (k ++ rest)) =
      key? (sigil.char :: (negation negated ++ (k ++ rest))) := by
    cases sigil <;> rfl
  have hsign : Sigil.take (sigil.char :: (negation negated ++ (k ++ rest))) =
      (some sigil, negation negated ++ (k ++ rest)) := by
    cases sigil <;> rfl
  rw [hsigil, key?, hsign]
  simp only [takeNegation_append (head?_ne_of_isKey hk), htake, hdrop]
  obtain ⟨c, u, rfl⟩ := List.exists_cons_of_ne_nil hk.1
  rfl

/-- The name of a function is taken with the function mark. -/
theorem take?_function (hn : IsName n) (hrest : ∀ c ∈ rest.head?, isWord c = false) :
    take? '%' (negation negated ++ (n ++ rest)) = some (function '%' negated n, rest) := by
  obtain ⟨c, u, rfl, hc, hu⟩ := hn
  obtain ⟨htake, hdrop⟩ := takeWhile_append_of_head? hu hrest
  have hmark : take? '%' (negation negated ++ (c :: u ++ rest)) =
      ofFunctionMark? '%' (negation negated ++ (c :: u ++ rest)) := rfl
  have hbang : (c :: u ++ rest).head? ≠ some '!' := by
    intro h
    obtain rfl := Option.some.inj h
    exact absurd hc (by decide)
  rw [hmark, ofFunctionMark?, takeNegation_append hbang]
  simp only [List.cons_append, hc, if_true, htake, hdrop]

/-- A literal is taken up to its closing quote. -/
theorem closing?_encodeBody (q : Char) (t : Text) (hrest : rest.head? ≠ some q) :
    Quoted.closing? q (Quoted.encodeBody q t ++ q :: rest) =
      some (Quoted.encodeBody q t ++ [q], rest) := by
  induction t with
  | nil =>
      cases rest with
      | nil => simp [Quoted.encodeBody, Quoted.closing?]
      | cons d rest =>
          have hd : d ≠ q := by simpa using hrest
          simp [Quoted.encodeBody, Quoted.closing?, hd]
  | cons c t ih =>
      by_cases hc : c = q
      · subst hc
        simp [Quoted.encodeBody, Quoted.closing?, ih]
      · rw [Quoted.encodeBody, if_neg hc, List.cons_append]
        cases he : Quoted.encodeBody q t ++ q :: rest with
        | nil => exact absurd he (by simp)
        | cons d u =>
            rw [he] at ih
            simp [Quoted.closing?, hc, ih]

theorem take?_literal (q : Quote) (t : Text) (hrest : rest.head? ≠ some q.char) :
    take? q.char (Quoted.encodeBody q.char t ++ q.char :: rest) =
      some (literal q (Quoted.encodeBody q.char t ++ [q.char]), rest) := by
  rw [take?, Quote.ofChar?_char]
  simp only [closing?_encodeBody q.char t hrest, Option.map_some]

end Token

end SqlTemplate
