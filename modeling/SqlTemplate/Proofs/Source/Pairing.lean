import SqlTemplate.Proofs.Source.Continuing
import SqlTemplate.Proofs.Source.DoubleQuotes

/-!
# Paired quotes

Read strictly, a literal is closed by the first quote that no pair of quotes takes up
(`Quoted.pairedClosing?_eq_some_iff`). Where there is such a quote, `Quoted.closing?` closes the literal
there as well; where there is none but it closes the literal in the middle of a pair, the second quote of
that pair opens a literal that is never closed (`Quoted.opensLiteral_of_closing?`).

The search for the end of a parenthesised sample pairs quotes strictly
(`Sample.balanced?_quote_cons`), and it finds the end of an outer parenthesis behind that of an inner one
(`Sample.balanced?_add`).
-/

namespace SqlTemplate

variable {q : Char} {t u v body rest : Text}

namespace Quoted

theorem closing?_of_pairedClosing? (h : pairedClosing? q t = some (body, rest)) :
    closing? q t = some (body, rest) := by
  fun_induction pairedClosing? q t generalizing body rest with
  | case1 => simp at h
  | case2 => simpa [closing?] using h
  | case3 => simp at h
  | case4 t ih =>
    obtain ⟨⟨b, r⟩, hb, he⟩ := Option.map_eq_some_iff.1 h
    simp [closing?, ih hb, he]
  | case5 d t hd => simpa [closing?, hd] using h
  | case6 c d t hc ih =>
    obtain ⟨⟨b, r⟩, hb, he⟩ := Option.map_eq_some_iff.1 h
    simp [closing?, hc, ih hb, he]

/-- A literal without a quote that closes it strictly is closed in the middle of the last pair, and what
follows begins a literal that is never closed. -/
theorem opensLiteral_of_closing? {q : Quote} (hpaired : pairedClosing? q.char t = none)
    (h : closing? q.char t = some (body, rest)) : OpensLiteral rest := by
  fun_induction pairedClosing? q.char t generalizing body rest with
  | case1 => simp [closing?] at h
  | case2 => simp at hpaired
  | case3 c hc => simp [closing?, hc] at h
  | case4 t ih =>
    have hnone := Option.map_eq_none_iff.1 hpaired
    simp only [closing?, if_true] at h
    split at h
    · rename_i b r hb
      obtain ⟨-, rfl⟩ := Prod.mk.inj (Option.some.inj h)
      exact ih hnone hb
    · rename_i hb
      obtain ⟨-, rfl⟩ := Prod.mk.inj (Option.some.inj h)
      exact ⟨q, t, rfl, closing?_eq_none_iff.1 hb⟩
  | case5 => simp at hpaired
  | case6 c d t hc ih =>
    have hnone := Option.map_eq_none_iff.1 hpaired
    simp only [closing?, if_neg hc] at h
    obtain ⟨⟨b, r⟩, hb, he⟩ := Option.map_eq_some_iff.1 h
    obtain ⟨-, rfl⟩ := Prod.mk.inj he
    exact ih hnone hb

theorem pairedClosing?_encodeBody_append (q : Char) (t : Text) (h : rest.head? ≠ some q) :
    pairedClosing? q (encodeBody q t ++ q :: rest) = some (encodeBody q t ++ [q], rest) := by
  induction t with
  | nil =>
    cases rest with
    | nil => simp [encodeBody, pairedClosing?]
    | cons c rest =>
      have hc : c ≠ q := by simpa using h
      simp [encodeBody, pairedClosing?, hc]
  | cons c t ih =>
    rw [encodeBody]
    split
    · rename_i hc
      subst hc
      simp only [List.cons_append, pairedClosing?, if_true, ih, Option.map_some]
    · rename_i hc
      obtain ⟨d, u, hu⟩ : ∃ d u, encodeBody q t ++ q :: rest = d :: u :=
        List.exists_cons_of_ne_nil (by simp)
      rw [hu] at ih
      simp only [List.cons_append, hu, pairedClosing?, if_neg hc, ih, Option.map_some]

/-- A literal is closed strictly by a quote that is no part of a pair: in front of it every quote is
doubled, and no quote follows it. -/
theorem pairedClosing?_eq_some_iff :
    pairedClosing? q t = some (body, rest) ↔
      t = body ++ rest ∧ (∃ inner, body = encodeBody q inner ++ [q]) ∧ rest.head? ≠ some q := by
  constructor
  · intro h
    have hclosing := closing?_of_pairedClosing? h
    refine ⟨append_of_closing? hclosing, exists_encodeBody_of_closing? hclosing, ?_⟩
    clear hclosing
    fun_induction pairedClosing? q t generalizing body rest with
    | case1 => simp at h
    | case2 =>
      obtain ⟨rfl, rfl⟩ := Prod.mk.inj (Option.some.inj h)
      simp
    | case3 => simp at h
    | case4 t ih =>
      obtain ⟨⟨b, r⟩, hb, he⟩ := Option.map_eq_some_iff.1 h
      obtain ⟨-, rfl⟩ := Prod.mk.inj he
      exact ih hb
    | case5 d t hd =>
      obtain ⟨-, rfl⟩ := Prod.mk.inj (Option.some.inj h)
      simpa using hd
    | case6 c d t hc ih =>
      obtain ⟨⟨b, r⟩, hb, he⟩ := Option.map_eq_some_iff.1 h
      obtain ⟨-, rfl⟩ := Prod.mk.inj he
      exact ih hb
  · rintro ⟨rfl, ⟨inner, rfl⟩, hrest⟩
    rw [List.append_assoc]
    exact pairedClosing?_encodeBody_append q inner hrest

end Quoted

namespace Sample

/-- A found span behind a text that is passed over. -/
def behind (u : Text) (found : Option (Text × Text)) : Option (Text × Text) :=
  found.map fun (s, r) => (u ++ s, r)

theorem behind_behind (found : Option (Text × Text)) :
    behind u (behind v found) = behind (u ++ v) found := by
  simp [behind, Option.map_map, Function.comp_def]

variable {depth : Int} {c : Char}

/-- A character that is no parenthesis and no quote is passed over. -/
theorem balanced?_cons_of_ne (hquote : Quote.ofChar? c = none) (hopening : c ≠ '(')
    (hclosing : c ≠ ')') : balanced? depth none (c :: t) = behind [c] (balanced? depth none t) := by
  have hc : ¬(c = '\'' ∨ c = '"') := by
    rintro (rfl | rfl) <;> simp [Quote.ofChar?] at hquote
  rw [balanced?, if_neg hc, if_neg hopening, if_neg hclosing]
  rfl

theorem balanced?_some_cons_of_ne (hc : c ≠ q) :
    balanced? depth (some q) (c :: t) = behind [c] (balanced? depth (some q) t) := by
  rw [balanced?.eq_def]
  exact if_neg hc

theorem balanced?_opening_cons :
    balanced? depth none ('(' :: t) = behind ['('] (balanced? (depth + 1) none t) := rfl

/-- Inside of a literal its strict end is looked for. -/
theorem balanced?_some (depth : Int) (q : Char) (t : Text) :
    balanced? depth (some q) t =
      (Quoted.pairedClosing? q t).bind fun (b, r) => behind b (balanced? depth none r) := by
  have hmap : ∀ (u : Text) (found : Option (Text × Text)),
      behind u (found.bind fun (b, r) => behind b (balanced? depth none r)) =
        (found.map fun (b, r) => (u ++ b, r)).bind fun (b, r) =>
          behind b (balanced? depth none r) := by
    intro u found
    cases found with
    | none => rfl
    | some p => exact behind_behind ..
  fun_induction Quoted.pairedClosing? q t with
  | case1 => rfl
  | case2 => simp [balanced?, behind]
  | case3 c hc => simp [balanced?, hc]
  | case4 t ih =>
    rw [balanced?]
    simp only [if_true, ih]
    exact hmap [q, q] _
  | case5 d t hd =>
    rw [balanced?]
    simp only [if_true, if_neg hd]
    rfl
  | case6 c d t hc ih =>
    rw [balanced?_some_cons_of_ne hc, ih]
    exact hmap [c] _

/-- A quote opens a literal that is passed over up to its strict end. -/
theorem balanced?_quote_cons (depth : Int) (q : Quote) (t : Text) :
    balanced? depth none (q.char :: t) = (Quoted.pairedClosing? q.char t).bind fun (b, r) =>
      behind (q.char :: b) (balanced? depth none r) := by
  have hquote : balanced? depth none (q.char :: t) =
      behind [q.char] (balanced? depth (some q.char) t) := by cases q <;> rfl
  rw [hquote, balanced?_some]
  cases Quoted.pairedClosing? q.char t with
  | none => rfl
  | some p => exact behind_behind ..

theorem balanced?_eq_none_of_closing?_eq_none {q : Quote} (h : Quoted.closing? q.char t = none) :
    balanced? depth none (q.char :: t) = none := by
  have hpaired : Quoted.pairedClosing? q.char t = none := by
    cases hp : Quoted.pairedClosing? q.char t with
    | none => rfl
    | some p => exact absurd (h.symm.trans (Quoted.closing?_of_pairedClosing? hp)) (by simp)
  rw [balanced?_quote_cons, hpaired]
  rfl

/-- Wherever a literal is closed, the search may go on from there: if that is in the middle of a pair,
there is no end to be found, neither from the literal on nor from the second quote of the pair. -/
theorem balanced?_of_closing? {q : Quote} (h : Quoted.closing? q.char t = some (body, rest)) :
    balanced? depth none (q.char :: t) = behind (q.char :: body) (balanced? depth none rest) := by
  rw [balanced?_quote_cons]
  cases hpaired : Quoted.pairedClosing? q.char t with
  | some p =>
    obtain ⟨b, r⟩ := p
    have hsame := (Quoted.closing?_of_pairedClosing? hpaired).symm.trans h
    obtain ⟨rfl, rfl⟩ := Prod.mk.inj (Option.some.inj hsame)
    rfl
  | none =>
    obtain ⟨q', u, rfl, hu⟩ := Quoted.opensLiteral_of_closing? hpaired h
    rw [balanced?_eq_none_of_closing?_eq_none (Quoted.closing?_eq_none_iff.2 hu)]
    rfl

/-- Behind the end of an inner parenthesis the end of the outer one is looked for. -/
theorem balanced?_add {m k : Int} (hm : 0 < m) (hk : 0 < k) (quote : Option Char) (t : Text) :
    balanced? (m + k) quote t =
      (balanced? m quote t).bind fun (s, r) => behind s (balanced? k none r) := by
  have hmap : ∀ (u : Text) (found : Option (Text × Text)),
      behind u (found.bind fun (s, r) => behind s (balanced? k none r)) =
        (behind u found).bind fun (s, r) => behind s (balanced? k none r) := by
    intro u found
    cases found with
    | none => rfl
    | some p => exact behind_behind ..
  fun_induction balanced? m quote t with
  | case1 => simp [balanced?]
  | case2 m q u ih =>
    rw [balanced?]
    simp only [if_true, ih hm]
    exact hmap [q, q] _
  | case3 m q e u he ih =>
    rw [balanced?]
    simp only [if_true, if_neg he, ih hm]
    exact hmap [q] _
  | case4 m q => simp [balanced?]
  | case5 m c t q hc ih =>
    rw [balanced?_some_cons_of_ne hc, ih hm]
    exact hmap [c] _
  | case6 m c t hc ih =>
    rw [balanced?, if_pos hc, ih hm]
    exact hmap [c] _
  | case7 m t hc ih =>
    have hsum : m + k + 1 = m + 1 + k := by omega
    rw [balanced?_opening_cons, hsum, ih (by omega)]
    exact hmap ['('] _
  | case8 t =>
    have hk1 : ¬(1 + k = 1) := by omega
    have hdepth : 1 + k - 1 = k := by omega
    rw [balanced?, if_neg (by decide), if_neg (by decide), if_pos rfl, if_neg hk1, hdepth]
    rfl
  | case9 m t hone hc hopening ih =>
    have hne : ¬(m + k = 1) := by omega
    have hdepth : m + k - 1 = m - 1 + k := by omega
    rw [balanced?, if_neg hc, if_neg hopening, if_pos rfl, if_neg hne, hdepth, ih (by omega)]
    exact hmap [')'] _
  | case10 m c t hc hopening hclosing ih =>
    rw [balanced?, if_neg hc, if_neg hopening, if_neg hclosing, ih hm]
    exact hmap [c] _

end Sample

end SqlTemplate
