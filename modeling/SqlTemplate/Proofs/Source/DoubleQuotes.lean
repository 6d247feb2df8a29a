import Mathlib.Algebra.Ring.Parity
import Mathlib.Data.List.Basic
import SqlTemplate.Proofs.Source.Seams
import SqlTemplate.Proofs.Template.Reading

/-!
# Double quotes in lexemes

A literal is closed by a quote, and all quotes in front of that one are doubled. So a lexeme has an even
number of double quotes, unless it is a literal in single quotes or a hint, where they mean nothing
(`Lexeme.even_count_source`). A quoted identifier is the only lexeme with several characters of which a
back can be taken off that holds neither a single quote nor a slash (`IsPiece.exists_of_append`).
-/

namespace SqlTemplate

namespace Quoted

variable {q : Char} {t body rest u v : Text}

theorem exists_encodeBody_of_closing? (h : closing? q t = some (body, rest)) :
    ∃ inner, body = encodeBody q inner ++ [q] := by
  fun_induction closing? q t generalizing body rest with
  | case1 => simp at h
  | case2 =>
    obtain ⟨rfl, rfl⟩ := Prod.mk.inj (Option.some.inj h)
    exact ⟨[], rfl⟩
  | case3 => simp at h
  | case4 t b r hb ih =>
    obtain ⟨rfl, rfl⟩ := Prod.mk.inj (Option.some.inj h)
    obtain ⟨inner, rfl⟩ := ih hb
    exact ⟨q :: inner, by simp [encodeBody]⟩
  | case5 t hb ih =>
    obtain ⟨rfl, rfl⟩ := Prod.mk.inj (Option.some.inj h)
    exact ⟨[], rfl⟩
  | case6 d t hd =>
    obtain ⟨rfl, rfl⟩ := Prod.mk.inj (Option.some.inj h)
    exact ⟨[], rfl⟩
  | case7 c d t hc ih =>
    obtain ⟨⟨b, r⟩, hb, he⟩ := Option.map_eq_some_iff.1 h
    obtain ⟨rfl, rfl⟩ := Prod.mk.inj he
    obtain ⟨inner, rfl⟩ := ih hb
    exact ⟨c :: inner, by simp [encodeBody, hc]⟩

theorem even_count_encodeBody (q : Char) (t : Text) : Even ((encodeBody q t).count q) := by
  induction t with
  | nil => exact Even.zero
  | cons c t ih =>
    rw [encodeBody]
    split
    · rename_i hc
      subst hc
      rw [List.count_cons_self, List.count_cons_self]
      exact ih.add even_two
    · rename_i hc
      rwa [List.count_cons_of_ne hc]

theorem getLast?_of_getLast?_cons {c : Char} (h : ∀ d ∈ (c :: u).getLast?, d ≠ q) :
    ∀ d ∈ u.getLast?, d ≠ q := by
  cases u with
  | nil => simp
  | cons d u => rwa [List.getLast?_cons_cons] at h

/-- Behind another character than the quote all quotes are doubled. -/
theorem even_count_of_encodeBody (h : encodeBody q t = u ++ v) (hu : ∀ c ∈ u.getLast?, c ≠ q) :
    Even (u.count q) := by
  induction t generalizing u with
  | nil =>
    obtain ⟨rfl, -⟩ := List.append_eq_nil_iff.1 h.symm
    exact Even.zero
  | cons c t ih =>
    rw [encodeBody] at h
    split at h
    · rename_i hc
      subst hc
      rcases u with _ | ⟨d, _ | ⟨e, u⟩⟩
      · exact Even.zero
      · obtain ⟨rfl, -⟩ := List.cons.inj h
        exact absurd rfl (hu _ rfl)
      · obtain ⟨rfl, htail⟩ := List.cons.inj h
        obtain ⟨rfl, hrest⟩ := List.cons.inj htail
        have heven := ih hrest (getLast?_of_getLast?_cons (getLast?_of_getLast?_cons hu))
        rw [List.count_cons_self, List.count_cons_self]
        exact heven.add even_two
    · rename_i hc
      rcases u with _ | ⟨d, u⟩
      · exact Even.zero
      · obtain ⟨rfl, hrest⟩ := List.cons.inj h
        rw [List.count_cons_of_ne hc]
        exact ih hrest (getLast?_of_getLast?_cons hu)

theorem odd_count_of_closing? (h : closing? q t = some (body, rest)) : Odd (body.count q) := by
  obtain ⟨inner, rfl⟩ := exists_encodeBody_of_closing? h
  rw [List.count_append, List.count_singleton_self]
  exact (even_count_encodeBody q inner).add_one

theorem even_count_of_closing? (h : closing? q t = some (u ++ v, rest)) (hv : v ≠ [])
    (hu : ∀ c ∈ u.getLast?, c ≠ q) : Even (u.count q) := by
  obtain ⟨inner, hinner⟩ := exists_encodeBody_of_closing? h
  rcases List.eq_nil_or_concat v with rfl | ⟨v, c, rfl⟩
  · exact absurd rfl hv
  · rw [List.concat_eq_append, ← List.append_assoc] at hinner
    exact even_count_of_encodeBody (List.append_inj_left' hinner rfl).symm hu

end Quoted

namespace Lexeme

/-- A lexeme whose double quotes are in order: a plain character is none, and a literal is closed. -/
def IsClosed : Lexeme → Prop
  | plain c => c ≠ '"'
  | quoted q body => ∃ t rest, Quoted.closing? q.char t = some (body, rest)
  | _ => True

/-- The back of an identifier ends with the quote that closes it. -/
theorem getLast?_back {front back : Text} (h : IsClosed (quoted .double (front ++ back)))
    (hback : back ≠ []) : back.getLast? = some '"' := by
  obtain ⟨t, rest, hbody⟩ := h
  rw [← List.getLast?_append_of_ne_nil front hback]
  exact Quoted.getLast?_of_closing? hbody

/-- A literal in single quotes or a hint, in which double quotes mean nothing. -/
def HidesQuotes : Lexeme → Prop
  | quoted .single _ | hint _ => True
  | _ => False

theorem isClosed_ofBlock (body rest : Text) : (ofBlock body rest).1.IsClosed := by
  unfold ofBlock
  split
  · trivial
  · trivial
  · split <;> trivial

theorem isClosed_ofDelimiter (d : Delimiter) (t : Text) : (ofDelimiter d t).1.IsClosed := by
  cases d with
  | quote q =>
    simp only [ofDelimiter]
    split
    · rename_i body rest h
      exact ⟨t, rest, h⟩
    · trivial
  | dashes =>
    simp only [ofDelimiter, ofLine]
    split <;> trivial
  | commentOpen =>
    simp only [ofDelimiter]
    split
    · exact isClosed_ofBlock _ _
    · trivial
  | _ => trivial

theorem isClosed_of_mem_lexemes {t : Text} {l : Lexeme} (h : l ∈ lexemes t) : l.IsClosed := by
  obtain ⟨c, u, rfl⟩ := exists_first_of_mem_lexemes h
  unfold first
  split
  · exact isClosed_ofDelimiter _ _
  · rename_i hplain
    rintro rfl
    simp [Delimiter.take?] at hplain

theorem even_count_source {l : Lexeme} (hclosed : l.IsClosed) (hwritten : l.IsWritten)
    (hhidden : l.HidesQuotes → '"' ∉ l.source) : Even (l.source.count '"') := by
  cases l with
  | plain c =>
    rw [source, List.count_eq_zero_of_not_mem (by simpa using Ne.symm hclosed)]
    exact Even.zero
  | quoted q body =>
    cases q with
    | single =>
      rw [List.count_eq_zero_of_not_mem (hhidden trivial)]
      exact Even.zero
    | double =>
      obtain ⟨t, rest, hbody⟩ := hclosed
      have hodd := Quoted.odd_count_of_closing? hbody
      exact (List.count_cons_self (a := '"') (l := body)).symm ▸ hodd.add_one
  | hint body =>
    rw [List.count_eq_zero_of_not_mem (hhidden trivial)]
    exact Even.zero
  | _ => exact absurd hwritten id

/-- A text without the characters that literals in single quotes and hints end with. -/
def EndsNoHiding (t : Text) : Prop := '\'' ∉ t ∧ '/' ∉ t

theorem endsNoHiding_append {t u : Text} :
    EndsNoHiding (t ++ u) ↔ EndsNoHiding t ∧ EndsNoHiding u := by
  simp only [EndsNoHiding, List.mem_append, not_or, and_and_and_comm]

theorem not_hidesQuotes_of_suffix {l : Lexeme} (hclosed : l.IsClosed) {u v : Text}
    (hsource : l.source = u ++ v) (hne : v ≠ []) (hv : EndsNoHiding v) : ¬ l.HidesQuotes := by
  have hlast (c : Char) (hc : l.source.getLast? = some c) : c ∈ v := by
    rw [hsource, List.getLast?_append_of_ne_nil _ hne] at hc
    exact List.mem_of_getLast? hc
  intro h
  cases l with
  | quoted q body =>
    cases q with
    | single =>
      obtain ⟨t, rest, hbody⟩ := hclosed
      have hquote := Quoted.getLast?_of_closing? hbody
      refine hv.1 (hlast '\'' ?_)
      rw [source, List.getLast?_cons, hquote]
      rfl
    | double => exact h
  | hint body => exact hv.2 (hlast '/' (by simp [source, List.getLast?_cons]))
  | _ => exact h

end Lexeme

/-- A piece of the text of a line: a lexeme of the template, or the parenthesis of a span. -/
def IsPiece (ls : List Lexeme) (p : Text) : Prop :=
  (∃ l ∈ ls, l.IsWritten ∧ p = l.source) ∨ p = ['('] ∨ p = [')']

namespace IsPiece

variable {ls : List Lexeme} {p u v : Text}

theorem even_count (h : IsPiece ls p) (hclosed : ∀ l ∈ ls, l.IsClosed)
    (hhidden : ∀ l ∈ ls, p = l.source → l.HidesQuotes → '"' ∉ p) : Even (p.count '"') := by
  rcases h with ⟨l, hl, hwritten, rfl⟩ | rfl | rfl
  · exact Lexeme.even_count_source (hclosed l hl) hwritten (hhidden l hl rfl)
  · exact Even.zero
  · exact Even.zero

theorem even_count_of_endsNoHiding (h : IsPiece ls p) (hclosed : ∀ l ∈ ls, l.IsClosed)
    (hp : Lexeme.EndsNoHiding p) : Even (p.count '"') := by
  refine h.even_count hclosed fun l hl hsource hhides => ?_
  rcases eq_or_ne p [] with rfl | hne
  · exact List.not_mem_nil
  · exact absurd hhides (Lexeme.not_hidesQuotes_of_suffix (u := []) (hclosed l hl) hsource.symm hne hp)

/-- Only an identifier can be parted. -/
theorem exists_of_append (h : IsPiece ls (u ++ v)) (hclosed : ∀ l ∈ ls, l.IsClosed) (hu : u ≠ [])
    (hne : v ≠ []) (hv : Lexeme.EndsNoHiding v) :
    ∃ front, u = '"' :: front ∧ .quoted .double (front ++ v) ∈ ls := by
  obtain ⟨c, front, rfl⟩ := List.exists_cons_of_ne_nil hu
  have hlength : 2 ≤ (c :: front ++ v).length := by
    have := List.length_pos_iff.2 hne
    simp only [List.length_append, List.length_cons]
    omega
  rcases h with ⟨l, hl, hwritten, hsource⟩ | hparenthesis | hparenthesis
  · have hhides := Lexeme.not_hidesQuotes_of_suffix (hclosed l hl) hsource.symm hne hv
    cases l with
    | plain d =>
      rw [hsource] at hlength
      exact absurd hlength (Nat.lt_irrefl 1)
    | quoted q body =>
      cases q with
      | single => exact absurd trivial hhides
      | double =>
        obtain ⟨rfl, rfl⟩ := List.cons.inj hsource
        exact ⟨front, rfl, hl⟩
    | hint body => exact absurd trivial hhides
    | _ => exact absurd hwritten id
  · rw [hparenthesis] at hlength
    exact absurd hlength (by decide)
  · rw [hparenthesis] at hlength
    exact absurd hlength (by decide)

end IsPiece

end SqlTemplate
