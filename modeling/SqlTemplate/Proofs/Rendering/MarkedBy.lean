import Mathlib.Data.List.Forall2
import SqlTemplate.Proofs.Rendering.Joining
import SqlTemplate.Proofs.Text.Trimming

/-!
# Where the marks of a text come from

A text is laid out by directives if it is made of pieces of their output, one for each directive and
in their order, with text without marks around them, and if the piece of each directive holds as
many marks as the directive has values. Layouts can be put side by side and survive what cleaning
does, since it only takes text without marks off the ends.
-/

namespace SqlTemplate

open Marks

/-- A text whose marks come from directives with the given contributions, in order. -/
inductive MarkedBy : Text → List (Directive × Contribution) → Prop
  | plain {t : Text} (h : mark ∉ t) : MarkedBy t []
  | piece {before kept rest : Text} {d : Directive} {c : Contribution}
      {es : List (Directive × Contribution)} (hbefore : mark ∉ before)
      (hkept : kept <:+: (d.output c).sql) (hmarks : kept.count mark = c.values.length)
      (hrest : MarkedBy rest es) : MarkedBy (before ++ (kept ++ rest)) ((d, c) :: es)

def valuesOfAll (es : List (Directive × Contribution)) : List Value := es.flatMap fun e => e.2.values

theorem valuesOfAll_append (es fs : List (Directive × Contribution)) :
    valuesOfAll (es ++ fs) = valuesOfAll es ++ valuesOfAll fs :=
  List.flatMap_append ..

namespace MarkedBy

variable {t u : Text} {es fs : List (Directive × Contribution)}

theorem piece_append {kept rest : Text} {d : Directive} {c : Contribution}
    (hkept : kept <:+: (d.output c).sql) (hmarks : kept.count mark = c.values.length)
    (hrest : MarkedBy rest es) : MarkedBy (kept ++ rest) ((d, c) :: es) :=
  @piece [] kept rest d c es List.not_mem_nil hkept hmarks hrest

theorem append_left (h : mark ∉ u) (ht : MarkedBy t es) : MarkedBy (u ++ t) es := by
  cases ht with
  | plain ht =>
      apply plain
      intro hmem
      exact (List.mem_append.1 hmem).elim h ht
  | piece hbefore hkept hmarks hrest =>
      rw [← List.append_assoc]
      refine piece ?_ hkept hmarks hrest
      intro hmem
      exact (List.mem_append.1 hmem).elim h hbefore

theorem append (ht : MarkedBy t es) (hu : MarkedBy u fs) : MarkedBy (t ++ u) (es ++ fs) := by
  induction ht with
  | plain ht => exact append_left ht hu
  | piece hbefore hkept hmarks _ ih =>
      rw [List.append_assoc, List.append_assoc]
      exact piece hbefore hkept hmarks ih

/-- Each mark stands in the piece of a directive, and the pieces are in order. -/
theorem count (h : MarkedBy t es) : t.count mark = (valuesOfAll es).length := by
  induction h with
  | plain h => exact List.count_eq_zero_of_not_mem h
  | @piece before kept rest d c es hbefore hkept hmarks hrest ih =>
      rw [List.count_append, List.count_append, List.count_eq_zero_of_not_mem hbefore, hmarks, ih,
        Nat.zero_add]
      exact (List.length_append ..).symm

theorem of_cons {x : Char} (hx : x ≠ mark) (h : MarkedBy (x :: t) es) : MarkedBy t es := by
  generalize hs : x :: t = s at h
  induction h with
  | plain h =>
      apply plain
      intro hmem
      exact h (by rw [← hs]; exact List.mem_cons_of_mem _ hmem)
  | @piece before kept rest d c es hbefore hkept hmarks hrest ih =>
      cases before with
      | cons y before =>
          obtain ⟨-, rfl⟩ := List.cons.inj hs
          exact piece (fun hmem => hbefore (List.mem_cons_of_mem _ hmem)) hkept hmarks hrest
      | nil =>
          cases kept with
          | nil => exact piece_append hkept hmarks (ih hs)
          | cons y kept =>
              obtain ⟨rfl, rfl⟩ := List.cons.inj hs
              refine piece_append ?_ ?_ hrest
              · exact (List.suffix_cons x kept).isInfix.trans hkept
              · rw [← hmarks, List.count_cons_of_ne hx]

theorem of_append_left (h : mark ∉ u) (ht : MarkedBy (u ++ t) es) : MarkedBy t es := by
  induction u with
  | nil => exact ht
  | cons x u ih =>
      have hx : x ≠ mark := fun hx => h (by rw [hx]; exact List.mem_cons_self ..)
      exact ih (fun hmem => h (List.mem_cons_of_mem _ hmem)) (of_cons hx ht)

theorem of_append_singleton {x : Char} (hx : x ≠ mark) (h : MarkedBy (t ++ [x]) es) :
    MarkedBy t es := by
  generalize hs : t ++ [x] = s at h
  induction h generalizing t with
  | plain h =>
      apply plain
      intro hmem
      exact h (by rw [← hs]; exact List.mem_append_left _ hmem)
  | @piece before kept rest d c es hbefore hkept hmarks hrest ih =>
      -- The last character stands in what follows the piece, in the piece or before it.
      rcases List.eq_nil_or_concat' rest with rfl | ⟨rest, y, rfl⟩
      · rw [List.append_nil] at hs
        rcases List.eq_nil_or_concat' kept with rfl | ⟨kept, y, rfl⟩
        · rw [List.append_nil] at hs
          subst hs
          rw [← List.append_nil t]
          exact piece (fun hmem => hbefore (List.mem_append_left _ hmem)) hkept hmarks hrest
        · rw [← List.append_assoc] at hs
          obtain ⟨rfl, hxy⟩ := List.append_inj' hs rfl
          obtain rfl := List.singleton_inj.1 hxy
          rw [← List.append_nil kept]
          refine piece hbefore ((List.prefix_append kept [x]).isInfix.trans hkept) ?_ hrest
          rw [← hmarks, List.count_append, List.count_singleton, if_neg (by simpa using hx),
            Nat.add_zero]
      · rw [← List.append_assoc, ← List.append_assoc] at hs
        obtain ⟨rfl, hxy⟩ := List.append_inj' hs rfl
        rw [List.append_assoc]
        exact piece hbefore hkept hmarks (ih (by rw [hxy]))

theorem of_append_right (h : mark ∉ u) (ht : MarkedBy (t ++ u) es) : MarkedBy t es := by
  induction u generalizing t with
  | nil => simpa using ht
  | cons x u ih =>
      have hx : x ≠ mark := fun hx => h (by rw [hx]; exact List.mem_cons_self ..)
      rw [← List.singleton_append, ← List.append_assoc] at ht
      exact of_append_singleton hx (ih (fun hmem => h (List.mem_cons_of_mem _ hmem)) ht)

theorem not_mem_of_isBlankText (h : isBlankText u = true) : mark ∉ u := by
  intro hmem
  exact absurd (List.all_eq_true.1 h _ hmem) (by decide)

theorem strip (h : MarkedBy t es) : MarkedBy (strip t) es := by
  obtain ⟨u, v, hu, hv, ht⟩ := exists_append_strip_append t
  rw [ht] at h
  exact of_append_left (not_mem_of_isBlankText hu)
    (of_append_right (not_mem_of_isBlankText hv) h)

theorem not_isChar_mark : ¬ Connective.IsChar mark := by decide

theorem dropLeading (h : MarkedBy t es) : MarkedBy (Connective.dropLeading t) es := by
  obtain ⟨u, ht, hu⟩ := Connective.exists_append_dropLeading t
  rw [ht] at h
  exact of_append_left (fun hmem => not_isChar_mark (hu _ hmem)) h

theorem dropTrailing (h : MarkedBy t es) : MarkedBy (Connective.dropTrailing t) es := by
  obtain ⟨u, ht, hu⟩ := Connective.exists_dropTrailing_append t
  rw [ht] at h
  exact of_append_right (fun hmem => not_isChar_mark (hu _ hmem)) h

theorem dropIntroduction (h : MarkedBy t es) : MarkedBy (Connective.dropIntroduction t) es := by
  obtain ⟨u, ht, hu⟩ := Connective.exists_dropIntroduction_append t
  rw [ht] at h
  exact of_append_right (fun hmem => not_isChar_mark (hu _ hmem)) h

/-- The mark at any place, the piece in which it stands, and the value for it. -/
theorem exists_of_lt (h : MarkedBy t es) {i : Nat} (hi : i < (valuesOfAll es).length) :
    ∃ before kept after es₁ e es₂, t = before ++ (kept ++ after) ∧ es = es₁ ++ e :: es₂ ∧
      kept <:+: (e.1.output e.2).sql ∧ before.count mark ≤ i ∧
      i < before.count mark + kept.count mark ∧
      (valuesOfAll es)[i]? = e.2.values[i - before.count mark]? := by
  induction h generalizing i with
  | plain h => simp [valuesOfAll] at hi
  | @piece before kept rest d c es hbefore hkept hmarks hrest ih =>
      have hzero : before.count mark = 0 := List.count_eq_zero_of_not_mem hbefore
      have hcons : valuesOfAll ((d, c) :: es) = c.values ++ valuesOfAll es := rfl
      rw [hcons]
      rw [hcons, List.length_append] at hi
      rcases Nat.lt_or_ge i c.values.length with hlt | hge
      · refine ⟨before, kept, rest, [], (d, c), es, rfl, rfl, hkept, ?_, ?_, ?_⟩
        · omega
        · omega
        · rw [hzero, Nat.sub_zero, List.getElem?_append_left hlt]
      · obtain ⟨before', kept', after, es₁, e, es₂, rfl, rfl, hkept', hle, hlt, hvalue⟩ :=
          ih (i := i - c.values.length) (by omega)
        have hcount : (before ++ (kept ++ before')).count mark =
            c.values.length + before'.count mark := by
          rw [List.count_append, List.count_append, hzero, hmarks, Nat.zero_add]
        refine ⟨before ++ (kept ++ before'), kept', after, (d, c) :: es₁, e, es₂, ?_, rfl, hkept',
          ?_, ?_, ?_⟩
        · simp only [List.append_assoc]
        · omega
        · omega
        · rw [hcount, List.getElem?_append_right hge, hvalue, Nat.sub_sub]

end MarkedBy

/-- A fragment whose marks come from directives and whose values are theirs. -/
structure Fragment.MarkedBy (f : Fragment) (es : List (Directive × Contribution)) : Prop where
  sql : SqlTemplate.MarkedBy f.sql es
  values : f.values = valuesOfAll es

theorem Fragment.MarkedBy.append {f g : Fragment} {es fs : List (Directive × Contribution)}
    (hf : f.MarkedBy es) (hg : g.MarkedBy fs) : (f ++ g).MarkedBy (es ++ fs) := by
  refine ⟨hf.sql.append hg.sql, ?_⟩
  rw [Fragment.values_append, hf.values, hg.values, valuesOfAll_append]

theorem Fragment.markedBy_plain {t : Text} (h : mark ∉ t) : Fragment.MarkedBy ⟨t, []⟩ [] :=
  ⟨.plain h, rfl⟩

namespace Block

variable {texts : List Text} {ess : List (List (Directive × Contribution))}

theorem forall₂_editFirst {f : Text → Text} (hf : ∀ t es, MarkedBy t es → MarkedBy (f t) es)
    (h : List.Forall₂ MarkedBy texts ess) : List.Forall₂ MarkedBy (editFirst f texts) ess := by
  induction h with
  | nil => exact .nil
  | @cons t es texts ess ht hts ih =>
      rw [editFirst]
      split
      · exact .cons ht ih
      · exact .cons (hf t es ht) hts

theorem forall₂_editLast {f : Text → Text} (hf : ∀ t es, MarkedBy t es → MarkedBy (f t) es)
    (h : List.Forall₂ MarkedBy texts ess) : List.Forall₂ MarkedBy (editLast f texts) ess := by
  have hreversed := forall₂_editFirst hf (List.forall₂_reverse_iff.2 h)
  have hback := List.forall₂_reverse_iff.2 hreversed
  rw [List.reverse_reverse] at hback
  exact hback

theorem forall₂_clean (lines : List Line) (h : List.Forall₂ MarkedBy texts ess) :
    List.Forall₂ MarkedBy (cleanEnd lines (cleanStart lines texts)) ess := by
  have hstart : List.Forall₂ MarkedBy (cleanStart lines texts) ess := by
    unfold cleanStart
    split
    · split
      · exact h
      · exact forall₂_editFirst (fun _ _ => MarkedBy.dropLeading) h
    · exact h
  unfold cleanEnd
  split
  · split
    · exact hstart
    · exact forall₂_editLast (fun _ _ => MarkedBy.dropTrailing) hstart
  · exact hstart

theorem markedBy_join (h : List.Forall₂ MarkedBy texts ess) :
    MarkedBy (join texts) ess.flatten := by
  induction h with
  | nil => exact .plain (by simp [join])
  | @cons t es texts ess ht hts ih =>
      obtain ⟨gap, hgap, hjoin⟩ := exists_join_cons t texts
      rw [hjoin, List.flatten_cons]
      exact ht.append (ih.append_left (MarkedBy.not_mem_of_isBlankText hgap))

/-- Cleaning and joining keep the marks of a block and the values for them together. -/
theorem markedBy_assemble (lines : List Line) {results : List (Option Fragment)}
    (h : List.Forall₂ (fun result es => (result.getD .empty : Fragment).MarkedBy es) results ess) :
    ((assemble lines results).getD .empty).MarkedBy ess.flatten := by
  have htexts : List.Forall₂ MarkedBy (results.map textOf) ess := by
    rw [List.forall₂_map_left_iff]
    refine h.imp ?_
    intro result es hresult
    cases result with
    | none => exact hresult.sql
    | some f => exact hresult.sql
  have hvalues : results.flatMap valuesOf = valuesOfAll ess.flatten := by
    clear htexts
    induction h with
    | nil => rfl
    | @cons result es results ess hresult hresults ih =>
        rw [List.flatMap_cons, List.flatten_cons, valuesOfAll_append, ih]
        congr 1
        cases result with
        | none => exact hresult.values
        | some f => exact hresult.values
  unfold assemble
  dsimp only
  split
  · rename_i hempty
    have hnil : MarkedBy [] ess.flatten := by
      rw [← join_eq_nil hempty]
      exact markedBy_join htexts
    split
    · rename_i hnone
      exact ⟨hnil, by rw [← hvalues, List.isEmpty_iff.1 hnone]; rfl⟩
    · exact ⟨hnil, hvalues⟩
  · exact ⟨markedBy_join (forall₂_clean lines htexts), hvalues⟩

/-- A line with the lines that belong to it, unless nothing is left of it. -/
theorem markedBy_attach {own f : Fragment} {children : Option Fragment}
    {es fs : List (Directive × Contribution)} (hown : own.MarkedBy es)
    (hchildren : (children.getD .empty).MarkedBy fs) (h : attach own children = some f) :
    f.MarkedBy (es ++ fs) := by
  have hvalues : own.values ++ (children.getD .empty).values = valuesOfAll (es ++ fs) := by
    rw [hown.values, hchildren.values, valuesOfAll_append]
  unfold attach at h
  dsimp only at h
  split at h
  · rename_i hbelow
    split at h
    · simp at h
    · obtain rfl := Option.some.inj h
      refine ⟨?_, hvalues⟩
      have hjoined := hown.sql.dropIntroduction.strip.append hchildren.sql
      rw [List.isEmpty_iff.1 hbelow, List.append_nil] at hjoined
      exact hjoined
  · obtain rfl := Option.some.inj h
    refine ⟨?_, hvalues⟩
    dsimp only
    split
    · rename_i hempty
      have hjoined := hown.sql.append hchildren.sql
      rw [List.isEmpty_iff.1 hempty, List.nil_append] at hjoined
      exact hjoined
    · have hspace : mark ∉ [' '] := by decide
      exact hown.sql.append (hchildren.sql.append_left hspace)

end Block

end SqlTemplate
