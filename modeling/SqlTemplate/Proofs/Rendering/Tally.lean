import SqlTemplate.Proofs.Rendering.Ends
import SqlTemplate.Proofs.Text.Leftover

/-!
# Blocks of connectives alone

The texts of a block may be left with connectives alone. `Block.Tally k texts` says that they are,
and that there are `k` of them together. Joining the texts keeps the count (`only_join_iff`), and
cleaning the block takes one connective off each end where it is cleaned: where the lines tell that
`leads` and `trails` connectives are to be removed, so many are gone from a block of connectives
alone (`exists_tally_clean`), and a block that is left with connectives alone was one with at most so
many more (`exists_tally_of_clean`).
-/

namespace SqlTemplate

namespace Block

/-- Texts of `k` connectives together, and of blanks. -/
inductive Tally : Nat → List Text → Prop
  | nil : Tally 0 []
  | cons {j k : Nat} {t : Text} {ts : List Text} (ht : Connective.Only j t) (hts : Tally k ts) :
      Tally (j + k) (t :: ts)

namespace Tally

variable {j k : Nat} {t : Text} {ts us : List Text}

theorem append (hts : Tally j ts) (hus : Tally k us) : Tally (j + k) (ts ++ us) := by
  induction hts with
  | nil => simpa using hus
  | cons ht _ ih =>
    rw [Nat.add_assoc]
    exact .cons ht ih

theorem reverse (h : Tally k ts) : Tally k ts.reverse := by
  induction h with
  | nil => exact .nil
  | cons ht _ ih =>
    rw [List.reverse_cons, Nat.add_comm]
    exact ih.append (.cons ht .nil)

theorem reverse_iff : Tally k ts.reverse ↔ Tally k ts :=
  ⟨fun h => by simpa using h.reverse, reverse⟩

/-- Texts that are all empty hold no connective. -/
theorem eq_zero (h : Tally k ts) (hall : ts.all List.isEmpty = true) : k = 0 := by
  induction h with
  | nil => rfl
  | cons ht _ ih =>
    obtain ⟨hnil, hrest⟩ := Bool.and_eq_true_iff.1 hall
    rw [List.isEmpty_iff.1 hnil] at ht
    rw [ht.eq_zero_iff.2 rfl, ih hrest]

theorem zero_of_all (hall : ts.all List.isEmpty = true) : Tally 0 ts := by
  induction ts with
  | nil => exact .nil
  | cons t ts ih =>
    obtain ⟨hnil, hrest⟩ := Bool.and_eq_true_iff.1 hall
    rw [List.isEmpty_iff.1 hnil]
    exact .cons .nil (ih hrest)

end Tally

/-- Joining texts keeps the count of connectives. -/
theorem only_join_iff {k : Nat} {texts : List Text} :
    Connective.Only k (join texts) ↔ Tally k texts := by
  induction texts generalizing k with
  | nil =>
    constructor
    · intro h
      rw [h.eq_zero_iff.2 rfl]
      exact .nil
    · intro h
      rw [h.eq_zero rfl]
      exact .nil
  | cons t ts ih =>
    rw [join_cons]
    constructor
    · intro h
      split at h
      · rename_i ht
        rw [ht, ← Nat.zero_add k]
        exact .cons .nil (ih.1 h)
      · split at h
        · rename_i hts
          exact .cons h (Tally.zero_of_all hts)
        · obtain ⟨i, j, rfl, ht, hts⟩ := h.split (by decide)
          exact .cons ht (ih.1 hts)
    · intro h
      cases h with
      | @cons i j _ _ ht hts =>
        split
        · rename_i hnil
          rw [hnil] at ht
          rw [ht.eq_zero_iff.2 rfl, Nat.zero_add]
          exact ih.2 hts
        · split
          · rename_i hall
            rwa [hts.eq_zero hall]
          · have hspace : Connective.Only j (' ' :: join ts) := .blank (by decide) (ih.2 hts)
            exact ht.append hspace (.inr rfl)

/-! ### Cleaning a block -/

/-- A change of texts that takes a connective off an end of a stripped text of connectives alone,
and that takes no more than one off any text. -/
structure Sheds (f : Text → Text) : Prop where
  one : ∀ {k : Nat} {t : Text}, Connective.Only k t → t ≠ [] → strip t = t →
    ∃ j, j + 1 = k ∧ Connective.Only j (f t)
  atMost : ∀ {k : Nat} {t : Text}, Connective.Only k (f t) → ∃ j, j ≤ k + 1 ∧ Connective.Only j t
  strip_eq : ∀ {t : Text}, strip t = t → strip (f t) = f t

theorem sheds_dropLeading : Sheds Connective.dropLeading where
  one h := h.dropLeading
  atMost h := h.of_dropLeading
  strip_eq h := Connective.strip_dropLeading h

theorem sheds_dropTrailing : Sheds Connective.dropTrailing where
  one h := h.dropTrailing
  atMost h := h.of_dropTrailing
  strip_eq h := Connective.strip_dropTrailing h

namespace Sheds

variable {f : Text → Text} {k : Nat} {texts : List Text}

theorem strip_editFirst (hf : Sheds f) (h : ∀ t ∈ texts, strip t = t) :
    ∀ t ∈ editFirst f texts, strip t = t := by
  induction texts with
  | nil => exact h
  | cons t ts ih =>
    obtain ⟨ht, hts⟩ := List.forall_mem_cons.1 h
    rw [editFirst]
    split
    · exact List.forall_mem_cons.2 ⟨ht, ih hts⟩
    · exact List.forall_mem_cons.2 ⟨hf.strip_eq ht, hts⟩

theorem tally_editFirst (hf : Sheds f) (h : Tally k texts) (hstrip : ∀ t ∈ texts, strip t = t) :
    Tally (k - 1) (editFirst f texts) := by
  induction h with
  | nil => exact .nil
  | @cons i j t ts ht hts ih =>
    obtain ⟨hs, hrest⟩ := List.forall_mem_cons.1 hstrip
    rw [editFirst]
    split
    · rename_i hnil
      rw [List.isEmpty_iff.1 hnil] at ht
      rw [ht.eq_zero_iff.2 rfl, Nat.zero_add, ← Nat.zero_add (j - 1)]
      exact .cons (List.isEmpty_iff.1 hnil ▸ .nil) (ih hrest)
    · rename_i hne
      obtain ⟨i, rfl, hi⟩ := hf.one ht (mt List.isEmpty_iff.2 hne) hs
      rw [Nat.add_right_comm, Nat.add_sub_cancel]
      exact .cons hi hts

theorem exists_tally_of_editFirst (hf : Sheds f) (h : Tally k (editFirst f texts)) :
    ∃ j, j ≤ k + 1 ∧ Tally j texts := by
  induction texts generalizing k with
  | nil => exact ⟨k, Nat.le_succ k, h⟩
  | cons t ts ih =>
    rw [editFirst] at h
    split at h
    · cases h with
      | cons ht hts =>
        obtain ⟨j, hj, hrest⟩ := ih hts
        exact ⟨_, by omega, .cons ht hrest⟩
    · cases h with
      | cons ht hts =>
        obtain ⟨j, hj, hfirst⟩ := hf.atMost ht
        exact ⟨_, by omega, .cons hfirst hts⟩

theorem strip_editLast (hf : Sheds f) (h : ∀ t ∈ texts, strip t = t) :
    ∀ t ∈ editLast f texts, strip t = t := by
  intro t ht
  exact hf.strip_editFirst (fun u hu => h u (List.mem_reverse.1 hu)) t (List.mem_reverse.1 ht)

theorem tally_editLast (hf : Sheds f) (h : Tally k texts) (hstrip : ∀ t ∈ texts, strip t = t) :
    Tally (k - 1) (editLast f texts) :=
  (hf.tally_editFirst h.reverse fun t ht => hstrip t (List.mem_reverse.1 ht)).reverse

theorem exists_tally_of_editLast (hf : Sheds f) (h : Tally k (editLast f texts)) :
    ∃ j, j ≤ k + 1 ∧ Tally j texts := by
  obtain ⟨j, hj, htally⟩ := hf.exists_tally_of_editFirst (Tally.reverse_iff.1 h)
  exact ⟨j, hj, Tally.reverse_iff.1 htally⟩

end Sheds

/-- How many connectives are to be removed at an end of a block: one if the line that stood there is
missing and was not written with one. -/
def due (written : Text → Bool) (line : Option Line) (text : Option Text) : Nat :=
  match line, text with
  | some l, some [] => if written l.sql then 0 else 1
  | _, _ => 0

/-- How many connectives are to be removed in front of the texts of lines. -/
def leads (lines : List Line) (texts : List Text) : Nat :=
  due Connective.startsWith lines.head? texts.head?

/-- How many connectives are to be removed behind the texts of lines. -/
def trails (lines : List Line) (texts : List Text) : Nat :=
  due Connective.endsWith lines.getLast? texts.getLast?

theorem due_cases (written : Text → Bool) (line : Option Line) (text : Option Text) :
    due written line text = 0 ∧ (∀ l, line = some l → text = some [] → written l.sql = true) ∨
      due written line text = 1 ∧
        ∃ l, line = some l ∧ text = some [] ∧ written l.sql = false := by
  unfold due
  split
  · rename_i l
    cases hl : written l.sql with
    | true => exact .inl ⟨rfl, fun k hk _ => by rwa [← Option.some.inj hk]⟩
    | false => exact .inr ⟨rfl, l, rfl, rfl, hl⟩
  · rename_i hneither
    exact .inl ⟨rfl, fun l hl htext => (hneither l hl htext).elim⟩

theorem due_mono {written : Text → Bool} {line : Option Line} {text text' : Option Text}
    (h : text = some [] → text' = some []) : due written line text ≤ due written line text' := by
  by_cases htext : text = some []
  · rw [htext, h htext]
  · unfold due
    split
    · exact absurd rfl htext
    · exact Nat.zero_le _

variable {k : Nat} {lines : List Line} {texts : List Text}

theorem leads_mono {us : List Text} (h : texts.head? = some [] → us.head? = some []) :
    leads lines texts ≤ leads lines us :=
  due_mono h

theorem trails_mono {us : List Text} (h : texts.getLast? = some [] → us.getLast? = some []) :
    trails lines texts ≤ trails lines us :=
  due_mono h

theorem cleanStart_eq (lines : List Line) (texts : List Text) :
    leads lines texts = 0 ∧ cleanStart lines texts = texts ∨
      leads lines texts = 1 ∧
        cleanStart lines texts = editFirst Connective.dropLeading texts := by
  rcases due_cases Connective.startsWith lines.head? texts.head? with
    ⟨hzero, hkept⟩ | ⟨hone, l, hl, htext, hwritten⟩
  · refine .inl ⟨hzero, ?_⟩
    unfold cleanStart
    split
    · rename_i l hl htext
      rw [if_pos (hkept l hl htext)]
    · rfl
  · refine .inr ⟨hone, ?_⟩
    rw [cleanStart_of_head? hl htext, hwritten]
    rfl

theorem cleanEnd_eq (lines : List Line) (texts : List Text) :
    trails lines texts = 0 ∧ cleanEnd lines texts = texts ∨
      trails lines texts = 1 ∧ texts.getLast? = some [] ∧
        cleanEnd lines texts = editLast Connective.dropTrailing texts := by
  rcases due_cases Connective.endsWith lines.getLast? texts.getLast? with
    ⟨hzero, hkept⟩ | ⟨hone, l, hl, htext, hwritten⟩
  · refine .inl ⟨hzero, ?_⟩
    unfold cleanEnd
    split
    · rename_i l hl htext
      rw [if_pos (hkept l hl htext)]
    · rfl
  · refine .inr ⟨hone, htext, ?_⟩
    rw [cleanEnd_of_getLast? hl htext, hwritten]
    rfl

/-- The texts of a block, cleaned at both ends. -/
def clean (lines : List Line) (texts : List Text) : List Text :=
  cleanEnd lines (cleanStart lines texts)

theorem strip_clean (h : ∀ t ∈ texts, strip t = t) : ∀ t ∈ clean lines texts, strip t = t := by
  have hstart : ∀ t ∈ cleanStart lines texts, strip t = t := by
    rcases cleanStart_eq lines texts with ⟨-, hclean⟩ | ⟨-, hclean⟩
    · rwa [hclean]
    · rw [hclean]
      exact sheds_dropLeading.strip_editFirst h
  rcases cleanEnd_eq lines (cleanStart lines texts) with ⟨-, hclean⟩ | ⟨-, -, hclean⟩
  · rwa [clean, hclean]
  · rw [clean, hclean]
    exact sheds_dropTrailing.strip_editLast hstart

/-- Where the last text is empty once the first one has changed, it was so before, or all of them
are. -/
theorem getLast?_or_all_of_editFirst {f : Text → Text}
    (h : (editFirst f texts).getLast? = some []) :
    texts.getLast? = some [] ∨ (editFirst f texts).all List.isEmpty = true := by
  rcases List.eq_nil_or_concat texts with rfl | ⟨front, x, rfl⟩
  · cases h
  · rw [List.concat_eq_append] at h ⊢
    by_cases hfront : front.all List.isEmpty = true
    · by_cases hx : x = []
      · exact .inl (by rw [hx, List.getLast?_concat])
      · have hedit : editFirst f (front ++ [x]) = front ++ [f x] := editFirst_append hfront hx
        rw [hedit, List.getLast?_concat] at h
        right
        rw [hedit, all_isEmpty_append_cons]
        exact ⟨hfront, Option.some.inj h, rfl⟩
    · rw [editFirst_append_of_not_all (by simpa using hfront), List.getLast?_concat] at h
      exact .inl (by rwa [List.getLast?_concat])

/-- A block of connectives alone loses those that are to be removed. -/
theorem exists_tally_clean (lines : List Line) (h : Tally k texts)
    (hstrip : ∀ t ∈ texts, strip t = t) :
    ∃ j, j ≤ k - leads lines texts - trails lines texts ∧ Tally j (clean lines texts) := by
  have hstart : Tally (k - leads lines texts) (cleanStart lines texts) ∧
      ∀ t ∈ cleanStart lines texts, strip t = t := by
    rcases cleanStart_eq lines texts with ⟨hleads, hclean⟩ | ⟨hleads, hclean⟩
    · rw [hleads, hclean]
      exact ⟨h, hstrip⟩
    · rw [hleads, hclean]
      exact ⟨sheds_dropLeading.tally_editFirst h hstrip, sheds_dropLeading.strip_editFirst hstrip⟩
  have htrails : trails lines texts ≤ trails lines (cleanStart lines texts) :=
    trails_mono getLast?_cleanStart
  rcases cleanEnd_eq lines (cleanStart lines texts) with ⟨hzero, hclean⟩ | ⟨hone, -, hclean⟩
  · refine ⟨k - leads lines texts, by omega, ?_⟩
    rw [clean, hclean]
    exact hstart.1
  · refine ⟨k - leads lines texts - 1, by omega, ?_⟩
    rw [clean, hclean]
    exact sheds_dropTrailing.tally_editLast hstart.1 hstart.2

/-- A block that is left with connectives alone was one before it was cleaned. -/
theorem exists_tally_of_clean (h : Tally k (clean lines texts)) :
    ∃ j, j ≤ k + leads lines texts + trails lines texts ∧ Tally j texts := by
  have hend : ∃ j, j ≤ k + trails lines texts ∧ Tally j (cleanStart lines texts) := by
    rcases cleanEnd_eq lines (cleanStart lines texts) with ⟨-, hclean⟩ | ⟨hone, hlast, hclean⟩
    · rw [clean, hclean] at h
      exact ⟨k, Nat.le_add_right _ _, h⟩
    · rw [clean, hclean] at h
      have hcases : texts.getLast? = some [] ∨
          (cleanStart lines texts).all List.isEmpty = true := by
        rcases cleanStart_eq lines texts with ⟨-, hstart⟩ | ⟨-, hstart⟩
        · rw [hstart] at hlast
          exact .inl hlast
        · rw [hstart] at hlast ⊢
          exact getLast?_or_all_of_editFirst hlast
      rcases hcases with htexts | hall
      · have htrails : trails lines (cleanStart lines texts) ≤ trails lines texts :=
          trails_mono fun _ => htexts
        obtain ⟨j, hj, htally⟩ := sheds_dropTrailing.exists_tally_of_editLast h
        exact ⟨j, by omega, htally⟩
      · exact ⟨0, Nat.zero_le _, Tally.zero_of_all hall⟩
  obtain ⟨j, hj, htally⟩ := hend
  rcases cleanStart_eq lines texts with ⟨-, hclean⟩ | ⟨hone, hclean⟩
  · rw [hclean] at htally
    exact ⟨j, by omega, htally⟩
  · rw [hclean] at htally
    obtain ⟨i, hi, hbefore⟩ := sheds_dropLeading.exists_tally_of_editFirst htally
    exact ⟨i, by omega, hbefore⟩

end Block

end SqlTemplate
