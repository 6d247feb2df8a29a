import SqlTemplate.Proofs.Rendering.Tally

/-!
# Results that grow

Two runs with different parameters give two results for a line. `Grows x y` says that the second one
`y` holds no less than the first one `x`, as far as lines can tell: it is there if `x` is, it has
values if `x` has, and if it is left with connectives alone, then so is `x`, with no more of them. The
last condition is what matters where blocks are cleaned. It is kept where results are put together:
by `Block.assemble`, which removes at least as many connectives from the smaller block, and by
`Block.attach`.
-/

namespace SqlTemplate

open Block Connective

variable {lines : List Line} {own : Fragment} {t u : Text}

theorem eq_nil_of_isBlankText (hblank : isBlankText t = true) (hstrip : strip t = t) : t = [] := by
  cases t with
  | nil => rfl
  | cons c t =>
    rw [isBlankText_cons, (strip_eq_self_iff.1 hstrip).1 c rfl] at hblank
    cases hblank

theorem strip_append_space (ht : strip t = t) (hu : strip u = u) (htne : t ≠ []) (hune : u ≠ []) :
    strip (t ++ ' ' :: u) = t ++ ' ' :: u := by
  obtain ⟨c, t, rfl⟩ := List.exists_cons_of_ne_nil htne
  refine strip_eq_self_iff.2 ⟨(strip_eq_self_iff.1 ht).1, fun x hx => ?_⟩
  rw [List.getLast?_append_of_ne_nil _ (List.cons_ne_nil _ _), List.getLast?_cons_of_ne_nil hune] at hx
  exact (strip_eq_self_iff.1 hu).2 x hx

namespace Block

theorem join_eq_nil_iff {texts : List Text} : join texts = [] ↔ texts.all List.isEmpty = true := by
  refine ⟨fun h => ?_, join_eq_nil⟩
  induction texts with
  | nil => rfl
  | cons t ts ih =>
    rw [join_cons] at h
    split at h
    · rename_i ht
      rw [List.all_cons, ht, ih h]
      rfl
    · rename_i ht
      split at h
      · exact absurd h ht
      · exact absurd h (by simp)

theorem strip_join {texts : List Text} (h : ∀ t ∈ texts, strip t = t) :
    strip (join texts) = join texts := by
  induction texts with
  | nil => rfl
  | cons t ts ih =>
    obtain ⟨ht, hts⟩ := List.forall_mem_cons.1 h
    rw [join_cons]
    split
    · exact ih hts
    · rename_i hne
      split
      · exact ht
      · rename_i hall
        exact strip_append_space ht (ih hts) hne (mt join_eq_nil_iff.1 hall)

theorem clean_of_all_isEmpty {texts : List Text} (h : texts.all List.isEmpty = true) :
    clean lines texts = texts := by
  have hstart : cleanStart lines texts = texts := by
    rcases cleanStart_eq lines texts with ⟨-, hclean⟩ | ⟨-, hclean⟩
    · exact hclean
    · rw [hclean, editFirst_of_all_isEmpty h]
  rw [clean, hstart, cleanEnd_of_all_isEmpty h]

theorem textOf_assemble (lines : List Line) (results : List (Option Fragment)) :
    textOf (assemble lines results) = join (clean lines (results.map textOf)) := by
  cases hall : (results.map textOf).all List.isEmpty with
  | true =>
    rw [clean_of_all_isEmpty hall, join_eq_nil hall, assemble]
    simp only [hall, if_true]
    split <;> rfl
  | false =>
    rw [assemble_of_not_all_isEmpty hall]
    rfl

theorem valuesOf_assemble (lines : List Line) (results : List (Option Fragment)) :
    valuesOf (assemble lines results) = results.flatMap valuesOf := by
  cases hall : (results.map textOf).all List.isEmpty with
  | true =>
    rw [assemble]
    simp only [hall, if_true]
    split
    · rename_i hvalues
      exact (List.isEmpty_iff.1 hvalues).symm
    · rfl
  | false =>
    rw [assemble_of_not_all_isEmpty hall]
    rfl

theorem assemble_eq_none_iff {results : List (Option Fragment)} :
    assemble lines results = none ↔
      (results.map textOf).all List.isEmpty = true ∧ results.flatMap valuesOf = [] := by
  cases hall : (results.map textOf).all List.isEmpty with
  | true =>
    rw [assemble]
    simp [hall]
  | false =>
    rw [assemble_of_not_all_isEmpty hall]
    simp

theorem attach_eq (own : Fragment) (below : Option Fragment) :
    attach own below =
      if textOf below = [] then
        if strip (dropIntroduction own.sql) = [] ∧ own.values ++ valuesOf below = [] then none
        else some ⟨strip (dropIntroduction own.sql), own.values ++ valuesOf below⟩
      else some ⟨if own.sql = [] then textOf below else own.sql ++ ' ' :: textOf below,
        own.values ++ valuesOf below⟩ := by
  cases below <;> simp [attach, textOf, valuesOf, Fragment.empty]

theorem textOf_attach (own : Fragment) (below : Option Fragment) :
    textOf (attach own below) =
      if textOf below = [] then strip (dropIntroduction own.sql)
      else if own.sql = [] then textOf below else own.sql ++ ' ' :: textOf below := by
  rw [attach_eq]
  split
  · split
    · rename_i hnone
      exact hnone.1.symm
    · rfl
  · rfl

theorem valuesOf_attach (own : Fragment) (below : Option Fragment) :
    valuesOf (attach own below) = own.values ++ valuesOf below := by
  rw [attach_eq]
  split
  · split
    · rename_i hnone
      exact hnone.2.symm
    · rfl
  · rfl

theorem attach_eq_none_iff {below : Option Fragment} :
    attach own below = none ↔
      textOf below = [] ∧ strip (dropIntroduction own.sql) = [] ∧
        own.values ++ valuesOf below = [] := by
  rw [attach_eq]
  split
  · rename_i hbelow
    split
    · rename_i hnone
      exact ⟨fun _ => ⟨hbelow, hnone⟩, fun _ => rfl⟩
    · rename_i hsome
      exact ⟨fun h => (by cases h), fun h => absurd h.2 hsome⟩
  · rename_i hbelow
    exact ⟨fun h => (by cases h), fun h => absurd h.1 hbelow⟩

theorem strip_attach {below : Option Fragment} (hown : strip own.sql = own.sql)
    (hbelow : strip (textOf below) = textOf below) :
    strip (textOf (attach own below)) = textOf (attach own below) := by
  rw [textOf_attach]
  split
  · exact strip_strip _
  · rename_i hne
    split
    · exact hbelow
    · rename_i hsql
      exact strip_append_space hown hbelow hsql hne

theorem mem_textOf_attach {below : Option Fragment} (h : '(' ∈ own.sql) :
    '(' ∈ textOf (attach own below) := by
  rw [textOf_attach]
  split
  · exact mem_strip (by decide) (mem_dropIntroduction (by decide) h)
  · rw [if_neg (List.ne_nil_of_mem h)]
    exact List.mem_append_left _ h

end Block

/-- The text `own'` of a line with its splices, as against `own`: it is the same text, or a text with
a parenthesis of its own, and it has values if `own` has. -/
structure Fragment.Grows (own own' : Fragment) : Prop where
  values : own'.values = [] → own.values = []
  text : own'.sql = own.sql ∨ '(' ∈ own'.sql

/-- The result `y` of a line holds no less than the result `x`. -/
structure Grows (x y : Option Fragment) : Prop where
  rendered : x.isSome = true → y.isSome = true
  values : valuesOf y = [] → valuesOf x = []
  stripped : strip (textOf x) = textOf x
  connectives : ∀ k, Only k (textOf y) → ∃ j, j ≤ k ∧ Only j (textOf x)

namespace Grows

variable {x y : Option Fragment}

theorem of_none (y : Option Fragment) : Grows none y where
  rendered h := by cases h
  values _ := rfl
  stripped := rfl
  connectives k _ := ⟨0, Nat.zero_le k, .nil⟩

theorem textOf_eq_nil (h : Grows x y) (hy : textOf y = []) : textOf x = [] := by
  obtain ⟨j, hj, honly⟩ := h.connectives 0 (hy ▸ .nil)
  exact eq_nil_of_isBlankText (honly.eq_zero_iff.1 (Nat.le_zero.1 hj)) h.stripped

section Blocks

variable {xs ys : List (Option Fragment)}

theorem exists_tally (h : List.Forall₂ Grows xs ys) {k : Nat} (hk : Tally k (ys.map textOf)) :
    ∃ j, j ≤ k ∧ Tally j (xs.map textOf) := by
  induction h generalizing k with
  | nil => exact ⟨k, le_rfl, hk⟩
  | cons hxy _ ih =>
    cases hk with
    | cons ht hts =>
      obtain ⟨i, hi, honly⟩ := hxy.connectives _ ht
      obtain ⟨j, hj, htally⟩ := ih hts
      exact ⟨i + j, Nat.add_le_add hi hj, .cons honly htally⟩

theorem head?_map (h : List.Forall₂ Grows xs ys) (hy : (ys.map textOf).head? = some []) :
    (xs.map textOf).head? = some [] := by
  cases h with
  | nil => cases hy
  | cons hxy _ => exact congrArg some (hxy.textOf_eq_nil (Option.some.inj hy))

theorem getLast?_map (h : List.Forall₂ Grows xs ys) (hy : (ys.map textOf).getLast? = some []) :
    (xs.map textOf).getLast? = some [] := by
  rw [← List.head?_reverse, ← List.map_reverse] at hy ⊢
  exact head?_map (List.forall₂_reverse_iff.2 h) hy

theorem all_isEmpty (h : List.Forall₂ Grows xs ys)
    (hy : (ys.map textOf).all List.isEmpty = true) : (xs.map textOf).all List.isEmpty = true := by
  induction h with
  | nil => rfl
  | cons hxy _ ih =>
    obtain ⟨hy, hys⟩ := Bool.and_eq_true_iff.1 hy
    exact Bool.and_eq_true_iff.2
      ⟨List.isEmpty_iff.2 (hxy.textOf_eq_nil (List.isEmpty_iff.1 hy)), ih hys⟩

theorem flatMap_valuesOf (h : List.Forall₂ Grows xs ys) (hy : ys.flatMap valuesOf = []) :
    xs.flatMap valuesOf = [] := by
  induction h with
  | nil => rfl
  | cons hxy _ ih =>
    rw [List.flatMap_cons, List.append_eq_nil_iff] at hy ⊢
    exact ⟨hxy.values hy.1, ih hy.2⟩

theorem stripped_map (h : List.Forall₂ Grows xs ys) : ∀ t ∈ xs.map textOf, strip t = t := by
  induction h with
  | nil => simp
  | cons hxy _ ih => exact List.forall_mem_cons.2 ⟨hxy.stripped, ih⟩

/-- A block of results that grow grows. -/
theorem assemble (h : List.Forall₂ Grows xs ys) (lines : List Line) :
    Grows (assemble lines xs) (assemble lines ys) where
  rendered hx := by
    rw [Option.isSome_iff_ne_none] at hx ⊢
    refine mt (fun hy => ?_) hx
    obtain ⟨htexts, hvalues⟩ := assemble_eq_none_iff.1 hy
    exact assemble_eq_none_iff.2 ⟨all_isEmpty h htexts, flatMap_valuesOf h hvalues⟩
  values hy := by
    rw [valuesOf_assemble] at hy ⊢
    exact flatMap_valuesOf h hy
  stripped := by
    rw [textOf_assemble]
    exact strip_join (strip_clean (stripped_map h))
  connectives k hk := by
    rw [textOf_assemble, only_join_iff] at hk
    obtain ⟨i, hi, hys⟩ := exists_tally_of_clean hk
    obtain ⟨j, hj, hxs⟩ := exists_tally h hys
    obtain ⟨n, hn, hclean⟩ := exists_tally_clean lines hxs (stripped_map h)
    have hleads : leads lines (ys.map textOf) ≤ leads lines (xs.map textOf) :=
      leads_mono (head?_map h)
    have htrails : trails lines (ys.map textOf) ≤ trails lines (xs.map textOf) :=
      trails_mono (getLast?_map h)
    refine ⟨n, by omega, ?_⟩
    rw [textOf_assemble, only_join_iff]
    exact hclean

end Blocks

section Lines

variable {own own' : Fragment}

/-- A line with nothing below it. -/
theorem of_own (h : own.Grows own') (hstrip : strip own.sql = own.sql) :
    Grows (some own) (some own') where
  rendered _ := rfl
  values := h.values
  stripped := hstrip
  connectives k hk := by
    have hown : Only k own'.sql := hk
    rcases h.text with hsql | hmem
    · rw [hsql] at hown
      exact ⟨k, le_rfl, hown⟩
    · exact absurd hmem hown.not_mem_opening

/-- A line with more below it holds no less. -/
theorem attach_of_eq (h : Grows x y) (hsql : own'.sql = own.sql)
    (hvalues : own'.values = [] → own.values = []) (hstrip : strip own.sql = own.sql) :
    Grows (Block.attach own x) (Block.attach own' y) where
  rendered hx := by
    rw [Option.isSome_iff_ne_none] at hx ⊢
    refine mt (fun hy => ?_) hx
    obtain ⟨htext, hown, hall⟩ := attach_eq_none_iff.1 hy
    rw [List.append_eq_nil_iff] at hall
    rw [hsql] at hown
    exact attach_eq_none_iff.2 ⟨h.textOf_eq_nil htext, hown,
      List.append_eq_nil_iff.2 ⟨hvalues hall.1, h.values hall.2⟩⟩
  values hy := by
    rw [valuesOf_attach, List.append_eq_nil_iff] at hy ⊢
    exact ⟨hvalues hy.1, h.values hy.2⟩
  stripped := strip_attach hstrip h.stripped
  connectives k hk := by
    rw [textOf_attach, hsql] at hk
    rw [textOf_attach]
    by_cases hy : textOf y = []
    · rw [if_pos hy] at hk
      rw [if_pos (h.textOf_eq_nil hy)]
      exact ⟨k, le_rfl, hk⟩
    · rw [if_neg hy] at hk
      by_cases hown : own.sql = []
      · rw [if_pos hown] at hk
        rw [hown]
        split
        · exact ⟨0, Nat.zero_le k, .nil⟩
        · exact h.connectives k hk
      · rw [if_neg hown] at hk
        obtain ⟨i, j, rfl, hi, hj⟩ := hk.split (by decide)
        -- Where nothing is left below in the first run, the line loses one of its own connectives.
        split
        · obtain ⟨n, rfl, hn⟩ := hi.dropIntroduction hown hstrip
          exact ⟨n, by omega, Only.strip_iff.2 hn⟩
        · obtain ⟨n, hle, hn⟩ := h.connectives j hj
          have hspace : Only n (' ' :: textOf x) := .blank (by decide) hn
          exact ⟨i + n, by omega, hi.append hspace (.inr rfl)⟩

/-- A line with a parenthesis of its own is never left with connectives alone. -/
theorem attach_of_mem (h : Grows x y) (hmem : '(' ∈ own'.sql)
    (hvalues : own'.values = [] → own.values = []) (hstrip : strip own.sql = own.sql) :
    Grows (Block.attach own x) (Block.attach own' y) where
  rendered _ := by
    rw [Option.isSome_iff_ne_none]
    intro hnone
    have hopening : '(' ∈ textOf (Block.attach own' y) := mem_textOf_attach hmem
    rw [hnone] at hopening
    exact absurd hopening List.not_mem_nil
  values hy := by
    rw [valuesOf_attach, List.append_eq_nil_iff] at hy ⊢
    exact ⟨hvalues hy.1, h.values hy.2⟩
  stripped := strip_attach hstrip h.stripped
  connectives k hk := absurd (mem_textOf_attach hmem) hk.not_mem_opening

theorem attach (h : Grows x y) (hown : own.Grows own') (hstrip : strip own.sql = own.sql) :
    Grows (Block.attach own x) (Block.attach own' y) := by
  rcases hown.text with hsql | hmem
  · exact h.attach_of_eq hsql hown.values hstrip
  · exact h.attach_of_mem hmem hown.values hstrip

end Lines

end Grows

end SqlTemplate
