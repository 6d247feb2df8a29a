import Mathlib.Data.List.TakeWhile
import SqlTemplate.Line.Nesting

/-!
# Nesting and depths

What a line takes along when lines are nested is the run of deeper lines behind it. So lines can be
cut in front of a line that is not deeper than any line before it, and the two parts are nested one
by one (`nestDepths_append`).
-/

namespace SqlTemplate

namespace Line

/-- Lines with their depths, nested. -/
def nested (rows : List (Nat × Line)) : List Line := (nestDepths rows).map (·.2)

variable {rows front back deeper others : List (Nat × Line)} {depth : Nat} {l : Line}

theorem nest_eq_nested (lines : List Line) :
    nest lines = nested (depths 0 (lines.filter fun l => !l.isBlank)) := rfl

/-- The first line stays in front. -/
theorem head?_nestDepths (p : Nat × Line) (rows : List (Nat × Line)) :
    ∃ k, (nestDepths (p :: rows)).head? = some (p.1, k) := ⟨_, rfl⟩

/-- Nesting gives no line another depth. -/
theorem exists_of_mem_nestDepths {q : Nat × Line} (h : q ∈ nestDepths rows) :
    ∃ p ∈ rows, p.1 = q.1 := by
  induction rows with
  | nil => exact absurd h List.not_mem_nil
  | cons p rows ih =>
      rw [nestDepths_cons] at h
      rcases List.mem_cons.1 h with rfl | h
      · exact ⟨p, List.mem_cons_self .., rfl⟩
      · obtain ⟨p', hp', heq⟩ := ih (List.dropWhile_sublist _ |>.subset h)
        exact ⟨p', List.mem_cons_of_mem _ hp', heq⟩

/-- A line takes nothing along from behind a line that is not deeper. -/
theorem place_append (l : Line) (h : ∀ q ∈ back.head?, q.1 ≤ depth) :
    place depth l (front ++ back) = place depth l front ++ back := by
  have htake : back.takeWhile (fun q : Nat × Line => decide (depth < q.1)) = [] := by
    cases back with
    | nil => rfl
    | cons q back =>
        have hq : ¬decide (depth < q.1) = true := by simpa using h q rfl
        exact List.takeWhile_cons_of_neg hq
  have hdrop : back.dropWhile (fun q : Nat × Line => decide (depth < q.1)) = back := by
    have hsplit := List.takeWhile_append_dropWhile (l := back)
      (p := fun q : Nat × Line => decide (depth < q.1))
    rwa [htake] at hsplit
  have hcut : (front ++ back).takeWhile (fun q => decide (depth < q.1)) =
        front.takeWhile (fun q => decide (depth < q.1)) ∧
      (front ++ back).dropWhile (fun q => decide (depth < q.1)) =
        front.dropWhile (fun q => decide (depth < q.1)) ++ back := by
    induction front with
    | nil => exact ⟨htake, hdrop⟩
    | cons p front ih =>
        by_cases hp : decide (depth < p.1) = true
        · simp only [List.cons_append, List.takeWhile_cons, List.dropWhile_cons, hp, if_true]
          exact ⟨congrArg _ ih.1, ih.2⟩
        · simp only [List.cons_append, List.takeWhile_cons, List.dropWhile_cons, hp]
          exact ⟨rfl, rfl⟩
  simp only [place, List.cons_append]
  rw [hcut.1, hcut.2]

/-- Lines that end in front of a line that is not deeper than any of them are nested on their
own. -/
theorem nestDepths_append (h : ∀ q ∈ back.head?, ∀ p ∈ front, q.1 ≤ p.1) :
    nestDepths (front ++ back) = nestDepths front ++ nestDepths back := by
  induction front with
  | nil => rfl
  | cons p front ih =>
      have ih := ih fun q hq p' hp' => h q hq p' (List.mem_cons_of_mem _ hp')
      rw [List.cons_append, nestDepths_cons, nestDepths_cons, ih]
      apply place_append
      cases back with
      | nil => exact fun q hq => absurd hq (by simp)
      | cons b back =>
          obtain ⟨k, hk⟩ := head?_nestDepths b back
          intro q hq
          rw [hk] at hq
          obtain rfl := Option.some.inj hq
          exact h b rfl p (List.mem_cons_self ..)

theorem nested_append (h : ∀ q ∈ back.head?, ∀ p ∈ front, q.1 ≤ p.1) :
    nested (front ++ back) = nested front ++ nested back := by
  rw [nested, nested, nested, ← List.map_append, nestDepths_append h]

/-- A line takes the deeper lines behind it along, nested on their own. -/
theorem nestDepths_cons_append (hdeeper : ∀ p ∈ deeper, depth < p.1)
    (hothers : ∀ q ∈ others.head?, q.1 ≤ depth) :
    nestDepths ((depth, l) :: (deeper ++ others)) =
      (depth, l.withChildren (nested deeper)) :: nestDepths others := by
  have hall : ∀ p ∈ nestDepths deeper, decide (depth < p.1) = true := by
    intro p hp
    obtain ⟨p', hp', heq⟩ := exists_of_mem_nestDepths hp
    rw [← heq]
    exact decide_eq_true (hdeeper p' hp')
  have hcut : nestDepths (deeper ++ others) = nestDepths deeper ++ nestDepths others :=
    nestDepths_append fun q hq p hp =>
      Nat.le_trans (hothers q hq) (Nat.le_of_lt (hdeeper p hp))
  have hhead : ∀ q ∈ (nestDepths others).head?, q.1 ≤ depth := by
    cases others with
    | nil => exact fun q hq => absurd hq (by simp)
    | cons b others =>
        obtain ⟨k, hk⟩ := head?_nestDepths b others
        intro q hq
        rw [hk] at hq
        obtain rfl := Option.some.inj hq
        exact hothers b rfl
  rw [nestDepths_cons, hcut, place_append l hhead]
  simp only [place]
  rw [List.takeWhile_eq_self_iff.2 hall, List.dropWhile_eq_nil_iff.2 hall]
  rfl

theorem startsWithClosing_eq_false {l : Line} (h : ')' ∉ l.sql) :
    l.startsWithClosing = false := by
  rw [startsWithClosing, beq_eq_false_iff_ne]
  intro hhead
  have hsub : (stripStart l.sql).Sublist l.sql := List.dropWhile_sublist _
  exact h (hsub.subset (List.mem_of_head? hhead))

/-- Lines of one depth are nested as they are. -/
theorem nested_of_level {depth : Nat} {ls : List Line} (h : ∀ l ∈ ls, l.block? = none) :
    nested (ls.map fun l => (depth, l)) = ls := by
  induction ls with
  | nil => rfl
  | cons l ls ih =>
      rw [List.forall_mem_cons] at h
      have hothers : ∀ q ∈ (ls.map fun l => (depth, l)).head?, q.1 ≤ depth := by
        intro q hq
        cases ls with
        | nil => exact absurd hq (by simp)
        | cons k ls =>
            obtain rfl := Option.some.inj hq
            exact Nat.le_refl _
      have hcut : nestDepths ((depth, l) :: ([] ++ ls.map fun l => (depth, l))) =
          (depth, l.withChildren (nested [])) :: nestDepths (ls.map fun l => (depth, l)) :=
        nestDepths_cons_append (by simp) hothers
      have hself : l.withChildren (nested []) = l := withChildren_nil h.1
      rw [List.nil_append, hself] at hcut
      rw [List.map_cons, nested, hcut, List.map_cons, ← nested, ih h.2]

theorem depths_of_level {depth before : Nat} {ls : List Line}
    (h : ∀ l ∈ ls, l.indent = depth ∧ l.startsWithClosing = false) :
    depths before ls = ls.map fun l => (depth, l) := by
  induction ls generalizing before with
  | nil => rfl
  | cons l ls ih =>
      rw [List.forall_mem_cons] at h
      rw [depths, h.1.1, h.1.2, ih h.2]
      rfl

/-- Blank lines behind others are dropped. -/
theorem nest_append_of_isBlank {ls blank : List Line} (h : ∀ l ∈ blank, l.isBlank = true) :
    nest (ls ++ blank) = nest ls := by
  have hgone : blank.filter (fun l => !l.isBlank) = [] := by
    rw [List.filter_eq_nil_iff]
    intro l hl
    rw [h l hl]
    simp
  rw [nest, nest, List.filter_append, hgone, List.append_nil]

/-- Lines of one depth below a line further to the left are nested under it. -/
theorem nest_of_level {depth : Nat} {first : Line} {ls : List Line} (hdepth : 0 < depth)
    (hfirst : first.indent = 0 ∧ first.startsWithClosing = false ∧ first.isBlank = false)
    (h : ∀ l ∈ ls, l.indent = depth ∧ l.startsWithClosing = false ∧ l.isBlank = false ∧
      l.block? = none) :
    nest (first :: ls) = [first.withChildren ls] := by
  have hnonblank : ls.filter (fun l => !l.isBlank) = ls := by
    rw [List.filter_eq_self]
    intro l hl
    rw [(h l hl).2.2.1]
    rfl
  have hfilter : (first :: ls).filter (fun l => !l.isBlank) = first :: ls := by
    rw [List.filter_cons_of_pos (by rw [hfirst.2.2]; rfl), hnonblank]
  have hdepths : depths 0 (first :: ls) = (0, first) :: (ls.map (fun l => (depth, l)) ++ []) := by
    rw [depths, hfirst.1, hfirst.2.1, depths_of_level fun l hl => ⟨(h l hl).1, (h l hl).2.1⟩,
      List.append_nil]
    rfl
  have hdeeper : ∀ p ∈ ls.map fun l => (depth, l), 0 < p.1 := by
    rw [List.forall_mem_map]
    exact fun _ _ => hdepth
  rw [nest_eq_nested, hfilter, hdepths, nested, nestDepths_cons_append hdeeper (by simp),
    nested_of_level fun l hl => (h l hl).2.2.2]
  rfl

end Line

end SqlTemplate
