import Mathlib.Data.List.Find
import Mathlib.Data.List.Nodup
import SqlTemplate.Proofs.Line.Building
import SqlTemplate.Proofs.Line.Forest

/-!
# Walking through nested lines

`Line.walkAll` visits the lines of a forest in pre-order, every line before the lines that belong to
it, and notes for each the place where it is met and the place of the line that it belongs to.
`Line.reference` says of flat lines with depths what these visits ought to be: the lines in their
order, each belonging to the last line before it that is less deep.

`Line.build_preorder` is the result: the forest that lines are built to is walked as the reference
says, whatever their depths are.
-/

namespace SqlTemplate

/-- A line met on a walk, with its place on the walk and the place of the line it belongs to. -/
structure Visit where
  parent : Option Nat
  place : Nat
  line : Line

/-- A visit without the lines that belong to the line. -/
def Visit.bare (v : Visit) : Visit := { v with line := v.line.withChildren [] }

mutual

/-- The walk through a line that is met at `place` and belongs to the line met at `parent`. -/
def Line.walk (parent : Option Nat) (place : Nat) : Line → List Visit
  | .mk sql first last splices block =>
      let below :=
        match block with
        | none => []
        | some children => Line.walkAll (some place) (place + 1) children
      ⟨parent, place, .mk sql first last splices block⟩ :: below

def Line.walkAll (parent : Option Nat) (place : Nat) : List Line → List Visit
  | [] => []
  | l :: ls =>
      Line.walk parent place l ++
        Line.walkAll parent (place + (Line.walk parent place l).length) ls

end

namespace Line

/-- The place of the last depth that is less than `depth`. -/
def lastBelow (depth : Nat) (seen : List Nat) : Option Nat :=
  (List.range seen.length).reverse.find? fun j => seen.getD j 0 < depth

/-- The visits of lines that follow lines of the depths `seen`, if every line belongs to the last
line before it that is less deep. -/
def reference (seen : List Nat) : List (Nat × Line) → List Visit
  | [] => []
  | (depth, l) :: rows =>
      ⟨lastBelow depth seen, seen.length, l⟩ :: reference (seen ++ [depth]) rows

theorem walk_eq_cons (parent : Option Nat) (place : Nat) (l : Line) :
    l.walk parent place = ⟨parent, place, l⟩ :: walkAll (some place) (place + 1) l.children := by
  cases l with
  | mk sql first last splices block => cases block <;> rfl

theorem lastBelow_concat (depth d : Nat) (seen : List Nat) :
    lastBelow depth (seen ++ [d]) =
      if d < depth then some seen.length else lastBelow depth seen := by
  have hlast : (seen ++ [d]).getD seen.length 0 = d := by simp
  have hrest : ∀ j ∈ (List.range seen.length).reverse,
      (decide ((seen ++ [d]).getD j 0 < depth)) = decide (seen.getD j 0 < depth) := by
    intro j hj
    rw [List.mem_reverse, List.mem_range] at hj
    rw [List.getD_eq_getElem?_getD, List.getElem?_append_left hj, ← List.getD_eq_getElem?_getD]
  rw [lastBelow, List.length_append, List.length_singleton, List.range_succ, List.reverse_append,
    List.reverse_singleton, List.singleton_append, List.find?_cons, hlast]
  by_cases hd : d < depth
  · simp [hd]
  · simp only [hd, decide_false, if_false]
    exact List.find?_congr hrest

theorem lastBelow_append {depth : Nat} {more : List Nat} (seen : List Nat)
    (h : ∀ d ∈ more, depth ≤ d) : lastBelow depth (seen ++ more) = lastBelow depth seen := by
  induction more generalizing seen with
  | nil => rw [List.append_nil]
  | cons d more ih =>
      rw [List.forall_mem_cons] at h
      rw [List.append_cons, ih _ h.2, lastBelow_concat, if_neg (Nat.not_lt.2 h.1)]

theorem reference_append (seen : List Nat) (rows others : List (Nat × Line)) :
    reference seen (rows ++ others) =
      reference seen rows ++ reference (seen ++ rows.map (·.1)) others := by
  induction rows generalizing seen with
  | nil => simp [reference]
  | cons p rows ih => simp [reference, ih]

theorem length_reference (seen : List Nat) (rows : List (Nat × Line)) :
    (reference seen rows).length = rows.length := by
  induction rows generalizing seen with
  | nil => rfl
  | cons p rows ih => simp [reference, ih]

/-- Lines behind a line are deeper up to the first one that is not. -/
theorem exists_cut (depth : Nat) (rows : List (Nat × Line)) :
    ∃ deeper others, rows = deeper ++ others ∧ (∀ p ∈ deeper, depth < p.1) ∧
      ∀ q ∈ others.head?, q.1 ≤ depth := by
  induction rows with
  | nil => exact ⟨[], [], rfl, by simp, by simp⟩
  | cons p rows ih =>
      rcases Nat.lt_or_ge depth p.1 with hp | hp
      · obtain ⟨deeper, others, rfl, hdeeper, hothers⟩ := ih
        exact ⟨p :: deeper, others, rfl, List.forall_mem_cons.2 ⟨hp, hdeeper⟩, hothers⟩
      · refine ⟨[], p :: rows, rfl, by simp, fun q hq => ?_⟩
        obtain rfl := Option.some.inj hq
        exact hp

/-- Induction over lines with depths: the first line, the deeper ones that follow it at once, and the
lines behind these. -/
@[elab_as_elim]
theorem cut_induction {motive : List (Nat × Line) → Prop} (rows : List (Nat × Line))
    (nil : motive [])
    (cons : ∀ depth l deeper others, (∀ p ∈ deeper, depth < p.1) →
      (∀ q ∈ others.head?, q.1 ≤ depth) → motive deeper → motive others →
      motive ((depth, l) :: (deeper ++ others))) : motive rows := by
  obtain ⟨n, hn⟩ : ∃ n, rows.length = n := ⟨_, rfl⟩
  induction n using Nat.strong_induction_on generalizing rows with
  | _ n ih =>
  cases rows with
  | nil => exact nil
  | cons p rows =>
      obtain ⟨deeper, others, rfl, hdeeper, hothers⟩ := exists_cut p.1 rows
      rw [List.length_cons, List.length_append] at hn
      exact cons p.1 p.2 deeper others hdeeper hothers (ih _ (by omega) deeper rfl)
        (ih _ (by omega) others rfl)

/-- Nested lines are walked as the reference says. `parent` is the line that they belong to, so the
last shallower line in front of them, for every line that is not deeper than the first one. -/
theorem bare_walkAll_nested (rows : List (Nat × Line)) (seen : List Nat) (parent : Option Nat)
    (hflat : ∀ p ∈ rows, p.2.block? = none)
    (hparent : ∀ q ∈ rows.head?, ∀ p ∈ rows, p.1 ≤ q.1 → lastBelow p.1 seen = parent) :
    (walkAll parent seen.length (nested rows)).map Visit.bare = reference seen rows := by
  induction rows using cut_induction generalizing seen parent with
  | nil => rfl
  | cons depth l deeper others hdeeper hothers ihdeeper ihothers =>
      rw [List.forall_mem_cons, List.forall_mem_append] at hflat
      obtain ⟨hl, hflatDeeper, hflatOthers⟩ := hflat
      have hown : lastBelow depth seen = parent :=
        hparent (depth, l) rfl (depth, l) (List.mem_cons_self ..) (Nat.le_refl _)
      have hbare : Visit.bare ⟨parent, seen.length, l.withChildren (nested deeper)⟩ =
          ⟨parent, seen.length, l⟩ := by
        rw [Visit.bare, withChildren_withChildren, withChildren_nil hl]
      have hbelow := ihdeeper (seen ++ [depth]) (some seen.length) hflatDeeper fun q hq p hp _ => by
        rw [lastBelow_concat, if_pos (hdeeper p hp)]
      have hafter := ihothers (seen ++ depth :: deeper.map (·.1)) parent hflatOthers
        fun q hq p hp hle => by
          have hdepth : p.1 ≤ depth := Nat.le_trans hle (hothers q hq)
          rw [lastBelow_append]
          · exact hparent (depth, l) rfl p
              (List.mem_cons_of_mem _ (List.mem_append_right _ hp)) hdepth
          · rw [List.forall_mem_cons, List.forall_mem_map]
            exact ⟨hdepth, fun p' hp' => Nat.le_trans hdepth (Nat.le_of_lt (hdeeper p' hp'))⟩
      rw [List.length_append, List.length_singleton] at hbelow
      have hlength : (walkAll (some seen.length) (seen.length + 1) (nested deeper)).length =
          deeper.length := by
        rw [← length_reference (seen ++ [depth]) deeper, ← hbelow, List.length_map]
      have hplace : (seen ++ depth :: deeper.map (·.1)).length =
          seen.length + (deeper.length + 1) := by
        simp
      rw [hplace] at hafter
      rw [nested, nestDepths_cons_append hdeeper hothers, List.map_cons, walkAll, walk_eq_cons,
        children_withChildren, List.length_cons, hlength, List.map_append, List.map_cons, hbelow,
        hbare]
      rw [← nested, hafter, reference, hown, reference_append, List.append_assoc]
      rfl

/-- No line that is met in nested lines has a block without lines. -/
theorem block?_ne_of_mem_walkAll_nested (rows : List (Nat × Line)) (parent : Option Nat)
    (place : Nat) : ∀ v ∈ walkAll parent place (nested rows), v.line.block? ≠ some [] := by
  induction rows using cut_induction generalizing parent place with
  | nil => exact List.forall_mem_nil _
  | cons depth l deeper others hdeeper hothers ihdeeper ihothers =>
      rw [nested, nestDepths_cons_append hdeeper hothers, List.map_cons, walkAll, walk_eq_cons,
        children_withChildren, List.forall_mem_append, List.forall_mem_cons, ← nested]
      exact ⟨⟨block?_withChildren_ne _ _, ihdeeper _ _⟩, ihothers _ _⟩

mutual

/-- The lines of a walk are met one after the other. -/
theorem places_walk (parent : Option Nat) (place : Nat) (l : Line) :
    (l.walk parent place).map Visit.place = List.range' place (l.walk parent place).length := by
  cases l with
  | mk sql first last splices block =>
      cases block with
      | none => rfl
      | some children =>
          rw [walk, List.map_cons, places_walkAll, List.length_cons, List.range'_succ]

theorem places_walkAll (parent : Option Nat) (place : Nat) (ls : List Line) :
    (walkAll parent place ls).map Visit.place =
      List.range' place (walkAll parent place ls).length := by
  cases ls with
  | nil => rfl
  | cons l ls =>
      rw [walkAll, List.map_append, places_walk, places_walkAll, List.length_append,
        List.range'_append_1]

end

/-- No two lines of a walk are met at one place. -/
theorem eq_of_place_eq {parent : Option Nat} {place : Nat} {ls : List Line} {v w : Visit}
    (hv : v ∈ walkAll parent place ls) (hw : w ∈ walkAll parent place ls)
    (h : v.place = w.place) : v = w := by
  have hnodup : ((walkAll parent place ls).map Visit.place).Nodup := by
    rw [places_walkAll]
    exact List.nodup_range' ..
  exact List.inj_on_of_nodup_map hnodup hv hw h

mutual

/-- A line that lines belong to is the parent of a line of its walk. -/
theorem exists_child_walk (parent : Option Nat) (place : Nat) (l : Line) {w : Visit}
    (hw : w ∈ l.walk parent place) (hc : w.line.children ≠ []) :
    ∃ v ∈ l.walk parent place, v.parent = some w.place := by
  cases l with
  | mk sql first last splices block =>
      rw [walk_eq_cons] at hw ⊢
      rcases List.mem_cons.1 hw with rfl | hw
      · obtain ⟨c, cs, hcs⟩ := List.exists_cons_of_ne_nil hc
        refine ⟨⟨some place, place + 1, c⟩, List.mem_cons_of_mem _ ?_, rfl⟩
        rw [hcs, walkAll, walk_eq_cons]
        exact List.mem_cons_self ..
      · cases block with
        | none => exact absurd hw List.not_mem_nil
        | some children =>
            obtain ⟨v, hv, heq⟩ := exists_child_walkAll (some place) (place + 1) children hw hc
            exact ⟨v, List.mem_cons_of_mem _ hv, heq⟩

theorem exists_child_walkAll (parent : Option Nat) (place : Nat) (ls : List Line) {w : Visit}
    (hw : w ∈ walkAll parent place ls) (hc : w.line.children ≠ []) :
    ∃ v ∈ walkAll parent place ls, v.parent = some w.place := by
  cases ls with
  | nil => exact absurd hw List.not_mem_nil
  | cons l ls =>
      rw [walkAll] at hw ⊢
      rcases List.mem_append.1 hw with hw | hw
      · obtain ⟨v, hv, heq⟩ := exists_child_walk parent place l hw hc
        exact ⟨v, List.mem_append_left _ hv, heq⟩
      · obtain ⟨v, hv, heq⟩ := exists_child_walkAll _ _ ls hw hc
        exact ⟨v, List.mem_append_right _ hv, heq⟩

end

mutual

/-- A line of a walk belongs to the parent of the walk or to a line of the walk that lines belong
to. -/
theorem exists_parent_walk (parent : Option Nat) (place : Nat) (l : Line) {v : Visit}
    (hv : v ∈ l.walk parent place) :
    v.parent = parent ∨
      ∃ w ∈ l.walk parent place, v.parent = some w.place ∧ w.line.children ≠ [] := by
  cases l with
  | mk sql first last splices block =>
      rw [walk_eq_cons] at hv ⊢
      rcases List.mem_cons.1 hv with rfl | hv
      · exact .inl rfl
      · right
        cases block with
        | none => exact absurd hv List.not_mem_nil
        | some children =>
            rcases exists_parent_walkAll (some place) (place + 1) children hv with
              heq | ⟨w, hw, heq⟩
            · refine ⟨_, List.mem_cons_self .., heq, ?_⟩
              rintro hnil
              rw [children_mk_some] at hnil
              subst hnil
              exact List.not_mem_nil hv
            · exact ⟨w, List.mem_cons_of_mem _ hw, heq⟩

theorem exists_parent_walkAll (parent : Option Nat) (place : Nat) (ls : List Line) {v : Visit}
    (hv : v ∈ walkAll parent place ls) :
    v.parent = parent ∨
      ∃ w ∈ walkAll parent place ls, v.parent = some w.place ∧ w.line.children ≠ [] := by
  cases ls with
  | nil => exact absurd hv List.not_mem_nil
  | cons l ls =>
      rw [walkAll] at hv ⊢
      rcases List.mem_append.1 hv with hv | hv
      · refine (exists_parent_walk parent place l hv).imp id ?_
        rintro ⟨w, hw, heq⟩
        exact ⟨w, List.mem_append_left _ hw, heq⟩
      · refine (exists_parent_walkAll parent _ ls hv).imp id ?_
        rintro ⟨w, hw, heq⟩
        exact ⟨w, List.mem_append_right _ hw, heq⟩

end

/-- In a forest, lines belong to a line just when the walk meets a line that belongs to it. -/
theorem children_ne_nil_iff {ls : List Line} {w : Visit} (hw : w ∈ walkAll none 0 ls) :
    w.line.children ≠ [] ↔ ∃ v ∈ walkAll none 0 ls, v.parent = some w.place := by
  constructor
  · exact exists_child_walkAll none 0 ls hw
  · rintro ⟨v, hv, heq⟩
    rcases exists_parent_walkAll none 0 ls hv with hnone | ⟨u, hu, hplace, hc⟩
    · rw [hnone] at heq
      exact absurd heq.symm (Option.some_ne_none _)
    · rw [heq] at hplace
      rwa [eq_of_place_eq hw hu (Option.some.inj hplace)]

/-- Building flat lines ends with a forest whose walk meets the lines that are not blank, in their
order and as they are, each belonging to the last line before it that is less deep, or to none. The
lines with a block are the parents of this walk, and every block has a line. -/
theorem build_preorder {ε : Type} {lines : List Line} (hflat : ∀ l ∈ lines, l.block? = none) :
    ∃ forest, (build lines : Attempt ε (List Line)) = pure forest ∧ nest lines = forest ∧
      (walkAll none 0 forest).map Visit.bare =
        reference [] (depths 0 (lines.filter fun l => !l.isBlank)) ∧
      ∀ v ∈ walkAll none 0 forest, v.line.block? ≠ some [] ∧
        (v.line.block?.isSome ↔ ∃ w ∈ walkAll none 0 forest, w.parent = some v.place) := by
  refine ⟨nest lines, build_eq_nest hflat, rfl, ?_, fun v hv => ?_⟩
  · rw [nest_eq_nested]
    refine bare_walkAll_nested _ [] none (fun p hp => ?_) fun _ _ _ _ _ => rfl
    have hmem : p.2 ∈ lines.filter fun l => !l.isBlank := by
      rw [← map_snd_depths 0 (lines.filter fun l => !l.isBlank)]
      exact List.mem_map_of_mem hp
    exact hflat p.2 (List.mem_filter.1 hmem).1
  · have hblock : v.line.block? ≠ some [] :=
      block?_ne_of_mem_walkAll_nested _ none 0 v (nest_eq_nested lines ▸ hv)
    exact ⟨hblock, (isSome_block?_iff hblock).trans (children_ne_nil_iff hv)⟩

/-- The lines of a subquery whose closing parenthesis stands further to the left than the line above
it. -/
def closingLines : List Line :=
  [.mk "a IN (".toList 1 1 [] none, .mk "  SELECT b".toList 2 2 [] none, .mk [] 3 3 [] none,
    .mk "    FROM t".toList 4 4 [] none, .mk " )".toList 5 5 [] none,
    .mk "ORDER BY a".toList 6 6 [] none]

theorem build_preorder_closingLines :
    (∀ l ∈ closingLines, l.block? = none) ∧
      ∃ forest, (build closingLines : Attempt Empty (List Line)) = pure forest ∧
        (walkAll none 0 forest).map (fun v => (v.parent, v.line.sql)) =
          [(none, "a IN (".toList), (some 0, "  SELECT b".toList), (some 1, "    FROM t".toList),
            (some 1, " )".toList), (none, "ORDER BY a".toList)] := by
  have hflat : ∀ l ∈ closingLines, l.block? = none := by
    intro l hl
    simp only [closingLines, List.mem_cons, List.not_mem_nil, or_false] at hl
    rcases hl with rfl | rfl | rfl | rfl | rfl | rfl <;> rfl
  obtain ⟨forest, hbuild, -, hwalk, -⟩ := build_preorder (ε := Empty) hflat
  refine ⟨hflat, forest, hbuild, ?_⟩
  have hbare : (walkAll none 0 forest).map (fun v => (v.parent, v.line.sql)) =
      ((walkAll none 0 forest).map Visit.bare).map fun v => (v.parent, v.line.sql) := by
    rw [List.map_map]
    refine List.map_congr_left fun v _ => ?_
    rw [Function.comp_apply, Visit.bare, sql_withChildren]
  rw [hbare, hwalk]
  decide +kernel

end Line

end SqlTemplate
