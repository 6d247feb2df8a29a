import SqlTemplate.Proofs.Directive.Subterms
import SqlTemplate.Template.Basic

/-!
# Lines at any depth

The lines of a template form a forest in two ways: further lines belong to a line because they are
indented more, and others stand in the parenthesised spans that are spliced into it. `Line.deep`
lists them all, a line before everything that hangs on it. `Line.blocks` lists the blocks of lines
that are rendered together.

Nesting by indentation is transparent to whatever is read off the lines from left to right
(`flatMap_nest`): the blank lines are gone, and the others are met in their order.
-/

namespace SqlTemplate

mutual

/-- A line, the lines in its spans and the lines that belong to it, at any depth. -/
def Line.deep : Line → List Line
  | .mk sql first last splices block =>
      let below :=
        match block with
        | none => []
        | some children => Line.deepAll children
      .mk sql first last splices block :: (Splice.deepAll splices ++ below)

def Splice.deepAll : List Splice → List Line
  | [] => []
  | .directive _ _ :: splices => Splice.deepAll splices
  | .group _ lines :: splices => Line.deepAll lines ++ Splice.deepAll splices

def Line.deepAll : List Line → List Line
  | [] => []
  | l :: ls => Line.deep l ++ Line.deepAll ls

end

mutual

/-- The blocks of lines that belong to a line or stand in its spans, at any depth. -/
def Line.blocks : Line → List (List Line)
  | .mk _ _ _ splices block =>
      let below :=
        match block with
        | none => []
        | some children => children :: Line.blocksAll children
      Splice.blocksAll splices ++ below

def Splice.blocksAll : List Splice → List (List Line)
  | [] => []
  | .directive _ _ :: splices => Splice.blocksAll splices
  | .group _ lines :: splices => lines :: Line.blocksAll lines ++ Splice.blocksAll splices

def Line.blocksAll : List Line → List (List Line)
  | [] => []
  | l :: ls => Line.blocks l ++ Line.blocksAll ls

end

namespace Line

theorem deepAll_eq_flatMap (ls : List Line) : deepAll ls = ls.flatMap deep := by
  induction ls with
  | nil => rfl
  | cons l ls ih => rw [deepAll, ih, List.flatMap_cons]

theorem deep_eq_cons (l : Line) :
    l.deep = l :: (Splice.deepAll l.splices ++ deepAll l.children) := by
  cases l with
  | mk sql first last splices block => cases block <;> rfl

theorem withChildren_withChildren (children others : List Line) (l : Line) :
    (l.withChildren others).withChildren children = l.withChildren children := by
  cases l
  rfl

end Line

theorem Splice.deepAll_append (splices others : List Splice) :
    deepAll (splices ++ others) = deepAll splices ++ deepAll others := by
  induction splices with
  | nil => rfl
  | cons s splices ih =>
      cases s with
      | directive offset d => exact ih
      | group offset lines => rw [List.cons_append, deepAll, deepAll, ih, List.append_assoc]

theorem Splice.deepAll_map_shift (delta : Nat) (splices : List Splice) :
    deepAll (splices.map (shift delta)) = deepAll splices := by
  induction splices with
  | nil => rfl
  | cons s splices ih =>
      cases s with
      | directive offset d => exact ih
      | group offset lines => rw [List.map_cons, shift, deepAll, deepAll, ih]

theorem Line.mem_deepAll_of_mem_deep {ls : List Line} {l k : Line} (hl : l ∈ ls)
    (hk : k ∈ l.deep) : k ∈ deepAll ls := by
  rw [deepAll_eq_flatMap]
  exact List.mem_flatMap.2 ⟨l, hl, hk⟩

theorem Line.mem_deep_self (l : Line) : l ∈ l.deep := by
  rw [deep_eq_cons]
  exact List.mem_cons_self ..

theorem Line.mem_deepAll_self {ls : List Line} {l : Line} (h : l ∈ ls) : l ∈ deepAll ls :=
  mem_deepAll_of_mem_deep h l.mem_deep_self

/-- The lines spliced into a line and the lines that belong to it hang on it. -/
theorem Line.mem_deep_of_mem {l k : Line}
    (h : k ∈ Splice.deepAll l.splices ∨ k ∈ deepAll l.children) : k ∈ l.deep := by
  rw [deep_eq_cons]
  exact List.mem_cons_of_mem _ (List.mem_append.2 h)

/-- The lines in a span are among the lines that are spliced in. -/
theorem Splice.mem_deepAll_of_group {splices : List Splice} {offset : Nat} {lines : List Line}
    {l : Line} (h : .group offset lines ∈ splices) (hl : l ∈ Line.deepAll lines) :
    l ∈ deepAll splices := by
  obtain ⟨before, after, rfl⟩ := List.mem_iff_append.1 h
  rw [deepAll_append, deepAll]
  exact List.mem_append_right _ (List.mem_append_left _ hl)

mutual

/-- What belongs to a line at some depth is found at some depth as well. -/
theorem Line.mem_deep_of_mem_children (root : Line) {l k : Line} (hl : l ∈ root.deep)
    (hk : k ∈ l.children) : k ∈ root.deep := by
  cases root with
  | mk sql first last splices block =>
      rw [Line.deep_eq_cons] at hl ⊢
      refine List.mem_cons_of_mem _ ?_
      rcases List.mem_cons.1 hl with rfl | hl
      · exact List.mem_append_right _ (Line.mem_deepAll_self hk)
      · rcases List.mem_append.1 hl with hl | hl
        · exact List.mem_append_left _ (Splice.mem_deepAll_of_mem_children splices hl hk)
        · cases block with
          | none => exact absurd hl List.not_mem_nil
          | some children =>
              exact List.mem_append_right _ (Line.mem_deepAll_of_mem_children children hl hk)

theorem Splice.mem_deepAll_of_mem_children (splices : List Splice) {l k : Line}
    (hl : l ∈ Splice.deepAll splices) (hk : k ∈ l.children) : k ∈ Splice.deepAll splices := by
  cases splices with
  | nil => exact absurd hl List.not_mem_nil
  | cons s splices =>
      cases s with
      | directive offset d => exact Splice.mem_deepAll_of_mem_children splices hl hk
      | group offset lines =>
          rw [Splice.deepAll] at hl ⊢
          rcases List.mem_append.1 hl with hl | hl
          · exact List.mem_append_left _ (Line.mem_deepAll_of_mem_children lines hl hk)
          · exact List.mem_append_right _ (Splice.mem_deepAll_of_mem_children splices hl hk)

theorem Line.mem_deepAll_of_mem_children (ls : List Line) {l k : Line} (hl : l ∈ Line.deepAll ls)
    (hk : k ∈ l.children) : k ∈ Line.deepAll ls := by
  cases ls with
  | nil => exact absurd hl List.not_mem_nil
  | cons root ls =>
      rw [Line.deepAll] at hl ⊢
      rcases List.mem_append.1 hl with hl | hl
      · exact List.mem_append_left _ (Line.mem_deep_of_mem_children root hl hk)
      · exact List.mem_append_right _ (Line.mem_deepAll_of_mem_children ls hl hk)

end

/-- The directives among splices and in the lines spliced in, at any depth. -/
def Splice.deepDirectives (splices : List Splice) : List Directive :=
  splices.filterMap Splice.directive? ++ (deepAll splices).flatMap Line.directives

/-- The directives of lines, at any depth. -/
def Line.deepDirectives (ls : List Line) : List Directive := (deepAll ls).flatMap directives

namespace Splice

theorem mem_deepDirectives_append {splices others : List Splice} {d : Directive} :
    d ∈ deepDirectives (splices ++ others) ↔
      d ∈ deepDirectives splices ∨ d ∈ deepDirectives others := by
  simp only [deepDirectives, deepAll_append, List.filterMap_append, List.flatMap_append,
    List.mem_append]
  constructor
  · rintro ((h | h) | (h | h))
    · exact .inl (.inl h)
    · exact .inr (.inl h)
    · exact .inl (.inr h)
    · exact .inr (.inr h)
  · rintro ((h | h) | (h | h))
    · exact .inl (.inl h)
    · exact .inr (.inl h)
    · exact .inl (.inr h)
    · exact .inr (.inr h)

theorem deepDirectives_map_shift (delta : Nat) (splices : List Splice) :
    deepDirectives (splices.map (shift delta)) = deepDirectives splices := by
  have hshift : (fun s : Splice => (s.shift delta).directive?) = directive? := by
    funext s
    cases s <;> rfl
  rw [deepDirectives, deepAll_map_shift, List.filterMap_map, Function.comp_def, hshift,
    deepDirectives]

variable {C : Directive → Prop} {splices : List Splice}

theorem forall_deepDirectives_directive {offset : Nat} {d : Directive} :
    (∀ x ∈ deepDirectives (.directive offset d :: splices), C x) ↔
      C d ∧ ∀ x ∈ deepDirectives splices, C x := by
  change (∀ x ∈ d :: deepDirectives splices, C x) ↔ _
  rw [List.forall_mem_cons]

theorem forall_deepDirectives_group {offset : Nat} {lines : List Line} :
    (∀ x ∈ deepDirectives (.group offset lines :: splices), C x) ↔
      (∀ x ∈ Line.deepDirectives lines, C x) ∧ ∀ x ∈ deepDirectives splices, C x := by
  have hsplit : [Splice.group offset lines] ++ splices = .group offset lines :: splices := rfl
  have hone : deepDirectives [Splice.group offset lines] = Line.deepDirectives lines := by
    simp only [deepDirectives, deepAll, List.append_nil]
    rfl
  rw [← hsplit, ← hone]
  constructor
  · intro h
    exact ⟨fun x hx => h x (mem_deepDirectives_append.2 (.inl hx)),
      fun x hx => h x (mem_deepDirectives_append.2 (.inr hx))⟩
  · rintro ⟨hl, hs⟩ x hx
    rcases mem_deepDirectives_append.1 hx with hx | hx
    · exact hl x hx
    · exact hs x hx

end Splice

theorem Line.forall_deepDirectives_cons {C : Directive → Prop} {l : Line} {ls : List Line} :
    (∀ x ∈ deepDirectives (l :: ls), C x) ↔
      ((∀ x ∈ Splice.deepDirectives l.splices, C x) ∧ ∀ x ∈ deepDirectives l.children, C x) ∧
        ∀ x ∈ deepDirectives ls, C x := by
  simp only [deepDirectives, Splice.deepDirectives, deepAll, deep_eq_cons, directives,
    List.flatMap_append, List.flatMap_cons, List.forall_mem_append, and_assoc]

namespace Template

def deepLines (t : Template) : List Line := Line.deepAll t.lines

def deepDirectives (t : Template) : List Directive := Line.deepDirectives t.lines

/-- The keys that a template refers to. -/
def keys (t : Template) : List Text := t.deepDirectives.flatMap fun d => d.expression.keys

/-- The literals in the directives of a template. -/
def literals (t : Template) : List Text := t.deepDirectives.flatMap fun d => d.expression.literals

def callees (t : Template) : List Text := t.deepDirectives.flatMap fun d => d.expression.callees

/-- All blocks of lines of a template, the template itself first. -/
def blocks (t : Template) : List (List Line) := t.lines :: Line.blocksAll t.lines

end Template

namespace Line

variable {β : Type}

theorem flatMap_nestDepths (f g : Line → List β)
    (hg : ∀ l, g l = f l ++ l.children.flatMap g) (hf : ∀ c l, f (l.withChildren c) = f l)
    (lines : List (Nat × Line)) :
    ((nestDepths lines).map (·.2)).flatMap g = (lines.map (·.2)).flatMap f := by
  induction lines with
  | nil => rfl
  | cons p lines ih =>
      obtain ⟨depth, l⟩ := p
      have hsplit : ((nestDepths lines).map (·.2)).flatMap g =
          (((nestDepths lines).takeWhile fun q => depth < q.1).map (·.2)).flatMap g ++
            (((nestDepths lines).dropWhile fun q => depth < q.1).map (·.2)).flatMap g := by
        rw [← List.flatMap_append, ← List.map_append, List.takeWhile_append_dropWhile]
      rw [nestDepths_cons, List.map_cons, List.flatMap_cons, ← ih, hsplit]
      simp only [place, List.map_cons, List.flatMap_cons]
      rw [hg, hf, children_withChildren, List.append_assoc]

/-- What is read off lines from left to right is read off the nested lines as well, except for the
blank ones. -/
theorem flatMap_nest (f g : Line → List β) (hg : ∀ l, g l = f l ++ l.children.flatMap g)
    (hf : ∀ c l, f (l.withChildren c) = f l) (lines : List Line) :
    (nest lines).flatMap g = (lines.filter fun l => !l.isBlank).flatMap f := by
  rw [nest, flatMap_nestDepths f g hg hf, map_snd_depths]

theorem forall_mem_deepAll_nestDepths {P : Line → Prop} {rows : List (Nat × Line)}
    (hself : ∀ p ∈ rows, ∀ children, P (p.2.withChildren children))
    (hsplices : ∀ p ∈ rows, ∀ m ∈ Splice.deepAll p.2.splices, P m) :
    ∀ l ∈ deepAll ((nestDepths rows).map (·.2)), P l := by
  induction rows with
  | nil => exact List.forall_mem_nil _
  | cons p rows ih =>
      obtain ⟨depth, k⟩ := p
      rw [List.forall_mem_cons] at hself hsplices
      have hrest : ∀ nested ⊆ nestDepths rows, ∀ l ∈ deepAll (nested.map (·.2)), P l := by
        intro nested hnested l hl
        rw [deepAll_eq_flatMap] at hl
        obtain ⟨m, hm, hl⟩ := List.mem_flatMap.1 hl
        exact ih hself.2 hsplices.2 l (mem_deepAll_of_mem_deep (List.map_subset _ hnested hm) hl)
      rw [nestDepths_cons, place, List.map_cons, deepAll, deep_eq_cons, children_withChildren,
        splices_withChildren, List.cons_append, List.forall_mem_cons, List.forall_mem_append,
        List.forall_mem_append]
      exact ⟨hself.1 _, ⟨hsplices.1, hrest _ (List.takeWhile_prefix _).subset⟩,
        hrest _ (List.dropWhile_suffix _).subset⟩

/-- What holds of the lines that are not blank whatever block they get, and of the lines in their
spans, holds of all lines that they are nested to. -/
theorem forall_mem_deepAll_nest {P : Line → Prop} {lines : List Line}
    (hself : ∀ k ∈ lines, k.isBlank = false → ∀ children, P (k.withChildren children))
    (hsplices : ∀ k ∈ lines, k.isBlank = false → ∀ m ∈ Splice.deepAll k.splices, P m) :
    ∀ l ∈ deepAll (nest lines), P l := by
  have hkept : ∀ p ∈ depths 0 (lines.filter fun l => !l.isBlank),
      p.2 ∈ lines ∧ p.2.isBlank = false := by
    intro p hp
    have hmem := List.mem_map_of_mem (f := (·.2)) hp
    rw [map_snd_depths, List.mem_filter] at hmem
    exact ⟨hmem.1, by simpa using hmem.2⟩
  exact forall_mem_deepAll_nestDepths (fun p hp => hself p.2 (hkept p hp).1 (hkept p hp).2)
    fun p hp => hsplices p.2 (hkept p hp).1 (hkept p hp).2

/-- Nesting changes nothing about lines but what belongs to them. -/
theorem exists_of_mem_deepAll_nest {lines : List Line} {l : Line}
    (h : l ∈ deepAll (nest lines)) :
    ∃ k ∈ lines, k.isBlank = false ∧
      ∃ m ∈ k :: Splice.deepAll k.splices, l.withChildren [] = m.withChildren [] := by
  revert l
  apply forall_mem_deepAll_nest
  · intro k hk hblank children
    exact ⟨k, hk, hblank, k, List.mem_cons_self .., withChildren_withChildren ..⟩
  · intro k hk hblank m hm
    exact ⟨k, hk, hblank, m, List.mem_cons_of_mem _ hm, rfl⟩

theorem deepDirectives_nest (lines : List Line) :
    deepDirectives (nest lines) =
      (lines.filter fun l => !l.isBlank).flatMap fun l => Splice.deepDirectives l.splices := by
  rw [deepDirectives, deepAll_eq_flatMap, List.flatMap_assoc]
  apply flatMap_nest
  · intro l
    rw [deep_eq_cons, deepAll_eq_flatMap, List.flatMap_cons, List.flatMap_append,
      List.flatMap_assoc, ← List.append_assoc]
    rfl
  · intro c l
    rw [splices_withChildren]

/-- The directives of nested lines are those of the flat ones. -/
theorem mem_deepDirectives_nest_iff {lines : List Line} {d : Directive} :
    d ∈ deepDirectives (nest lines) ↔ ∃ l ∈ lines, d ∈ Splice.deepDirectives l.splices := by
  rw [deepDirectives_nest, List.mem_flatMap]
  constructor
  · rintro ⟨l, hl, hd⟩
    exact ⟨l, (List.mem_filter.1 hl).1, hd⟩
  · rintro ⟨l, hl, hd⟩
    refine ⟨l, List.mem_filter.2 ⟨hl, ?_⟩, hd⟩
    cases hsplices : l.splices with
    | nil =>
        rw [hsplices] at hd
        exact absurd hd List.not_mem_nil
    | cons s splices => simp [isBlank, hsplices]

end Line

end SqlTemplate
