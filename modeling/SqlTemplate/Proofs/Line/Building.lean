import SqlTemplate.Proofs.Attempt
import SqlTemplate.Proofs.Line.Depths

/-!
# Nesting lines by descent

Lines can be nested by reading them once from the first to the last with a cursor that goes back
over a line which belongs elsewhere. `Line.buildRun` reads the lines of one block and calls itself
for a line further to the right, which begins a block below the last line read; a line further to
the left is given back and ends the block. `Line.build` starts again as long as lines are left.

`Line.build_eq_nest` says that this ends, that there always is a last line to put a block below, and
that the lines are nested as `Line.nest` nests them.
-/

namespace SqlTemplate

/-- A place in a list of lines. -/
structure LineCursor where
  lines : List Line
  pos : Nat

namespace LineCursor

/-- The cursor in front of the lines that are not blank. -/
def ofLines (lines : List Line) : LineCursor := ⟨lines.filter fun l => !l.isBlank, 0⟩

/-- The next line, with the cursor behind it. -/
def next (c : LineCursor) : Option Line × LineCursor :=
  match c.lines[c.pos]? with
  | some l => (some l, { c with pos := c.pos + 1 })
  | none => (none, c)

def back (c : LineCursor) : LineCursor := { c with pos := c.pos - 1 }

def isEnd (c : LineCursor) : Bool := c.lines.length ≤ c.pos

/-- The lines that are still to be read. -/
def rest (c : LineCursor) : List Line := c.lines.drop c.pos

theorem isEnd_iff {c : LineCursor} : c.isEnd = true ↔ c.rest = [] := by
  rw [isEnd, decide_eq_true_iff, rest, List.drop_eq_nil_iff]

theorem next_of_rest_eq_nil {c : LineCursor} (h : c.rest = []) : c.next = (none, c) := by
  rw [rest, List.drop_eq_nil_iff] at h
  rw [next, List.getElem?_eq_none h]

/-- Going back undoes reading a line. -/
theorem next_of_rest_eq_cons {c : LineCursor} {l : Line} {ls : List Line} (h : c.rest = l :: ls) :
    ∃ behind, c.next = (some l, behind) ∧ behind.rest = ls ∧ behind.back = c := by
  have hl : c.lines[c.pos]? = some l := by
    rw [← List.head?_drop, ← rest, h]
    rfl
  refine ⟨{ c with pos := c.pos + 1 }, by rw [next, hl], ?_, rfl⟩
  rw [rest, ← List.drop_drop, ← rest, h]
  rfl

end LineCursor

namespace Line

/-- A line of a block with the lines below it. -/
def close (l : Line) (children : List Line) : Line :=
  if children.isEmpty then l else l.withChildren children

def closeAll (entries : List (Line × List Line)) : List Line :=
  entries.map fun (l, children) => l.close children

/-- Reads a block whose first line stands at `indent`, if a line of it was read already: `entries`
are its lines so far, each with the lines below it. -/
def buildRun {ε : Type} (indent : Option Nat) (entries : List (Line × List Line))
    (c : LineCursor) : Attempt ε (List Line × LineCursor) := do
  match c.next with
  | (none, c) => return (closeAll entries, c)
  | (some l, c) =>
    let level := indent.getD l.indent
    if level < l.indent then
      match entries.getLast? with
      | none => .gap .noLine
      | some (last, children) =>
        let (more, c) ← (buildRun (c := c.back)) none []
        (buildRun (c := c)) (some level) (entries.dropLast ++ [(last, children ++ more)])
    else if l.indent < level ∧ l.startsWithClosing = false then
      return (closeAll entries, c.back)
    else (buildRun (c := c)) (some level) (entries ++ [(l, [])])
partial_fixpoint

/-- Reads blocks up to the end of the lines. -/
def buildAll {ε : Type} (read : List Line) (c : LineCursor) : Attempt ε (List Line) := do
  if c.isEnd then return read
  else
    let (more, c) ← buildRun none [] c
    (buildAll (c := c)) (read ++ more)
partial_fixpoint

/-- The lines nested by their indentation. -/
def build {ε : Type} (lines : List Line) : Attempt ε (List Line) :=
  buildAll [] (.ofLines lines)

section Steps

variable {ε : Type} {c : LineCursor} {k l : Line} {ks : List Line} {level : Nat}
  {entries : List (Line × List Line)} {children : List Line}

theorem buildRun_of_rest_eq_nil (h : c.rest = []) :
    (buildRun (some level) entries c : Attempt ε _) = pure (closeAll entries, c) := by
  rw [buildRun.eq_1, LineCursor.next_of_rest_eq_nil h]

/-- A block begins with the next line, whatever its indentation. -/
theorem buildRun_begin (h : c.rest = k :: ks) : ∃ behind : LineCursor, behind.rest = ks ∧
    (buildRun none [] c : Attempt ε _) = buildRun (some k.indent) [(k, [])] behind := by
  obtain ⟨behind, hnext, hrest, _⟩ := LineCursor.next_of_rest_eq_cons h
  refine ⟨behind, hrest, ?_⟩
  rw [buildRun.eq_1, hnext]
  simp only [Option.getD_none]
  rw [if_neg (Nat.lt_irrefl _), if_neg fun hlt => Nat.lt_irrefl _ hlt.1]
  rfl

/-- A line further to the right begins a block below the last line read. -/
theorem buildRun_deeper (h : c.rest = k :: ks) (hk : level < k.indent) :
    (buildRun (some level) (entries ++ [(l, children)]) c : Attempt ε _) =
      (buildRun none [] c >>= fun (more, c) =>
        buildRun (some level) (entries ++ [(l, children ++ more)]) c) := by
  obtain ⟨behind, hnext, _, hback⟩ := LineCursor.next_of_rest_eq_cons h
  rw [buildRun.eq_1, hnext]
  simp only [Option.getD_some, List.getLast?_concat, List.dropLast_concat]
  rw [if_pos hk, hback]

/-- A line further to the left ends the block. -/
theorem buildRun_shallower (h : c.rest = k :: ks) (hk : k.indent < level)
    (hclosing : k.startsWithClosing = false) :
    (buildRun (some level) entries c : Attempt ε _) = pure (closeAll entries, c) := by
  obtain ⟨behind, hnext, _, hback⟩ := LineCursor.next_of_rest_eq_cons h
  rw [buildRun.eq_1, hnext]
  simp only [Option.getD_some]
  rw [if_neg (Nat.lt_asymm hk), if_pos ⟨hk, hclosing⟩, hback]

/-- Any other line is the next line of the block. -/
theorem buildRun_level (entries : List (Line × List Line)) (h : c.rest = k :: ks)
    (hk : k.indent ≤ level)
    (hclosing : k.indent < level → k.startsWithClosing = true) :
    ∃ behind : LineCursor, behind.rest = ks ∧ (buildRun (some level) entries c : Attempt ε _) =
      buildRun (some level) (entries ++ [(k, [])]) behind := by
  obtain ⟨behind, hnext, hrest, _⟩ := LineCursor.next_of_rest_eq_cons h
  refine ⟨behind, hrest, ?_⟩
  rw [buildRun.eq_1, hnext]
  simp only [Option.getD_some]
  rw [if_neg (Nat.not_lt.2 hk), if_neg]
  rintro ⟨hlt, hfalse⟩
  rw [hclosing hlt] at hfalse
  exact Bool.noConfusion hfalse

end Steps

/-- How a run at the depth `level` cuts the lines: it takes `inner` and leaves `rest'`, which begins
with a line that no run at this depth can take. -/
structure Cut (level before : Nat) (rest : List Line) (inner : List (Nat × Line)) (before' : Nat)
    (rest' : List Line) : Prop where
  split : depths before rest = inner ++ depths before' rest'
  deep : ∀ p ∈ inner, level ≤ p.1
  shallow : ∀ q ∈ (depths before' rest').head?, q.1 < level ∧ q.2.startsWithClosing = false

namespace Cut

variable {level before before' : Nat} {rest rest' : List Line} {inner : List (Nat × Line)}

theorem eq_append (h : Cut level before rest inner before' rest') :
    rest = inner.map (·.2) ++ rest' := by
  rw [← map_snd_depths before rest, h.split, List.map_append, map_snd_depths]

theorem mem_of_mem (h : Cut level before rest inner before' rest') {l : Line} (hl : l ∈ rest') :
    l ∈ rest := by
  rw [h.eq_append]
  exact List.mem_append_right _ hl

theorem length_le (h : Cut level before rest inner before' rest') :
    rest'.length ≤ rest.length := by
  rw [h.eq_append, List.length_append]
  exact Nat.le_add_left ..

/-- What a run takes at its own depth: the line in front of what it takes after it. -/
theorem cons {k : Line} {ks : List Line} (h : Cut level level ks inner before' rest')
    (hk : depths before (k :: ks) = (level, k) :: depths level ks) :
    Cut level before (k :: ks) ((level, k) :: inner) before' rest' where
  split := by rw [hk, h.split]; rfl
  deep := List.forall_mem_cons.2 ⟨Nat.le_refl _, h.deep⟩
  shallow := h.shallow

/-- What a run takes: a block further to the right, and what it takes after it. -/
theorem append {right between : Nat} {middle : List Line} {block : List (Nat × Line)} {k : Line}
    {ks : List Line} (hblock : Cut right right ks block between middle)
    (h : Cut level between middle inner before' rest')
    (hk : depths before (k :: ks) = (right, k) :: depths right ks) (hle : level ≤ right) :
    Cut level before (k :: ks) ((right, k) :: (block ++ inner)) before' rest' where
  split := by rw [hk, hblock.split, h.split, List.cons_append, List.append_assoc]
  deep := by
    rw [List.forall_mem_cons, List.forall_mem_append]
    exact ⟨hle, fun p hp => Nat.le_trans hle (hblock.deep p hp), h.deep⟩
  shallow := h.shallow

end Cut

theorem head?_depths_cons (before : Nat) (k : Line) (ks : List Line) {q : Nat × Line}
    (hq : q ∈ (depths before (k :: ks)).head?) :
    q.2 = k ∧ q.1 = if k.startsWithClosing then max k.indent before else k.indent := by
  obtain rfl := Option.some.inj hq
  exact ⟨rfl, rfl⟩

/-- A closing line that follows a line of the depth `level` stands there unless it stands further to
the right. -/
theorem depths_cons_of_closing {before level : Nat} {k : Line} (ks : List Line)
    (hclosing : k.startsWithClosing = true → before = level) :
    (level < k.indent → depths before (k :: ks) = (k.indent, k) :: depths k.indent ks) ∧
      (k.indent ≤ level → (k.indent < level → k.startsWithClosing = true) →
        depths before (k :: ks) = (level, k) :: depths level ks) := by
  cases hk : k.startsWithClosing with
  | false =>
      refine ⟨fun _ => by simp [depths, hk], fun hle hlt => ?_⟩
      have heq : k.indent = level := by
        by_contra hne
        simpa [hk] using hlt (by omega)
      simp [depths, hk, heq]
  | true =>
      obtain rfl := hclosing hk
      refine ⟨fun hlt => ?_, fun hle _ => ?_⟩
      · simp [depths, hk, Nat.max_eq_left (Nat.le_of_lt hlt)]
      · simp [depths, hk, Nat.max_eq_right hle]

theorem nested_close {level : Nat} {l : Line} {below others : List (Nat × Line)}
    (hl : l.block? = none) (hbelow : ∀ p ∈ below, level < p.1)
    (hothers : ∀ q ∈ others.head?, q.1 ≤ level) :
    nested ((level, l) :: (below ++ others)) = l.close (nested below) :: nested others := by
  have hclose : l.withChildren (nested below) = l.close (nested below) := by
    unfold close
    split
    · rename_i hempty
      rw [List.isEmpty_iff.1 hempty, withChildren_nil hl]
    · rfl
  rw [nested, nestDepths_cons_append hbelow hothers, List.map_cons, hclose]
  rfl

/-- A run that stands behind a line `l` of its depth and the lines `below` it, with the flat lines
`rest` left: the next line is judged by the run itself, and a closing line still finds the depth of
the line that it closes. -/
structure Running (before level : Nat) (l : Line) (below : List (Nat × Line)) (rest : List Line) :
    Prop where
  flat : ∀ k ∈ l :: rest, k.block? = none
  deeper : ∀ p ∈ below, level < p.1
  next : ∀ q ∈ (depths before rest).head?,
    (∀ p ∈ below, q.1 ≤ p.1) ∧ (q.2.startsWithClosing = true → before = level)

/-- What such a run comes to: it takes lines up to one that belongs to none of its lines, and nests
them. -/
def Takes {ε : Type} (before level : Nat) (entries : List (Line × List Line)) (l : Line)
    (below : List (Nat × Line)) (rest : List Line) (a : Attempt ε (List Line × LineCursor)) : Prop :=
  a.Ends
    (fun p => ∃ inner before', Cut level before rest inner before' p.2.rest ∧
      p.1 = closeAll entries ++ nested ((level, l) :: (below ++ inner)))
    fun _ => False

namespace Running

variable {before level between : Nat} {k l : Line} {ks middle : List Line}
  {below block : List (Nat × Line)}

/-- A run that has just begun. -/
theorem start (hflat : ∀ j ∈ k :: ks, j.block? = none) : Running level level k [] ks where
  flat := hflat
  deeper := fun _ hp => absurd hp List.not_mem_nil
  next := fun _ _ => ⟨fun _ hp => absurd hp List.not_mem_nil, fun _ => rfl⟩

theorem behind (h : Running before level l below (k :: ks)) :
    ∀ j ∈ k :: ks, j.block? = none := fun j hj => h.flat j (List.mem_cons_of_mem _ hj)

/-- The run goes on behind a block that stands further to the right. -/
theorem append (h : Running before level l below (k :: ks)) (hk : level < k.indent)
    (hover : ∀ p ∈ below, k.indent ≤ p.1) (hblock : Cut k.indent k.indent ks block between middle) :
    Running between level l (below ++ (k.indent, k) :: block) middle where
  flat := List.forall_mem_cons.2 ⟨h.flat l (List.mem_cons_self ..), fun j hj =>
    h.behind j (List.mem_cons_of_mem _ (hblock.mem_of_mem hj))⟩
  deeper := by
    rw [List.forall_mem_append, List.forall_mem_cons]
    exact ⟨h.deeper, hk, fun p hp => Nat.lt_of_lt_of_le hk (hblock.deep p hp)⟩
  next := by
    intro q hq
    obtain ⟨hlt, hopen⟩ := hblock.shallow q hq
    refine ⟨?_, fun hclosed => by rw [hopen] at hclosed; exact Bool.noConfusion hclosed⟩
    rw [List.forall_mem_append, List.forall_mem_cons]
    exact ⟨fun p hp => Nat.le_trans (Nat.le_of_lt hlt) (hover p hp), Nat.le_of_lt hlt,
      fun p hp => Nat.le_trans (Nat.le_of_lt hlt) (hblock.deep p hp)⟩

theorem closeAll_concat (h : Running before level l below ks) (entries : List (Line × List Line))
    {others : List (Nat × Line)} (hothers : ∀ q ∈ others.head?, q.1 ≤ level) :
    closeAll (entries ++ [(l, nested below)]) ++ nested others =
      closeAll entries ++ nested ((level, l) :: (below ++ others)) := by
  rw [nested_close (h.flat l (List.mem_cons_self ..)) h.deeper hothers, closeAll, List.map_append,
    List.append_assoc]
  rfl

end Running

section Runs

variable {ε : Type} {before level : Nat} {entries : List (Line × List Line)} {k l : Line}
  {below : List (Nat × Line)} {c : LineCursor} {ks : List Line}

/-- Runs take what they take wherever less than `n` lines are left. -/
def TakesBelow (ε : Type) (n : Nat) : Prop :=
  ∀ (c : LineCursor) (before level : Nat) (entries : List (Line × List Line)) (l : Line)
    (below : List (Nat × Line)), c.rest.length < n → Running before level l below c.rest →
      Takes before level entries l below c.rest
        (buildRun (some level) (entries ++ [(l, nested below)]) c : Attempt ε _)

/-- A run ends in front of what belongs to none of its lines. -/
theorem takes_nothing (h : Running before level l below c.rest)
    (hnext : ∀ q ∈ (depths before c.rest).head?, q.1 < level ∧ q.2.startsWithClosing = false) :
    Takes before level entries l below c.rest
      (pure (closeAll (entries ++ [(l, nested below)]), c) : Attempt ε _) := by
  have hdone : closeAll (entries ++ [(l, nested below)]) ++ nested [] =
      closeAll entries ++ nested ((level, l) :: (below ++ [])) :=
    h.closeAll_concat entries fun q hq => absurd hq (by simp)
  exact ⟨[], before, ⟨rfl, by simp, hnext⟩, (List.append_nil _).symm.trans hdone⟩

/-- The block below a line ends in front of a line that the run has to judge again. -/
theorem takes_deeper (ih : TakesBelow ε (k :: ks).length) (h : Running before level l below (k :: ks))
    (hrest : c.rest = k :: ks) (hk : level < k.indent) :
    Takes before level entries l below (k :: ks)
      (buildRun (some level) (entries ++ [(l, nested below)]) c : Attempt ε _) := by
  have hdepth : depths before (k :: ks) = (k.indent, k) :: depths k.indent ks :=
    (depths_cons_of_closing ks (h.next _ rfl).2).1 hk
  have hover : ∀ p ∈ below, k.indent ≤ p.1 := (h.next (k.indent, k) (by rw [hdepth]; rfl)).1
  obtain ⟨behind, rfl, hbegin⟩ := buildRun_begin (ε := ε) hrest
  rw [buildRun_deeper hrest hk, hbegin]
  refine (ih behind k.indent k.indent [] k [] (Nat.lt_succ_self _) (.start h.behind)).bind ?_
  rintro ⟨more, middle⟩ ⟨block, between, hblock, rfl⟩
  have hgrow : nested below ++ (closeAll [] ++ nested ((k.indent, k) :: ([] ++ block))) =
      nested (below ++ (k.indent, k) :: block) := by
    rw [nested_append fun q hq => by
      obtain rfl := Option.some.inj hq
      exact hover]
    rfl
  simp only [hgrow]
  refine (ih middle between level entries l _ (Nat.lt_succ_of_le hblock.length_le)
    (h.append hk hover hblock)).mono ?_ fun _ he => he
  rintro ⟨out, c'⟩ ⟨inner, before', hcut, rfl⟩
  refine ⟨(k.indent, k) :: (block ++ inner), before', hblock.append hcut hdepth (Nat.le_of_lt hk), ?_⟩
  rw [List.append_assoc]
  rfl

/-- The next line of a run is the one that blocks stand below from then on. -/
theorem takes_level (ih : TakesBelow ε (k :: ks).length) (h : Running before level l below (k :: ks))
    (hrest : c.rest = k :: ks) (hk : k.indent ≤ level)
    (hclosing : k.indent < level → k.startsWithClosing = true) :
    Takes before level entries l below (k :: ks)
      (buildRun (some level) (entries ++ [(l, nested below)]) c : Attempt ε _) := by
  have hdepth : depths before (k :: ks) = (level, k) :: depths level ks :=
    (depths_cons_of_closing ks (h.next _ rfl).2).2 hk hclosing
  obtain ⟨behind, rfl, hlevel⟩ :=
    buildRun_level (ε := ε) (entries ++ [(l, nested below)]) hrest hk hclosing
  rw [hlevel]
  refine (ih behind level level _ k [] (Nat.lt_succ_self _) (.start h.behind)).mono ?_
    fun _ he => he
  rintro ⟨out, c'⟩ ⟨inner, before', hcut, rfl⟩
  refine ⟨(level, k) :: inner, before', hcut.cons hdepth, ?_⟩
  refine h.closeAll_concat entries fun q hq => ?_
  obtain rfl := Option.some.inj hq
  exact Nat.le_refl _

theorem takes_buildRun (h : Running before level l below c.rest) :
    Takes before level entries l below c.rest
      (buildRun (some level) (entries ++ [(l, nested below)]) c : Attempt ε _) := by
  obtain ⟨n, hn⟩ : ∃ n, c.rest.length = n := ⟨_, rfl⟩
  induction n using Nat.strong_induction_on generalizing c before level entries l below with
  | _ n ih =>
      have hbelow : TakesBelow ε n := fun _ _ _ _ _ _ hlt hrun => ih _ hlt hrun rfl
      cases hrest : c.rest with
      | nil =>
          rw [buildRun_of_rest_eq_nil hrest, ← hrest]
          exact takes_nothing h (by rw [hrest]; exact fun q hq => absurd hq (by simp [depths]))
      | cons k ks =>
          rw [hrest] at h hn
          subst hn
          rcases Nat.lt_or_ge level k.indent with hdeeper | hle
          · exact takes_deeper hbelow h hrest hdeeper
          · by_cases hend : k.indent < level ∧ k.startsWithClosing = false
            · rw [buildRun_shallower hrest hend.1 hend.2, ← hrest]
              rw [← hrest] at h
              refine takes_nothing h fun q hq => ?_
              rw [hrest] at hq
              obtain ⟨hq, hdepth⟩ := head?_depths_cons before k ks hq
              rw [hq, hdepth, hend.2]
              exact ⟨hend.1, rfl⟩
            · refine takes_level hbelow h hrest hle fun hlt => ?_
              by_contra hopen
              exact hend ⟨hlt, by simpa using hopen⟩

end Runs

/-- Blocks are read one after the other and nested on their own. -/
theorem ends_buildAll {ε : Type} (c : LineCursor) (before : Nat) (read : List Line)
    (hflat : ∀ k ∈ c.rest, k.block? = none)
    (hnext : ∀ q ∈ (depths before c.rest).head?, q.2.startsWithClosing = true → before = 0) :
    (buildAll read c : Attempt ε _).Ends (fun out => out = read ++ nested (depths before c.rest))
      fun _ => False := by
  obtain ⟨n, hn⟩ : ∃ n, c.rest.length = n := ⟨_, rfl⟩
  induction n using Nat.strong_induction_on generalizing c before read with
  | _ n ih =>
  rw [buildAll.eq_1]
  cases hrest : c.rest with
  | nil =>
      rw [if_pos (LineCursor.isEnd_iff.2 hrest)]
      exact (List.append_nil _).symm
  | cons k ks =>
      rw [hrest, List.forall_mem_cons] at hflat
      rw [hrest] at hnext hn
      have hk : depths before (k :: ks) = (k.indent, k) :: depths k.indent ks := by
        cases hclosing : k.startsWithClosing with
        | false => simp [depths, hclosing]
        | true =>
            have hzero : before = 0 := hnext _ rfl hclosing
            simp [depths, hclosing, hzero]
      obtain ⟨behind, hbehind, hbegin⟩ := buildRun_begin (ε := ε) hrest
      rw [if_neg fun hend => by simp [LineCursor.isEnd_iff.1 hend] at hrest, hbegin]
      subst hbehind
      have hrun : Running k.indent k.indent k [] behind.rest :=
        .start (List.forall_mem_cons.2 hflat)
      have htakes : Takes k.indent k.indent [] k [] behind.rest
          (buildRun (some k.indent) [(k, [])] behind : Attempt ε _) := takes_buildRun hrun
      refine htakes.bind ?_
      rintro ⟨more, after⟩ ⟨block, between, hblock, rfl⟩
      have hlen : after.rest.length < n := by
        rw [← hn]
        exact Nat.lt_succ_of_le hblock.length_le
      refine (ih _ hlen after between _ (fun j hj => hflat.2 j (hblock.mem_of_mem hj)) ?_ rfl).mono
        ?_ fun _ he => he
      · intro q hq hclosed
        rw [(hblock.shallow q hq).2] at hclosed
        exact Bool.noConfusion hclosed
      · rintro out rfl
        have hover : ∀ q ∈ (depths between after.rest).head?,
            ∀ p ∈ (k.indent, k) :: block, q.1 ≤ p.1 := by
          intro q hq
          have hlt := Nat.le_of_lt (hblock.shallow q hq).1
          exact List.forall_mem_cons.2 ⟨hlt, fun p hp => Nat.le_trans hlt (hblock.deep p hp)⟩
        have hcut : nested ((k.indent, k) :: (block ++ depths between after.rest)) =
            nested ((k.indent, k) :: block) ++ nested (depths between after.rest) :=
          nested_append hover
        rw [hk, hblock.split, List.append_assoc]
        exact congrArg (read ++ ·) hcut.symm

/-- Nesting flat lines by descent ends, and nests them as `nest` does. -/
theorem build_eq_nest {ε : Type} {lines : List Line} (h : ∀ l ∈ lines, l.block? = none) :
    (build lines : Attempt ε _) = pure (nest lines) := by
  have hall := ends_buildAll (ε := ε) (.ofLines lines) 0 []
    (fun k hk => h k (List.mem_filter.1 hk).1) fun _ _ _ => rfl
  rcases Attempt.ends_iff.1 hall with ⟨out, hout, rfl⟩ | ⟨_, _, hflaw⟩
  · exact hout
  · exact hflaw.elim

end Line

end SqlTemplate
