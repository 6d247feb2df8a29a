import Mathlib.Data.List.Infix
import SqlTemplate.Proofs.Source.Uncommented

/-!
# Balanced texts

A text is scanned from left to right, one character after the other. `Scan` is all there is to know
about what was passed: whether it ends in a literal, in a line comment or in block comments, and where
these were opened. `Scan.meets` lists what is met: the parentheses outside of literals and comments,
the comments, and whatever is not in order about them.

A text is balanced if in front of any place no more parentheses are closed than opened, in the end as
many are closed as opened, and comments are neither closed outside of any nor left open. What is met
otherwise has exactly one first offence against that (`Offence.IsFirst.eq`), and reading it with a
stack of the parentheses that are open finds it (`firstOffence?_eq_none_iff`,
`isFirst_of_firstOffence?`).
-/

namespace SqlTemplate

/-- What the scan of a text meets, and the positions where it stands. -/
inductive Encounter where
  | opening (pos : Nat)
  | closing (pos : Nat)
  /-- A line comment. -/
  | remark (pos : Nat)
  /-- A block comment that is inside of no other one: where it begins and where its end does. -/
  | comment (start stop : Nat)
  /-- The end of a block comment outside of any. -/
  | strayComment (pos : Nat)
  /-- The innermost of the block comments that are open at the end of the text. -/
  | openComment (pos : Nat)
  /-- A literal that is open at the end of the text. -/
  | openLiteral
deriving DecidableEq, Repr

/-- Where in a text a character stands. -/
inductive Scan where
  /-- Outside of comments, in a literal with the given quote if there is one. -/
  | text (quote : Option Char)
  | remark
  /-- In block comments: where the innermost one was opened and where those around it were. -/
  | comment (inner : Nat) (outer : List Nat)

namespace Scan

/-- What is met in a text that begins at a position. -/
def meets : Scan → Nat → Text → List Encounter
  | .text none, _, [] => []
  | .text (some _), _, [] => [.openLiteral]
  | .remark, _, [] => []
  | .comment inner _, _, [] => [.openComment inner]
  | .text none, n, '/' :: '*' :: t => meets (.comment n []) (n + 2) t
  | .text none, n, '*' :: '/' :: t => .strayComment n :: meets (.text none) (n + 2) t
  | .text none, n, '-' :: '-' :: t => .remark n :: meets .remark (n + 2) t
  | .text none, n, '(' :: t => .opening n :: meets (.text none) (n + 1) t
  | .text none, n, ')' :: t => .closing n :: meets (.text none) (n + 1) t
  | .text quote, n, c :: t => meets (.text (toggle quote c)) (n + 1) t
  | .remark, n, c :: t => meets (if isLineBreak c then .text none else .remark) (n + 1) t
  | .comment inner [], n, '*' :: '/' :: t => .comment inner n :: meets (.text none) (n + 2) t
  | .comment _ (k :: outer), n, '*' :: '/' :: t => meets (.comment k outer) (n + 2) t
  | .comment inner outer, n, '/' :: '*' :: t => meets (.comment n (inner :: outer)) (n + 2) t
  | .comment inner outer, n, _ :: t => meets (.comment inner outer) (n + 1) t

end Scan

/-- What is met in a text. -/
def encounters (t : Text) : List Encounter := Scan.meets (.text none) 0 t

namespace Encounter

@[simp] def isOpening : Encounter → Bool
  | opening _ => true
  | _ => false

@[simp] def isClosing : Encounter → Bool
  | closing _ => true
  | _ => false

/-- What is met as long as everything is in order, if `depth` parentheses are open before it: there
may be parentheses that are yet to be closed. -/
structure InOrder (depth : Nat) (es : List Encounter) : Prop where
  noStray : ∀ pos, .strayComment pos ∉ es
  noOpen : ∀ pos, .openComment pos ∉ es
  /-- No parenthesis is closed where none is open. -/
  inFront : ∀ front, front <+: es →
    front.countP isClosing ≤ depth + front.countP isOpening

/-- What is met in a text whose comments and parentheses are balanced, if `depth` parentheses are
open before it. -/
structure Balanced (depth : Nat) (es : List Encounter) : Prop extends InOrder depth es where
  total : es.countP isClosing = depth + es.countP isOpening

variable {depth depth' : Nat} {e : Encounter} {es front back : List Encounter}

theorem inOrder_nil (depth : Nat) : InOrder depth [] := by
  refine ⟨fun _ => List.not_mem_nil, fun _ => List.not_mem_nil, ?_⟩
  intro front hfront
  rw [List.prefix_nil.1 hfront]
  exact Nat.zero_le _

/-- What is met first changes how many parentheses are open, and nothing else. -/
theorem inOrder_cons_iff (hstray : ∀ pos, e ≠ .strayComment pos)
    (hopen : ∀ pos, e ≠ .openComment pos)
    (hdepth : (depth + if e.isOpening then 1 else 0) = depth' + if e.isClosing then 1 else 0) :
    InOrder depth (e :: es) ↔ InOrder depth' es := by
  constructor
  · intro h
    refine ⟨fun pos hmem => h.noStray pos (List.mem_cons_of_mem _ hmem),
      fun pos hmem => h.noOpen pos (List.mem_cons_of_mem _ hmem), ?_⟩
    intro front hfront
    have hcounts := h.inFront (e :: front) ((List.prefix_cons_inj e).2 hfront)
    rw [List.countP_cons, List.countP_cons] at hcounts
    omega
  · intro h
    constructor
    · intro pos hmem
      rcases List.mem_cons.1 hmem with rfl | hmem
      · exact hstray pos rfl
      · exact h.noStray pos hmem
    · intro pos hmem
      rcases List.mem_cons.1 hmem with rfl | hmem
      · exact hopen pos rfl
      · exact h.noOpen pos hmem
    · intro front hfront
      rcases List.prefix_cons_iff.1 hfront with rfl | ⟨tail, rfl, htail⟩
      · exact Nat.zero_le _
      · have hcounts := h.inFront tail htail
        rw [List.countP_cons, List.countP_cons]
        omega

/-- The same number of parentheses is left open. -/
theorem total_cons_iff
    (hdepth : (depth + if e.isOpening then 1 else 0) = depth' + if e.isClosing then 1 else 0) :
    (e :: es).countP isClosing = depth + (e :: es).countP isOpening ↔
      es.countP isClosing = depth' + es.countP isOpening := by
  rw [List.countP_cons, List.countP_cons]
  omega

theorem open_eq_of_ne (hopening : ∀ pos, e ≠ .opening pos) (hclosing : ∀ pos, e ≠ .closing pos)
    (depth : Nat) :
    (depth + if e.isOpening then 1 else 0) = depth + if e.isClosing then 1 else 0 := by
  cases e with
  | opening pos => exact absurd rfl (hopening pos)
  | closing pos => exact absurd rfl (hclosing pos)
  | _ => rfl

theorem balanced_nil_iff : Balanced depth [] ↔ depth = 0 := by
  constructor
  · intro h
    exact h.total.symm
  · rintro rfl
    exact ⟨inOrder_nil 0, rfl⟩

theorem balanced_cons_iff (hstray : ∀ pos, e ≠ .strayComment pos)
    (hopen : ∀ pos, e ≠ .openComment pos)
    (hdepth : (depth + if e.isOpening then 1 else 0) = depth' + if e.isClosing then 1 else 0) :
    Balanced depth (e :: es) ↔ Balanced depth' es := by
  constructor
  · intro h
    exact ⟨(inOrder_cons_iff hstray hopen hdepth).1 h.toInOrder, (total_cons_iff hdepth).1 h.total⟩
  · intro h
    exact ⟨(inOrder_cons_iff hstray hopen hdepth).2 h.toInOrder, (total_cons_iff hdepth).2 h.total⟩

theorem not_inOrder_closing_cons (pos : Nat) : ¬InOrder 0 (.closing pos :: es) := by
  intro h
  exact absurd (h.inFront [.closing pos] ⟨es, rfl⟩) (by decide : ¬1 ≤ 0 + 0)

end Encounter

/-- The line of a text that a position is on. -/
def lineAt (t : Text) (pos : Nat) : Nat := 1 + lineEnds (t.take pos)

/-- What a text that is not balanced offends with, and where. -/
inductive Offence where
  | strayComment (pos : Nat)
  | strayParenthesis (pos : Nat)
  | openComment (pos : Nat)
  | openParenthesis (pos : Nat)
deriving DecidableEq, Repr

namespace Offence

open Encounter (isOpening isClosing)

/-- What is met where an offence is. -/
@[simp] def encounter : Offence → Encounter
  | strayComment pos => .strayComment pos
  | strayParenthesis pos => .closing pos
  | openComment pos => .openComment pos
  | openParenthesis pos => .opening pos

/-- An offence is the first one between what is met in front of it and what is met behind it, if
`depth` parentheses are open before all that. -/
structure Between (depth : Nat) (o : Offence) (front back : List Encounter) : Prop where
  inFront : Encounter.InOrder depth front
  /-- A parenthesis is closed too often where as many are closed as were opened. -/
  closed : ∀ pos, o = strayParenthesis pos →
    front.countP isClosing = depth + front.countP isOpening
  /-- A parenthesis is left open if what is behind it does without its end. It is the innermost such
  parenthesis, since nothing behind it is left open. -/
  opened : ∀ pos, o = openParenthesis pos → Encounter.Balanced 0 back

/-- The first offence that is met. -/
def IsFirst (o : Offence) (es : List Encounter) : Prop :=
  ∃ front back, es = front ++ o.encounter :: back ∧ o.Between 0 front back

variable {o o' : Offence} {depth depth' : Nat} {e : Encounter} {es front back : List Encounter}

theorem Between.cons (hstray : ∀ pos, e ≠ .strayComment pos) (hopen : ∀ pos, e ≠ .openComment pos)
    (hdepth : (depth + if e.isOpening then 1 else 0) = depth' + if e.isClosing then 1 else 0)
    (h : o.Between depth' front back) : o.Between depth (e :: front) back :=
  ⟨(Encounter.inOrder_cons_iff hstray hopen hdepth).2 h.inFront,
    fun pos ho => (Encounter.total_cons_iff hdepth).2 (h.closed pos ho), h.opened⟩

/-- With any offence but an open parenthesis there is no order any more, whatever follows. -/
theorem Between.not_inOrder (h : o.Between depth front back)
    (hopen : ∀ pos, o ≠ openParenthesis pos) (mid : List Encounter) :
    ¬Encounter.InOrder depth (front ++ o.encounter :: mid) := by
  intro horder
  have hmet : o.encounter ∈ front ++ o.encounter :: mid := by simp
  cases o with
  | strayComment pos => exact horder.noStray pos hmet
  | openComment pos => exact horder.noOpen pos hmet
  | openParenthesis pos => exact hopen pos rfl
  | strayParenthesis pos =>
      have hclosed : front.countP isClosing = depth + front.countP isOpening := h.closed pos rfl
      have hcounts := horder.inFront (front ++ [.closing pos]) ⟨mid, by simp⟩
      rw [List.countP_append, List.countP_append] at hcounts
      have hnext : front.countP isClosing + 1 ≤ depth + (front.countP isOpening + 0) := hcounts
      omega

theorem Between.not_balanced (h : o.Between depth front back) :
    ¬Encounter.Balanced depth (front ++ o.encounter :: back) := by
  intro hbalanced
  cases o with
  | openParenthesis pos =>
      have hfront : front.countP isClosing ≤ depth + front.countP isOpening :=
        h.inFront.inFront front List.prefix_rfl
      have hback : back.countP isClosing = 0 + back.countP isOpening := (h.opened pos rfl).total
      have htotal : front.countP isClosing + back.countP isClosing =
          depth + (front.countP isOpening + (back.countP isOpening + 1)) := by
        simpa [List.countP_cons] using hbalanced.total
      omega
  | _ => exact h.not_inOrder (by simp) back hbalanced.toInOrder

theorem IsFirst.not_balanced (h : o.IsFirst es) : ¬Encounter.Balanced 0 es := by
  obtain ⟨front, back, rfl, hbetween⟩ := h
  exact hbetween.not_balanced

/-- Behind the first offence no other one is the first. -/
theorem Between.not_between {mid : List Encounter}
    (h : o.Between depth front (mid ++ o'.encounter :: back)) :
    ¬o'.Between depth (front ++ o.encounter :: mid) back := by
  intro h'
  cases o with
  | openParenthesis pos =>
      have hopened := h.opened pos rfl
      have hmet' : o'.encounter ∈ mid ++ o'.encounter :: back := by simp
      -- What follows the parenthesis never closes it.
      have hmid : mid.countP isClosing ≤ 0 + mid.countP isOpening :=
        hopened.inFront mid (List.prefix_append ..)
      cases o' with
      | strayComment pos' => exact hopened.noStray pos' hmet'
      | openComment pos' => exact hopened.noOpen pos' hmet'
      | strayParenthesis pos' =>
          have hfront : front.countP isClosing ≤ depth + front.countP isOpening :=
            h.inFront.inFront front List.prefix_rfl
          have hclosed : front.countP isClosing + mid.countP isClosing =
              depth + (front.countP isOpening + (mid.countP isOpening + 1)) := by
            simpa [List.countP_cons] using h'.closed pos' rfl
          omega
      | openParenthesis pos' =>
          have htotal : mid.countP isClosing + back.countP isClosing =
              mid.countP isOpening + (back.countP isOpening + 1) := by
            simpa [List.countP_cons] using hopened.total
          have htotal' : back.countP isClosing = 0 + back.countP isOpening :=
            (h'.opened pos' rfl).total
          omega
  | _ => exact h.not_inOrder (by simp) mid h'.inFront

theorem encounter_injective : Function.Injective encounter := by
  intro o o' h
  cases o <;> cases o' <;> simp_all [encounter]

/-- There is at most one first offence. -/
theorem IsFirst.eq (h : o.IsFirst es) (h' : o'.IsFirst es) : o = o' := by
  obtain ⟨front, back, rfl, hbetween⟩ := h
  obtain ⟨front', back', hes, hbetween'⟩ := h'
  rcases List.append_eq_append_iff.1 hes with ⟨mid, rfl, hmid⟩ | ⟨mid, rfl, hmid⟩
  · cases mid with
    | nil => exact encounter_injective (List.cons.inj hmid).1
    | cons e mid =>
        obtain ⟨rfl, rfl⟩ := List.cons.inj hmid
        exact absurd hbetween' hbetween.not_between
  · cases mid with
    | nil => exact encounter_injective (List.cons.inj hmid).1.symm
    | cons e mid =>
        obtain ⟨rfl, rfl⟩ := List.cons.inj hmid
        exact absurd hbetween hbetween'.not_between

end Offence

/-- The first offence that is met, if the parentheses at the given positions are open before,
the innermost one first. A comment that is open at the end comes before a parenthesis that is. -/
def firstOffence? : List Nat → List Encounter → Option Offence
  | [], [] => none
  | pos :: _, [] => some (.openParenthesis pos)
  | opened, .opening pos :: es => firstOffence? (pos :: opened) es
  | opened, .closing pos :: es =>
    match opened with
    | [] => some (.strayParenthesis pos)
    | _ :: opened => firstOffence? opened es
  | _, .strayComment pos :: _ => some (.strayComment pos)
  | _, .openComment pos :: _ => some (.openComment pos)
  | opened, _ :: es => firstOffence? opened es

/-- There is an offence unless everything is balanced. -/
theorem firstOffence?_eq_none_iff {opened : List Nat} {es : List Encounter} :
    firstOffence? opened es = none ↔ Encounter.Balanced opened.length es := by
  fun_induction firstOffence? opened es with
  | case1 => simp [Encounter.balanced_nil_iff]
  | case2 pos opened => simp [Encounter.balanced_nil_iff]
  | case3 opened pos es ih =>
      rw [ih]
      exact (Encounter.balanced_cons_iff (by simp) (by simp) rfl).symm
  | case4 pos es =>
      simp only [reduceCtorEq, false_iff]
      exact fun h => Encounter.not_inOrder_closing_cons pos h.toInOrder
  | case5 pos es k opened ih =>
      rw [ih]
      exact (Encounter.balanced_cons_iff (by simp) (by simp) rfl).symm
  | case6 opened pos es =>
      simp only [reduceCtorEq, false_iff]
      exact fun h => h.noStray pos (List.mem_cons_self ..)
  | case7 opened pos es =>
      simp only [reduceCtorEq, false_iff]
      exact fun h => h.noOpen pos (List.mem_cons_self ..)
  | case8 opened e es hopening hclosing hstray hopen ih =>
      rw [ih]
      exact (Encounter.balanced_cons_iff hstray hopen
        (Encounter.open_eq_of_ne hopening hclosing _)).symm

/-- The offence that is found is the first one. It is met, or a parenthesis was open before. -/
theorem between_of_firstOffence? {opened : List Nat} {es : List Encounter} {o : Offence}
    (h : firstOffence? opened es = some o) :
    (∃ front back, es = front ++ o.encounter :: back ∧ o.Between opened.length front back) ∨
      ∃ above pos below, opened = above ++ pos :: below ∧ o = .openParenthesis pos ∧
        Encounter.Balanced above.length es := by
  fun_induction firstOffence? opened es with
  | case1 => simp at h
  | case2 pos opened =>
      exact .inr ⟨[], pos, opened, rfl, (Option.some.inj h).symm, Encounter.balanced_nil_iff.2 rfl⟩
  | case3 opened pos es ih =>
      rcases ih h with ⟨front, back, rfl, hb⟩ | ⟨above, k, below, hopened, rfl, hbalanced⟩
      · exact .inl ⟨.opening pos :: front, back, rfl, hb.cons (by simp) (by simp) rfl⟩
      · cases above with
        | nil =>
            obtain ⟨rfl, -⟩ := List.cons.inj hopened
            exact .inl ⟨[], es, rfl, Encounter.inOrder_nil _, by simp, fun _ _ => hbalanced⟩
        | cons k' above =>
            obtain ⟨-, rfl⟩ := List.cons.inj hopened
            exact .inr ⟨above, k, below, rfl, rfl,
              (Encounter.balanced_cons_iff (by simp) (by simp) rfl).2 hbalanced⟩
  | case4 pos es =>
      obtain rfl := Option.some.inj h
      exact .inl ⟨[], es, rfl, Encounter.inOrder_nil _, fun _ _ => rfl, by simp⟩
  | case5 pos es k opened ih =>
      rcases ih h with ⟨front, back, rfl, hb⟩ | ⟨above, k', below, rfl, rfl, hbalanced⟩
      · exact .inl ⟨.closing pos :: front, back, rfl, hb.cons (by simp) (by simp) rfl⟩
      · exact .inr ⟨k :: above, k', below, rfl, rfl,
          (Encounter.balanced_cons_iff (by simp) (by simp) rfl).2 hbalanced⟩
  | case6 opened pos es =>
      obtain rfl := Option.some.inj h
      exact .inl ⟨[], es, rfl, Encounter.inOrder_nil _, by simp, by simp⟩
  | case7 opened pos es =>
      obtain rfl := Option.some.inj h
      exact .inl ⟨[], es, rfl, Encounter.inOrder_nil _, by simp, by simp⟩
  | case8 opened e es hopening hclosing hstray hopen ih =>
      have hdepth := Encounter.open_eq_of_ne hopening hclosing
      rcases ih h with ⟨front, back, rfl, hb⟩ | ⟨above, k, below, rfl, rfl, hbalanced⟩
      · exact .inl ⟨e :: front, back, rfl, hb.cons hstray hopen (hdepth _)⟩
      · exact .inr ⟨above, k, below, rfl, rfl,
          (Encounter.balanced_cons_iff hstray hopen (hdepth _)).2 hbalanced⟩

theorem isFirst_of_firstOffence? {es : List Encounter} {o : Offence}
    (h : firstOffence? [] es = some o) : o.IsFirst es := by
  rcases between_of_firstOffence? h with hfirst | ⟨above, pos, below, hnil, -⟩
  · exact hfirst
  · simp at hnil

end SqlTemplate
