import SqlTemplate.Value.Basic

/-!
# Equality of values

Two relations on values. `equal` compares by meaning: truth values count as the numbers one and
zero, numbers of both kinds are equal when they are the same number, sets and dictionaries are
compared without regard to order, and what is not a number equals nothing. `same` also asks for
values of one type, so that the number zero and the truth value `false` are different.
-/

namespace SqlTemplate

namespace Value

/-- The number that a value counts as. -/
inductive Numeral where
  | whole (i : Int)
  | binary (x : Binary64)

namespace Numeral

def equal : Numeral → Numeral → Bool
  | whole i, whole j => i == j
  | whole i, binary y => y.isInt i
  | binary x, whole j => x.isInt j
  | binary x, binary y => x.numEq y

end Numeral

/-- The number that a value counts as, if it does. -/
def numeral? : Value → Option Numeral
  | bool b => some (.whole (if b then 1 else 0))
  | int i => some (.whole i)
  | float x => some (.binary x)
  | _ => none

def entry? (entries : List (WideText × Value)) (key : WideText) : Option Value :=
  (entries.find? fun (k, _) => k == key).map (·.2)

/-- Whether two forms are the same, whatever is written of a column. -/
def sameForm : SequenceForm → SequenceForm → Bool
  | .column s cut _, .column t cut' _ => s == t && cut == cut'
  | f, g => f == g

/-- The types of values, as far as equality tells them apart. -/
def sameType : Value → Value → Bool
  | null, null => true
  | bool _, bool _ => true
  | int _, int _ => true
  | float _, float _ => true
  | text _, text _ => true
  | bytes _, bytes _ => true
  | sequence f _, sequence g _ => sameForm f g
  | range .., range .. => true
  | dictionary _, dictionary _ => true
  | cell s _, cell t _ => s == t
  | _, _ => false

/-- Whether elements of sequences of these forms are compared: sets of both kinds with each other,
and all other sequences with those of their form. -/
def comparable (f g : SequenceForm) : Bool :=
  sameForm f g || (f == .set && g == .frozenSet) || (f == .frozenSet && g == .set)

/-- Whether the elements of a sequence of this form have no order. -/
def unordered (f : SequenceForm) : Bool := f == .set || f == .frozenSet

mutual

/-- Equality by meaning. -/
def equal : Value → Value → Bool
  | null, w => sameType null w
  | text s, text t => s == t
  | bytes s, bytes t => s == t
  | sequence f xs, sequence g ys =>
    comparable f g &&
      if unordered f then xs.length == ys.length && allIn xs ys else equalAll xs ys
  | range a b c, range d e f => rangeItems a b c == rangeItems d e f
  | dictionary xs, dictionary ys => xs.length == ys.length && entriesIn xs ys
  | cell s v, cell t w => s == t && equal v w
  | v, w =>
    match v.numeral?, w.numeral? with
    | some m, some n => m.equal n
    | _, _ => false
termination_by structural v => v

/-- Equality of the elements one by one. -/
def equalAll : List Value → List Value → Bool
  | [], [] => true
  | x :: xs, y :: ys => equal x y && equalAll xs ys
  | _, _ => false
termination_by structural xs => xs

/-- Whether every element of the first list equals one of the second. -/
def allIn : List Value → List Value → Bool
  | [], _ => true
  | x :: xs, ys => ys.any (equal x ·) && allIn xs ys
termination_by structural xs => xs

/-- Whether every entry of the first list has an equal one in the second. -/
def entriesIn : List (WideText × Value) → List (WideText × Value) → Bool
  | [], _ => true
  | (k, v) :: xs, ys =>
    (match entry? ys k with
      | some w => equal v w
      | none => false) && entriesIn xs ys
termination_by structural xs => xs

end

/-- Equality of values of one type. -/
def same (v w : Value) : Bool := sameType v w && equal v w

/-- The elements of a set: of several equal ones the first. -/
def distinct (items : List Value) : List Value :=
  items.foldl (fun kept v => if kept.any (equal · v) then kept else kept ++ [v]) []

def ofElements (frozen : Bool) (items : List Value) : Value :=
  sequence (if frozen then .frozenSet else .set) (distinct items)

theorem same_null (v : Value) : same null v = true ↔ null = v := by
  cases v <;> simp [same, sameType, equal]

theorem same_bool (b : Bool) (v : Value) : same (bool b) v = true ↔ bool b = v := by
  cases v with
  | bool c => cases b <;> cases c <;> simp [same, sameType, equal, numeral?, Numeral.equal]
  | _ => simp [same, sameType]

theorem same_text (t : WideText) (v : Value) : same (text t) v = true ↔ text t = v := by
  cases v <;> simp [same, sameType, equal]

theorem same_int (i : Int) (v : Value) : same (int i) v = true ↔ int i = v := by
  cases v <;> simp [same, sameType, equal, numeral?, Numeral.equal]

end Value

end SqlTemplate
