import SqlTemplate.Line.Basic
import SqlTemplate.Text.Keyword

/-!
# Marks

A bound value is never written into the statement: a question mark stands for it. `bind` writes the
marks that replace a sample value. `condition` writes a comparison with a count of values, which
becomes a membership test when there may be several: lists longer than a limit are split into
several tests of the same subject. A sample that holds several marks of its own is repeated for
every row of values instead.
-/

namespace SqlTemplate

namespace Marks

/-- The mark that stands for a value. -/
def mark : Char := '?'

/-- A count of marks, separated by commas. -/
def list (count : Nat) : Text := List.intercalate ", ".toList (List.replicate count [mark])

/-- The sample repeated so often that it holds a mark for every value. A sample with less than two
marks is no row, and rows must come out even. -/
def rows? (sample : Option Text) (count : Nat) : Option Text :=
  let row := sample.getD []
  let width := row.count mark
  if width < 2 ∨ count = 0 ∨ count % width ≠ 0 then none
  else some (List.intercalate ", ".toList (List.replicate (count / width) row))

def parenthesised (t : Text) : Text := '(' :: (t ++ [')'])

/-- The marks that replace a sample, in parentheses if the sample was. -/
def bind (count : Nat) (sample : Option Text) : Text :=
  match rows? sample count with
  | some rows => rows
  | none =>
    if (sample.getD []).head? = some '(' then parenthesised (list count) else list count

/-- The two tests of membership in a list. -/
inductive Membership where
  | isIn
  | isNotIn
deriving DecidableEq, Repr

namespace Membership

def operator : Membership → Text
  | isIn => "IN".toList
  | isNotIn => "NOT IN".toList

/-- What joins the tests of the parts of a list. -/
def joiner : Membership → Text
  | isIn => " OR ".toList
  | isNotIn => " AND ".toList

/-- An operator in capitals with single spaces. Only the letters of the two tests matter, and the
dotless `i` is one of them. -/
def normalize (operator : Text) : Text :=
  collapse (operator.map fun c => if c = 'ı' then 'I' else c.toUpper)

/-- The test of membership that an operator becomes for several values. -/
def ofOperator? (operator : Text) : Option Membership :=
  let normalized := normalize operator
  if normalized = "=".toList ∨ normalized = "IN".toList then some isIn
  else if normalized = "<>".toList ∨ normalized = "!=".toList ∨ normalized = "NOT IN".toList then
    some isNotIn
  else none

end Membership

/-- A list cannot be split into parts of no elements at all. -/
inductive LimitError where
  | zeroLimit
deriving DecidableEq, Repr

/-- The places where the parts of a list begin, from its start on in steps of `limit`. -/
def partStarts (limit count : Nat) : List Nat := List.range' 0 ((count + limit - 1) / limit) limit

/-- The sizes of the parts of a list: `limit` from the place where a part begins, or what is left. -/
def partSizes (limit count : Nat) : List Nat :=
  (partStarts limit count).map fun start => min limit (count - start)

/-- The parts that a list longer than the limit is split into. Below zero there are none. -/
def parts (limit : Int) (count : Nat) : Except LimitError (List Nat) :=
  match limit with
  | .ofNat 0 => .error .zeroLimit
  | .ofNat (n + 1) => .ok (partSizes (n + 1) count)
  | .negSucc _ => .ok []

/-- A test of membership in a list of the given text. -/
def test (subject : Text) (m : Membership) (inner : Text) : Text :=
  subject ++ ' ' :: m.operator ++ ' ' :: parenthesised inner

/-- A test of membership in a list of `count` values, split where it exceeds the limit. -/
def membership (subject : Text) (m : Membership) (count : Nat) (sample : Option Text)
    (limit : Int) : Except LimitError Text :=
  match rows? sample count with
  | some rows => .ok (test subject m rows)
  | none =>
    if (count : Int) ≤ limit then .ok (test subject m (list count))
    else
      match parts limit count with
      | .ok sizes =>
        .ok (parenthesised
          (List.intercalate m.joiner (sizes.map fun size => test subject m (list size))))
      | .error e => .error e

def single (c : Comparison) : Text := c.subject ++ ' ' :: c.operator ++ [' ', mark]

/-- A comparison with `count` values; `multi` says that they come from a sequence. -/
def condition (c : Comparison) (count : Nat) (multi : Bool) (sample : Option Text) (limit : Int) :
    Except LimitError Text :=
  if count = 1 ∧ multi = false then
    let normalized := Membership.normalize c.operator
    if normalized = "IN".toList ∨ normalized = "NOT IN".toList then
      .ok (c.subject ++ ' ' :: normalized ++ ' ' :: parenthesised [mark])
    else .ok (single c)
  else
    match Membership.ofOperator? c.operator with
    | some m => membership c.subject m count sample limit
    | none => .ok (parenthesised (List.intercalate " OR ".toList (List.replicate count (single c))))

@[simp] theorem list_zero : list 0 = [] := rfl

@[simp] theorem list_one : list 1 = [mark] := rfl

/-- Besides the parts that are full there is one more unless they come out even. -/
theorem partStarts_eq {limit : Nat} (hlimit : limit ≠ 0) (count : Nat) :
    partStarts limit count = List.range' 0 (count / limit) limit ++
      if count % limit = 0 then [] else [limit * (count / limit)] := by
  have hdivided := Nat.div_add_mod count limit
  have hmod := Nat.mod_lt count (Nat.pos_of_ne_zero hlimit)
  split
  · rename_i heven
    have hsplit : count + limit - 1 = limit * (count / limit) + (limit - 1) := by omega
    have hless : (limit - 1) / limit = 0 := Nat.div_eq_of_lt (by omega)
    rw [partStarts, hsplit, Nat.mul_add_div (by omega), hless, Nat.add_zero, List.append_nil]
  · rename_i hrest
    have hsplit : count + limit - 1 = limit * (count / limit + 1) + (count % limit - 1) := by
      rw [Nat.mul_add, Nat.mul_one]
      omega
    have hless : (count % limit - 1) / limit = 0 := Nat.div_eq_of_lt (by omega)
    rw [partStarts, hsplit, Nat.mul_add_div (by omega), hless, Nat.add_zero, List.range'_concat,
      Nat.zero_add]

/-- All parts are full except the last one, which is the rest. -/
theorem partSizes_eq_replicate_append {limit : Nat} (hlimit : limit ≠ 0) (count : Nat) :
    partSizes limit count =
      List.replicate (count / limit) limit ++
        if count % limit = 0 then [] else [count % limit] := by
  have hdivided := Nat.div_add_mod count limit
  have hmod := Nat.mod_lt count (Nat.pos_of_ne_zero hlimit)
  have hfull : (List.range' 0 (count / limit) limit).map (fun start => min limit (count - start)) =
      List.replicate (count / limit) limit := by
    rw [List.eq_replicate_iff, List.length_map, List.length_range']
    refine ⟨rfl, fun size hsize => ?_⟩
    obtain ⟨start, hstart, rfl⟩ := List.mem_map.1 hsize
    obtain ⟨i, hi, rfl⟩ := List.mem_range'.1 hstart
    have hroom := Nat.mul_le_mul_left limit (Nat.succ_le_of_lt hi)
    rw [Nat.mul_succ] at hroom
    omega
  rw [partSizes, partStarts_eq hlimit, List.map_append, hfull]
  split
  · rfl
  · have hlast : min limit (count - limit * (count / limit)) = count % limit := by omega
    rw [List.map_singleton, hlast]
theorem rows?_eq_some_iff {sample : Option Text} {count : Nat} {t : Text} :
    rows? sample count = some t ↔
      2 ≤ (sample.getD []).count mark ∧ count ≠ 0 ∧ (sample.getD []).count mark ∣ count ∧
        t = List.intercalate ", ".toList
          (List.replicate (count / (sample.getD []).count mark) (sample.getD [])) := by
  unfold rows?
  dsimp only
  split
  · rename_i h
    constructor
    · simp
    · rintro ⟨hwidth, hcount, heven, -⟩
      have := Nat.mod_eq_zero_of_dvd heven
      omega
  · rename_i h
    have heven : count % (sample.getD []).count mark = 0 := by omega
    constructor
    · intro ht
      exact ⟨by omega, by omega, Nat.dvd_of_mod_eq_zero heven, (Option.some.inj ht).symm⟩
    · rintro ⟨-, -, -, rfl⟩
      rfl

end Marks

end SqlTemplate
