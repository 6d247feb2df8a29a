import Mathlib.Algebra.Order.Ring.Int
import Mathlib.Data.List.Basic
import SqlTemplate.Value.Display

/-!
# Values that cannot be written

A whole number is written unless it has more digits than the runtime allows, which the numbers from
`10 ^ digitLimit` on have if there is a limit (`write?_eq_none_iff`). `Value.numbers` lists the whole
numbers that are written with a value, at any depth, and a value cannot be written just when one of them
is too long (`plain?_eq_none_iff`).

`WideText.joined?` writes elements one behind the other. It gives nothing just when one of them cannot
be written, and it may be taken apart where the list of elements is put together.
-/

namespace SqlTemplate

namespace Decimal

variable [Runtime]

/-- A whole number with more digits than are written. -/
def TooLong (i : Int) : Prop := Runtime.digitLimit ≠ 0 ∧ 10 ^ Runtime.digitLimit ≤ i.natAbs

theorem write?_eq_none_iff {i : Int} : write? i = none ↔ TooLong i := by
  have hover : overLimit (ofNat i.natAbs).length = true ↔ TooLong i := by
    rw [overLimit, TooLong, Bool.and_eq_true, bne_iff_ne, decide_eq_true_iff]
    refine and_congr_right fun hlimit => ?_
    have hlength : (ofNat i.natAbs).length ≤ Runtime.digitLimit ↔
        i.natAbs < 10 ^ Runtime.digitLimit :=
      Nat.length_toDigits_le_iff (by decide) (Nat.pos_of_ne_zero hlimit)
    rw [← Nat.not_lt, ← hlength, Nat.not_le]
  rw [write?, ← hover]
  split
  · rename_i h
    exact iff_of_true rfl h
  · rename_i h
    exact iff_of_false (Option.some_ne_none _) h

/-- The least number that is too long where digits are limited, a one with zeros behind it. -/
def leastTooLong : Int := 10 ^ Runtime.digitLimit

theorem tooLong_leastTooLong (h : Runtime.digitLimit ≠ 0) : TooLong leastTooLong := by
  have hbase : (10 : Int).natAbs = 10 := rfl
  rw [TooLong, leastTooLong, Int.natAbs_pow, hbase]
  exact ⟨h, Nat.le_refl _⟩

end Decimal

namespace WideText

variable {α β : Type} {write? write?' : α → Option WideText} {as : List α}

@[simp] theorem joined?_nil (write? : α → Option WideText) : joined? write? [] = some [] := rfl

theorem joined?_cons (write? : α → Option WideText) (a : α) (as : List α) :
    joined? write? (a :: as) =
      (write? a).bind fun t => (joined? write? as).map fun rest => t ++ rest := by
  rw [joined?]
  cases write? a with
  | none => rfl
  | some t => cases joined? write? as <;> rfl

theorem joined?_singleton (write? : α → Option WideText) (a : α) :
    joined? write? [a] = write? a := by
  rw [joined?_cons]
  cases write? a with
  | none => rfl
  | some t => exact congrArg some (List.append_nil t)

/-- Elements cannot be written one behind the other just when one of them cannot be written. -/
theorem joined?_eq_none_iff : joined? write? as = none ↔ ∃ a ∈ as, write? a = none := by
  induction as with
  | nil => simp
  | cons a as ih =>
    rw [joined?_cons, List.exists_mem_cons_iff, ← ih]
    cases write? a with
    | none => simp
    | some t => simp

theorem joined?_append (write? : α → Option WideText) (as bs : List α) :
    joined? write? (as ++ bs) =
      (joined? write? as).bind fun s => (joined? write? bs).map fun t => s ++ t := by
  induction as with
  | nil => cases h : joined? write? bs <;> simp [h]
  | cons a as ih =>
    rw [List.cons_append, joined?_cons, joined?_cons, ih]
    cases write? a with
    | none => rfl
    | some s =>
      cases joined? write? as with
      | none => rfl
      | some t =>
        cases joined? write? bs with
        | none => rfl
        | some u => exact congrArg some (List.append_assoc s t u).symm

/-- It does not matter whether elements are written at once or in groups. -/
theorem joined?_flatMap (write? : β → Option WideText) (f : α → List β) (as : List α) :
    joined? write? (as.flatMap f) = joined? (fun a => joined? write? (f a)) as := by
  induction as with
  | nil => rfl
  | cons a as ih => rw [List.flatMap_cons, joined?_append, joined?_cons, ih]

theorem joined?_map (write? : β → Option WideText) (f : α → β) (as : List α) :
    joined? write? (as.map f) = joined? (fun a => write? (f a)) as := by
  induction as with
  | nil => rfl
  | cons a as ih => rw [List.map_cons, joined?_cons, joined?_cons, ih]

theorem joined?_congr (h : ∀ a ∈ as, write? a = write?' a) :
    joined? write? as = joined? write?' as := by
  induction as with
  | nil => rfl
  | cons a as ih =>
    obtain ⟨ha, has⟩ := List.forall_mem_cons.1 h
    rw [joined?_cons, joined?_cons, ha, ih has]

end WideText

namespace Value

variable [Runtime]

mutual

/-- The whole numbers that are written with a value. -/
def numbers : Value → List Int
  | int i => [i]
  | sequence (.column ..) _ => []
  | sequence _ items => numbersAll items
  | range start stop step => rangeNumbers start stop step
  | dictionary entries => numbersEntries entries
  | cell _ v => numbers v
  | _ => []

def numbersAll : List Value → List Int
  | [] => []
  | v :: vs => numbers v ++ numbersAll vs

def numbersEntries : List (WideText × Value) → List Int
  | [] => []
  | (_, v) :: entries => numbers v ++ numbersEntries entries

end

theorem mapM_write?_eq_none_iff {is : List Int} :
    is.mapM Decimal.write? = none ↔ ∃ i ∈ is, Decimal.TooLong i := by
  induction is with
  | nil => simp
  | cons i is ih =>
    rw [List.mapM_cons, List.exists_mem_cons_iff, ← ih, ← Decimal.write?_eq_none_iff]
    cases Decimal.write? i with
    | none => simp
    | some t => cases is.mapM Decimal.write? <;> simp

mutual

/-- A value cannot be displayed just when a whole number in it is too long. -/
theorem display?_eq_none_iff (v : Value) :
    v.display? = none ↔ ∃ i ∈ v.numbers, Decimal.TooLong i := by
  match v with
  | int i => simp [display?, numbers, Decimal.write?_eq_none_iff]
  | sequence (.column _ _ written) _ => simp [display?, numbers]
  | sequence .list items => simp [display?, numbers, displayAll?_eq_none_iff items]
  | sequence .tuple items => simp [display?, numbers, displayAll?_eq_none_iff items]
  | sequence .set items => simp [display?, numbers, displayAll?_eq_none_iff items]
  | sequence .frozenSet items => simp [display?, numbers, displayAll?_eq_none_iff items]
  | range start stop step =>
    rw [display?, displayRange?, numbers, ← mapM_write?_eq_none_iff]
    cases (rangeNumbers start stop step).mapM Decimal.write? <;> simp
  | dictionary entries => simp [display?, numbers, displayEntries?_eq_none_iff entries]
  | cell type w => simp [display?, numbers, display?_eq_none_iff w]
  | null => simp [display?, numbers]
  | bool b => simp [display?, numbers]
  | float x => simp [display?, numbers]
  | text t => simp [display?, numbers]
  | bytes bs => simp [display?, numbers]

theorem displayAll?_eq_none_iff (vs : List Value) :
    displayAll? vs = none ↔ ∃ i ∈ numbersAll vs, Decimal.TooLong i := by
  match vs with
  | [] => simp [displayAll?, numbersAll]
  | v :: vs =>
    simp only [displayAll?, numbersAll, List.mem_append, or_and_right, exists_or,
      ← display?_eq_none_iff v, ← displayAll?_eq_none_iff vs]
    cases v.display? with
    | none => simp
    | some t => cases displayAll? vs <;> simp

theorem displayEntries?_eq_none_iff (entries : List (WideText × Value)) :
    displayEntries? entries = none ↔ ∃ i ∈ numbersEntries entries, Decimal.TooLong i := by
  match entries with
  | [] => simp [displayEntries?, numbersEntries]
  | (k, v) :: entries =>
    simp only [displayEntries?, numbersEntries, List.mem_append, or_and_right, exists_or,
      ← display?_eq_none_iff v, ← displayEntries?_eq_none_iff entries]
    cases v.display? with
    | none => simp
    | some t => cases displayEntries? entries <;> simp

end

/-- A value cannot be written just when a whole number in it is too long. -/
theorem plain?_eq_none_iff (v : Value) :
    v.plain? = none ↔ ∃ i ∈ v.numbers, Decimal.TooLong i := by
  induction v using plain?.induct with
  | case1 t => simp [plain?, numbers]
  | case2 type v ih => rw [plain?, numbers, ih]
  | case3 type chunked written items => simp [plain?, numbers]
  | case4 v htext hcell hcolumn =>
    have hplain : v.plain? = v.display?.map .ofText := by
      unfold plain?
      split
      · exact absurd rfl (htext _)
      · exact absurd rfl (hcell _ _)
      · exact absurd rfl (hcolumn _ _ _ _)
      · rfl
    rw [hplain, Option.map_eq_none_iff, display?_eq_none_iff]

end Value

end SqlTemplate
