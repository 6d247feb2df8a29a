import SqlTemplate.Number.Shortest
import SqlTemplate.Text.Escaped
import SqlTemplate.Value.CellType

/-!
# Parameter values

A parameter is a single value or a sequence of values. Besides plain sequences there are columns and
cells of tables, which know their type. They stand for a list and for a single value: `resolve`
replaces them by what they stand for. A dictionary and a sequence of bytes are single values.

`items?` is the view of a sequence as the list of its elements, and `flatten` the list of values
that a parameter binds: a single value binds itself, a sequence its elements, and an element that is
a sequence of its own is replaced by its elements, once.
-/

namespace SqlTemplate

/-- What the library that columns come from writes of one, taken as it is given: the name of its
type, the column alone, and the column within another value. -/
structure ColumnText where
  typeName : Text
  plain : WideText
  display : Text
deriving DecidableEq, Repr

/-- The forms of sequences that hold their elements. A column is one piece or a row of chunks. -/
inductive SequenceForm where
  | list
  | tuple
  | set
  | frozenSet
  | column (type : CellType) (chunked : Bool) (written : ColumnText)
deriving DecidableEq, Repr

/-- A parameter value. -/
inductive Value where
  | null
  | bool (b : Bool)
  | int (i : Int)
  | float (x : Binary64)
  | text (t : WideText)
  | bytes (bs : List UInt8)
  | sequence (form : SequenceForm) (items : List Value)
  | range (start stop step : Int)
  | dictionary (entries : List (WideText × Value))
  | cell (type : CellType) (v : Value)
deriving Repr

instance : Inhabited Value := ⟨.null⟩

/-- How many numbers there are from `start` on in steps of `step` before `stop`. -/
def rangeLength (start stop step : Int) : Nat :=
  if 0 < step then ((stop - start + step - 1).fdiv step).toNat
  else if step < 0 then ((start - stop - step - 1).fdiv (-step)).toNat
  else 0

/-- The numbers from `start` on in steps of `step` before `stop`. -/
def rangeItems (start stop step : Int) : List Int :=
  (List.range (rangeLength start stop step)).map fun k : Nat => start + step * (k : Int)

namespace Value

/-- A column stands for the list of its values and a cell for its value. -/
def resolve : Value → Value
  | sequence (.column ..) items => sequence .list items
  | cell _ v => v
  | v => v

/-- The elements of a sequence, or nothing for a single value. -/
def items? : Value → Option (List Value)
  | sequence _ items => some items
  | range start stop step => some ((rangeItems start stop step).map int)
  | _ => none

/-- Whether a value is a sequence. A cell is none, even if it holds one. -/
def isSequence (v : Value) : Bool := v.items?.isSome

/-- What an element of a sequence binds: its own elements if it is a sequence, and itself
otherwise. -/
def flattenItem (v : Value) : List Value :=
  match v.resolve.items? with
  | some items => items.map resolve
  | none => [v.resolve]

/-- The values that a parameter binds, in order. -/
def flatten (v : Value) : List Value :=
  match v.resolve.items? with
  | some items => items.flatMap flattenItem
  | none => [v.resolve]

/-- Entries by key, of several with one key the last, at the place of the first. -/
def insertEntry {κ : Type} [DecidableEq κ] (entries : List (κ × Value)) (key : κ) (v : Value) :
    List (κ × Value) :=
  match entries with
  | [] => [(key, v)]
  | (k, w) :: rest => if k = key then (k, v) :: rest else (k, w) :: insertEntry rest key v

/-- The dictionary made of a sequence of entries. -/
def ofEntries (entries : List (WideText × Value)) : Value :=
  dictionary (entries.foldl (fun all (key, v) => insertEntry all key v) [])

@[simp] theorem resolve_cell (type : CellType) (v : Value) : (cell type v).resolve = v := rfl

@[simp] theorem resolve_column (type : CellType) (chunked : Bool) (written : ColumnText)
    (items : List Value) :
    (sequence (.column type chunked written) items).resolve = sequence .list items := rfl

@[simp] theorem items?_sequence (form : SequenceForm) (items : List Value) :
    (sequence form items).items? = some items := rfl

@[simp] theorem isSequence_sequence (form : SequenceForm) (items : List Value) :
    (sequence form items).isSequence = true := rfl

@[simp] theorem isSequence_range (start stop step : Int) :
    (range start stop step).isSequence = true := rfl

theorem flatten_of_items?_eq_none {v : Value} (h : v.resolve.items? = none) :
    v.flatten = [v.resolve] := by
  simp [flatten, h]

end Value

end SqlTemplate
