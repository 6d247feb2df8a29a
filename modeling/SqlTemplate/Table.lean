import SqlTemplate.Value.Display

/-!
# Tables

Values are shown in a table of columns, each as wide as its widest cell. Cells show numbers with two
places and cut long texts off, and a table shows only so many rows and says how many more there are.
There is no table for a value that cannot be written, and none of texts that cannot be encoded.
-/

namespace SqlTemplate

/-- A named column of values. -/
structure Column where
  name : Text
  values : List Value
deriving Repr

/-- Why there is no table of some values. -/
inductive TableError where
  /-- A whole number has too many digits to be written. -/
  | tooManyDigits
  | unencodable (l : LoneHalves)
deriving DecidableEq, Repr

namespace TableError

def message [Runtime] : TableError → Text
  | tooManyDigits => Decimal.limitMessage []
  | unencodable l => l.message

end TableError

namespace Table

/-- The longest text that a cell shows in full. -/
def cellLimit : Nat := 30

/-- A text cut off to the width of a cell. -/
def shorten (t : WideText) : WideText :=
  if cellLimit < t.length then t.take (cellLimit - 3) ++ .ofText "...".toList else t

/-- A value as its cell shows it. -/
def cell [Runtime] : Value → Except TableError WideText
  | .null => .ok (.ofText "NULL".toList)
  | .bool b => .ok (.ofText (if b then "true" else "false").toList)
  | .float x => .ok (.ofText (x.fixed 2))
  | v =>
    match v.plain? with
    | some t => .ok (shorten t)
    | none => .error .tooManyDigits

/-- A text filled up to a width. -/
def fill (width : Nat) (filler : Char) (t : Text) : Text :=
  t ++ List.replicate (width - t.length) filler

/-- A row of a table: cells of the given widths with bars between. -/
def row (filler : Char) (widths : List Nat) (cells : List Text) : Text :=
  let filled := List.zipWith (fun width t => fill width filler t) widths cells
  stripEnd (List.intercalate " | ".toList filled)

/-- The width of a column, which is at least two. -/
def width (name : Text) (cells : List Text) : Nat :=
  cells.foldl (fun width t => max width t.length) (max name.length 2)

def height (columns : List Column) : Nat := ((columns.head?.map fun c => c.values.length).getD 0)

/-- The values of the column with a name, of several the last one. -/
def valuesOf (columns : List Column) (name : Text) : List Value :=
  ((columns.reverse.find? fun c => c.name == name).map Column.values).getD []

/-- The cells of a column that a table of so many rows shows. -/
def cells [Runtime] (columns : List Column) (shown : Nat) (name : Text) :
    Except TableError (List Text) :=
  ((valuesOf columns name).take shown).mapM fun v => do return WideText.legible (← cell v)

/-- A table of at most `maxRows` rows. -/
def render [Runtime] (columns : List Column) (maxRows : Nat) : Except TableError Text := do
  let names := columns.map Column.name
  let shown := min maxRows (height columns)
  let cells ← names.mapM (cells columns shown)
  let widths := List.zipWith width names cells
  let rows := (List.range shown).map fun k => cells.map fun column => column.getD k []
  let header := row ' ' widths names
  let rule := row '-' widths (names.map fun _ => ['-'])
  let hidden := height columns - maxRows
  return List.intercalate ['\n'] (header :: rule :: rows.map (row ' ' widths)) ++
    if hidden = 0 then []
    else "\n... and ".toList ++ Decimal.ofNat hidden ++ " more values".toList

/-- A column of texts; all of them have to be encoded. -/
def textColumn (name : Text) (texts : List WideText) : Except TableError Column :=
  match texts.findSome? (WideText.loneHalves? 0) with
  | some l => .error (.unencodable l)
  | none => .ok ⟨name, texts.map .text⟩

/-- The columns that describe bound values: their places, texts and types. -/
def ofValues [Runtime] (values : List Value) : Except TableError (List Column) := do
  let places ← textColumn "#".toList
    ((List.range values.length).map fun k => .ofText (Decimal.ofNat (k + 1)))
  let texts ← textColumn "value".toList (← values.mapM cell)
  let types ← textColumn "type".toList (values.map fun v => .ofText v.typeName)
  return [places, texts, types]

end Table

end SqlTemplate
