import SqlTemplate.Number.Shortest
import SqlTemplate.Text.Escaped
import SqlTemplate.Value.Basic

/-!
# Displayed values

`display?` writes a value so that its type can be told: texts and bytes between quotes, sequences
between the brackets of their form, a cell with its type. `plain?` writes a text as it is, a cell as
the value that it holds, and every other value as it is displayed. Both give nothing for a value in
which a whole number has too many digits. What is written of a column is given with it. `typeName`
is the name of the type of a value.
-/

namespace SqlTemplate

namespace Value

variable [Runtime]

/-- Texts separated by a comma and a space. -/
def commaSeparated (parts : List Text) : Text := List.intercalate ", ".toList parts

/-- A sequence of displayed elements between the brackets of its form. -/
def bracketed : SequenceForm → List Text → Text
  | .list, parts => '[' :: (commaSeparated parts ++ [']'])
  | .column _ _ written, _ => written.display
  | .tuple, [part] => '(' :: (part ++ ",)".toList)
  | .tuple, parts => '(' :: (commaSeparated parts ++ [')'])
  | .set, [] => "set()".toList
  | .set, parts => '\x7b' :: (commaSeparated parts ++ ['\x7d'])
  | .frozenSet, [] => "frozenset()".toList
  | .frozenSet, parts =>
    "frozenset(".toList ++ ('\x7b' :: (commaSeparated parts ++ ['\x7d', ')']))

/-- The numbers by which a range is displayed: its bounds, and its step unless that is one. -/
def rangeNumbers (start stop step : Int) : List Int :=
  [start, stop] ++ (if step = 1 then [] else [step])

def displayRange? (start stop step : Int) : Option Text := do
  let parts ← (rangeNumbers start stop step).mapM Decimal.write?
  return "range(".toList ++ commaSeparated parts ++ [')']

mutual

/-- A value, written so that its type can be told. -/
def display? : Value → Option Text
  | null => some "None".toList
  | bool b => some (if b then "True" else "False").toList
  | int i => Decimal.write? i
  | float x => some x.display
  | text t => some (Escaped.wide t)
  | bytes bs => some (Escaped.bytes bs)
  | sequence (.column _ _ written) _ => some written.display
  | sequence form items => (displayAll? items).map (bracketed form)
  | range start stop step => displayRange? start stop step
  | dictionary entries =>
    (displayEntries? entries).map fun parts => '\x7b' :: (commaSeparated parts ++ ['\x7d'])
  | cell type v =>
    (display? v).map fun t => "<pyarrow.".toList ++ type.cellName ++ ": ".toList ++ t ++ ['>']

def displayAll? : List Value → Option (List Text)
  | [] => some []
  | v :: vs => do
    let t ← display? v
    let rest ← displayAll? vs
    return t :: rest

/-- Displayed entries: the key and the value, with a colon between. -/
def displayEntries? : List (WideText × Value) → Option (List Text)
  | [] => some []
  | (k, v) :: entries => do
    let t ← display? v
    let rest ← displayEntries? entries
    return (Escaped.wide k ++ ": ".toList ++ t) :: rest

end

/-- A text as it is, a cell as the value in it, and every other value as it is displayed. -/
def plain? : Value → Option WideText
  | text t => some t
  | cell _ v => plain? v
  | sequence (.column _ _ written) _ => some written.plain
  | v => (display? v).map .ofText

/-- The name of the type of a value. -/
def typeName : Value → Text
  | null => "None".toList
  | bool _ => "bool".toList
  | int _ => "int".toList
  | float _ => "float".toList
  | text _ => "str".toList
  | bytes _ => "bytes".toList
  | sequence .list _ => "list".toList
  | sequence (.column _ _ written) _ => written.typeName
  | sequence .tuple _ => "tuple".toList
  | sequence .set _ => "set".toList
  | sequence .frozenSet _ => "frozenset".toList
  | range .. => "range".toList
  | dictionary _ => "dict".toList
  | cell type _ => type.cellName

def displayList? (vs : List Value) : Option Text := display? (sequence .list vs)

@[simp] theorem plain?_text (t : WideText) : (text t).plain? = some t := rfl

@[simp] theorem plain?_cell (type : CellType) (v : Value) : (cell type v).plain? = v.plain? := rfl

end Value

end SqlTemplate
