import SqlTemplate.Value.Display

/-!
# Reports on statements

A statement with the values bound to its marks, written out for people to read. The values may be
given as anything that has elements: a sequence, the cells of a column or of a cell that holds a
list, the keys of a dictionary, the characters of a text or the numbers of a sequence of bytes.
-/

namespace SqlTemplate

/-- The value has no elements; its type is named. -/
inductive ElementError where
  | notIterable (typeName : Text)
deriving DecidableEq, Repr

namespace ElementError

def message : ElementError → Text
  | notIterable typeName => '\'' :: typeName ++ "' object is not iterable".toList

end ElementError

namespace Value

def elements : Value → Except ElementError (List Value)
  | sequence (.column type ..) items => .ok (items.map (cell type))
  | cell (.list type) (sequence _ items) => .ok (items.map (cell type))
  | sequence _ items => .ok items
  | range start stop step => .ok ((rangeItems start stop step).map int)
  | text t => .ok (t.map fun c => text [c])
  | bytes bs => .ok (bs.map fun b => int b.toNat)
  | dictionary entries => .ok (entries.map fun (key, _) => text key)
  | null | cell (.list _) null => .error (.notIterable "NoneType".toList)
  | cell type _ => .error (.notIterable ("pyarrow.lib.".toList ++ type.cellName))
  | v => .error (.notIterable v.typeName)

end Value

namespace Report

/-- A statement and its values, with the name of the template if there is one. A whole number among
the values may have too many digits to be written. -/
def statement? [Runtime] (sql : Text) (values : List Value) (resource : Option Text) :
    Option Text := do
  let written ← Value.displayList? values
  let lines := ["--- sql ---".toList, sql, "--- params ---".toList, written] ++
    (resource.toList.flatMap fun name => ["--- resource ---".toList, name])
  return List.intercalate ['\n'] lines

end Report

end SqlTemplate
