import SqlTemplate.Number.Decimal

/-!
# Types of cells

All cells of a column have one type. A type is known by its name, and so is the class of the cells
of that type.
-/

namespace SqlTemplate

/-- The types of the cells of a column. Cells of every type may be null. -/
inductive CellType where
  | int64
  | string
  | double
  | bool
  | null
  | list (inner : CellType)
deriving DecidableEq, Repr

namespace CellType

/-- The name of a type; lists of all types share theirs. -/
def name : CellType → Text
  | int64 => "Int64".toList
  | string => "String".toList
  | double => "Double".toList
  | bool => "Boolean".toList
  | null => "Null".toList
  | list _ => "List".toList

/-- The name of the cells of a type. -/
def cellName (type : CellType) : Text := type.name ++ "Scalar".toList

end CellType

end SqlTemplate
