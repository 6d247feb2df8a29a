import SqlTemplate.Value.Display
import SqlTemplate.Value.Equality

/-!
# Negative values

A parameter counts as absent when its value is negative. Null and `false` are always negative, and
further single values can be registered. A sequence is negative when all its elements are, so the
empty sequence is. Single values are compared with the registered ones by `Value.same`, which tells
the types apart.
-/

namespace SqlTemplate

/-- The values registered as negative besides the default ones. -/
structure Negatives where
  extra : List Value
deriving Repr

namespace Negatives

/-- The values that are always negative. -/
def defaults : List Value := [.null, .bool false]

/-- Whether one of the given values is the same as `v`. -/
def among (values : List Value) (v : Value) : Bool := values.any fun w => w.same v

/-- Registers values; the default ones are left out. -/
def ofValues (values : List Value) : Negatives := ⟨values.filter fun v => !among defaults v⟩

/-- All negative single values, the default ones first. -/
def values (n : Negatives) : List Value := defaults ++ n.extra

def extend (n : Negatives) (more : List Value) : Negatives := ofValues (n.extra ++ more)

def contains (n : Negatives) (v : Value) : Bool := among n.values v

mutual

/-- Whether a value counts as absent. -/
def isNegative (n : Negatives) : Value → Bool
  | .sequence _ items => allNegative n items
  | .range start stop step => (rangeItems start stop step).all fun i => n.contains (.int i)
  | .cell _ v => isNegative n v
  | .null => n.contains .null
  | .bool b => n.contains (.bool b)
  | .int i => n.contains (.int i)
  | .float x => n.contains (.float x)
  | .text t => n.contains (.text t)
  | .bytes bs => n.contains (.bytes bs)
  | .dictionary entries => n.contains (.dictionary entries)

/-- Whether all values count as absent. -/
def allNegative (n : Negatives) : List Value → Bool
  | [] => true
  | v :: vs => isNegative n v && allNegative n vs

end

/-- No values but the default ones. -/
def none : Negatives := ⟨[]⟩

@[simp] theorem values_none : none.values = defaults := rfl

@[simp] theorem isNegative_sequence (n : Negatives) (form : SequenceForm) (items : List Value) :
    n.isNegative (.sequence form items) = n.allNegative items := rfl

@[simp] theorem isNegative_cell (n : Negatives) (type : CellType) (v : Value) :
    n.isNegative (.cell type v) = n.isNegative v := rfl

@[simp] theorem allNegative_nil (n : Negatives) : n.allNegative [] = true := rfl

theorem allNegative_eq_all (n : Negatives) (vs : List Value) :
    n.allNegative vs = vs.all n.isNegative := by
  induction vs with
  | nil => rfl
  | cons v vs ih => simp [allNegative, ih]

theorem isNegative_null (n : Negatives) : n.isNegative .null = true := rfl

theorem isNegative_false (n : Negatives) : n.isNegative (.bool false) = true := by
  simp [isNegative, contains, among, values, defaults, Value.same, Value.sameType, Value.equal,
    Value.numeral?, Value.Numeral.equal]

end Negatives

end SqlTemplate
