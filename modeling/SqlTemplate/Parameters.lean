import SqlTemplate.Value.Display

/-!
# Parameters

Parameters are values with names, in the order in which the names were first set. A missing
parameter is the same as a null one, so `get` is total. `set_get` says what setting a parameter
changes. Parameters can be taken over from a record: a dictionary, a declared record or an object,
of which the names that begin with an underscore are private.
-/

namespace SqlTemplate

/-- Values by name, in the order in which the names were first set. -/
structure Parameters where
  entries : List (Text × Value)
deriving Repr

/-- What parameters can be taken over from, or not. -/
inductive Source where
  /-- A plain value; only a dictionary has named parts. -/
  | value (v : Value)
  /-- A record with declared fields. -/
  | declared (fields : List (Text × Value))
  /-- An object with attributes. -/
  | object (attributes : List (Text × Value))

/-- Why parameters could not be taken over. -/
inductive SourceError where
  /-- The value has no named parts. -/
  | unnamed
deriving DecidableEq, Repr

namespace SourceError

def message : SourceError → Text
  | unnamed => "vars() argument must have __dict__ attribute".toList

end SourceError

namespace Parameters

def empty : Parameters := ⟨[]⟩

/-- The value of a parameter, if it is set. -/
def find? (p : Parameters) (key : Text) : Option Value :=
  (p.entries.find? fun (k, _) => k == key).map (·.2)

/-- The value of a parameter, or null. -/
def get (p : Parameters) (key : Text) : Value := (p.find? key).getD .null

def set (p : Parameters) (key : Text) (v : Value) : Parameters :=
  ⟨Value.insertEntry p.entries key v⟩

/-- Sets several parameters one after the other. -/
def setAll (p : Parameters) (entries : List (Text × Value)) : Parameters :=
  entries.foldl (fun p (key, v) => p.set key v) p

def turnOn (p : Parameters) (keys : List Text) : Parameters :=
  p.setAll (keys.map fun key => (key, .bool true))

/-- The entries whose key is a name, a text of characters. -/
def nameable (entries : List (WideText × Value)) : List (Text × Value) :=
  entries.filterMap fun (key, v) => (WideText.toText? key).map fun name => (name, v)

def named : Source → Except SourceError (List (Text × Value))
  | .value (.dictionary entries) => .ok (nameable entries)
  | .value _ => .error .unnamed
  | .declared fields => .ok fields
  | .object attributes => .ok (attributes.filter fun (key, _) => key.head? != some '_')

/-- Takes the named parts of a source over. -/
def updateFrom (p : Parameters) (source : Source) : Except SourceError Parameters :=
  match named source with
  | .ok entries => .ok (p.setAll entries)
  | .error e => .error e

/-- Parameters from a source: a text is the name of a single parameter with the given value, and
null stands for no parameters. -/
def ofSource (source : Source) (v : Value) : Except SourceError Parameters :=
  match source with
  | .value .null => .ok empty
  | .value (.text key) => .ok (empty.setAll (nameable [(key, v)]))
  | source => empty.updateFrom source

theorem find?_insertEntry (entries : List (Text × Value)) (key other : Text) (v : Value) :
    (⟨Value.insertEntry entries key v⟩ : Parameters).find? other =
      if other = key then some v else (⟨entries⟩ : Parameters).find? other := by
  induction entries with
  | nil =>
    by_cases h : other = key
    · subst h
      simp [Value.insertEntry, find?]
    · simp [Value.insertEntry, find?, h, Ne.symm h]
  | cons e entries ih =>
    obtain ⟨k, w⟩ := e
    simp only [Value.insertEntry]
    by_cases hk : k = key
    · subst hk
      by_cases ho : other = k
      · subst ho
        simp [find?]
      · simp [find?, ho, Ne.symm ho]
    · simp only [hk, if_false]
      by_cases ho : k = other
      · subst ho
        simp [find?, hk]
      · simpa [find?, List.find?_cons, ho] using ih

/-- A parameter after another one was set. -/
theorem get_set (p : Parameters) (key other : Text) (v : Value) :
    (p.set key v).get other = if other = key then v else p.get other := by
  simp only [get, set, find?_insertEntry]
  split <;> rfl

end Parameters

end SqlTemplate
