import SqlTemplate.Value.Equality

/-!
# Values that equal themselves

What is not a number does not even equal itself, and in a dictionary with a key that occurs twice only
the first entry is looked up. Values without such parts are `Regular`: they are the same as themselves
(`Regular.same_self`).
-/

namespace SqlTemplate

namespace Value

/-- A value in which nothing occurs that is not a number, and no key twice in a dictionary. -/
inductive Regular : Value → Prop
  | null : Regular null
  | bool (b : Bool) : Regular (bool b)
  | int (i : Int) : Regular (int i)
  | float {x : Binary64} (h : x ≠ .nan) : Regular (float x)
  | text (t : WideText) : Regular (text t)
  | bytes (bs : List UInt8) : Regular (bytes bs)
  | sequence (form : SequenceForm) {items : List Value} (h : ∀ v ∈ items, Regular v) :
      Regular (sequence form items)
  | range (start stop step : Int) : Regular (range start stop step)
  | dictionary {entries : List (WideText × Value)} (hkeys : (entries.map (·.1)).Nodup)
      (h : ∀ e ∈ entries, Regular e.2) : Regular (dictionary entries)
  | cell (type : CellType) {v : Value} (h : Regular v) : Regular (cell type v)

theorem sameForm_self (f : SequenceForm) : sameForm f f = true := by
  cases f <;> simp [sameForm]

theorem sameType_self (v : Value) : sameType v v = true := by
  cases v with
  | sequence form items => exact sameForm_self form
  | _ => simp [sameType]

theorem allIn_eq_all (xs ys : List Value) : allIn xs ys = xs.all fun x => ys.any (equal x ·) := by
  induction xs with
  | nil => rfl
  | cons x xs ih => rw [allIn, ih, List.all_cons]

/-- The entry of a key that occurs once. -/
theorem find_entry_of_mem {entries : List (WideText × Value)}
    (hkeys : (entries.map (·.1)).Nodup) {key : WideText} {v : Value} (h : (key, v) ∈ entries) :
    entry? entries key = some v := by
  induction entries with
  | nil => cases h
  | cons e entries ih =>
    obtain ⟨hfirst, hkeys⟩ := List.nodup_cons.1 hkeys
    rcases List.mem_cons.1 h with rfl | h
    · unfold entry?
      simp
    · have hne : e.1 ≠ key := fun heq => hfirst (List.mem_map.2 ⟨_, h, heq.symm⟩)
      have hrest := ih hkeys h
      unfold entry? at hrest ⊢
      rwa [List.find?_cons_of_neg (by simpa using hne)]

theorem equalAll_self {items : List Value} (h : ∀ v ∈ items, equal v v = true) :
    equalAll items items = true := by
  induction items with
  | nil => rfl
  | cons v items ih =>
    obtain ⟨hv, hitems⟩ := List.forall_mem_cons.1 h
    rw [equalAll, hv, ih hitems]
    rfl

theorem allIn_self {items : List Value} (h : ∀ v ∈ items, equal v v = true) :
    allIn items items = true := by
  rw [allIn_eq_all, List.all_eq_true]
  exact fun v hv => List.any_eq_true.2 ⟨v, hv, h v hv⟩

theorem entriesIn_of_forall {entries all : List (WideText × Value)}
    (h : ∀ e ∈ entries, entry? all e.1 = some e.2 ∧ equal e.2 e.2 = true) :
    entriesIn entries all = true := by
  induction entries with
  | nil => rfl
  | cons e entries ih =>
    obtain ⟨⟨hentry, he⟩, hentries⟩ := List.forall_mem_cons.1 h
    rw [entriesIn, hentry, ih hentries, Bool.and_true]
    exact he

theorem Regular.equal_self {v : Value} (h : v.Regular) : equal v v = true := by
  induction h with
  | null => rfl
  | bool b => simp [equal, numeral?, Numeral.equal]
  | int i => simp [equal, numeral?, Numeral.equal]
  | float h => simpa [equal, numeral?, Numeral.equal] using Binary64.numEq_self h
  | text t => simp [equal]
  | bytes bs => simp [equal]
  | sequence form _ ih =>
    rw [equal, comparable, sameForm_self]
    split
    · simpa using allIn_self ih
    · simpa using equalAll_self ih
  | range start stop step => simp [equal]
  | dictionary hkeys _ ih =>
    rw [equal, beq_self_eq_true, Bool.true_and]
    exact entriesIn_of_forall fun e he => ⟨find_entry_of_mem hkeys he, ih e he⟩
  | cell type _ ih => rw [equal, beq_self_eq_true, ih, Bool.and_self]

theorem Regular.same_self {v : Value} (h : v.Regular) : v.same v = true := by
  rw [same, sameType_self, h.equal_self, Bool.and_self]

end Value

end SqlTemplate
