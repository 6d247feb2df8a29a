import SqlTemplate.Template.Basic

/-!
# Caches of templates

A cache keeps the templates that were used most recently, so that a text is read only once as long
as it stays in use. Its entries stand in the order of their last use, the least recent one first. A
template is known by its text and by the name that errors call it by; a template without a name
shares its entries with those of the name `None`. Every template that was read gets a number of its
own, by which one and the same template can be told from an equal one.
-/

namespace SqlTemplate

/-- What a cached template is known by. -/
structure CacheKey where
  text : Text
  label : Text
deriving DecidableEq, Repr

namespace CacheKey

/-- The key of a text with the name of the template. -/
def of (text : Text) (resource : Option Text) : CacheKey := ⟨text, resource.getD "None".toList⟩

end CacheKey

/-- A template in a cache, with its number. -/
structure Cached where
  number : Nat
  template : Template

/-- A cache of templates. -/
structure Cache where
  /-- How many templates the cache keeps. -/
  capacity : Nat
  registry : Registry
  /-- The templates that are kept, the least recently used one first. -/
  entries : List (CacheKey × Cached)
  /-- How many templates were read so far. -/
  count : Nat
  capacity_pos : 0 < capacity

namespace Cache

/-- The capacity of a cache for which none is set. -/
def standardCapacity : Int := 512

/-- The empty cache of a capacity, which must be positive. -/
def ofCapacity? (capacity : Int) (registry : Registry) : Option Cache :=
  if h : 0 < capacity then some ⟨capacity.toNat, registry, [], 0, by omega⟩ else none

/-- Why there is no cache of a capacity. -/
def capacityMessage [Runtime] (capacity : Int) : Text :=
  match Decimal.write? capacity with
  | some t => "maxsize must be a positive number, got ".toList ++ t
  | none => Decimal.limitMessage []

/-- The template that is kept under a key. -/
def find? (c : Cache) (key : CacheKey) : Option Cached :=
  (c.entries.find? fun (k, _) => k == key).map (·.2)

def size (c : Cache) : Nat := c.entries.length

/-- Whether a template of a text is kept, under whatever name. -/
def contains (c : Cache) (text : Text) : Bool := c.entries.any fun (k, _) => k.text == text

def clear (c : Cache) : Cache := { c with entries := [] }

/-- The entries with a template as the most recently used one. -/
def touch (entries : List (CacheKey × Cached)) (key : CacheKey) (t : Cached) :
    List (CacheKey × Cached) :=
  entries.filter (fun (k, _) => k != key) ++ [(key, t)]

/-- Keeps a template that was just read; the least recently used one makes room for it. -/
def insert (c : Cache) (key : CacheKey) (t : Template) : Cache :=
  let entries := touch c.entries key ⟨c.count, t⟩
  { c with
    entries := if c.capacity < entries.length then entries.drop 1 else entries
    count := c.count + 1 }

/-- The template of a text, which is read unless it is kept. -/
def get (c : Cache) (text : Text) (resource : Option Text) : Except FormatError (Cache × Cached) :=
  let key := CacheKey.of text resource
  match c.find? key with
  | some t => .ok ({ c with entries := touch c.entries key t }, t)
  | none =>
    match Template.parse c.registry resource text with
    | .ok t => .ok (c.insert key t, ⟨c.count, t⟩)
    | .error e => .error e

@[simp] theorem entries_clear (c : Cache) : c.clear.entries = [] := rfl

/-- A cache never keeps more templates than it has room for. -/
theorem size_insert_le (c : Cache) (key : CacheKey) (t : Template) (h : c.size ≤ c.capacity) :
    (c.insert key t).size ≤ c.capacity := by
  have hf := List.length_filter_le (fun e : CacheKey × Cached => e.1 != key) c.entries
  have ht : (touch c.entries key ⟨c.count, t⟩).length ≤ c.capacity + 1 := by
    simp only [touch, List.length_append, List.length_singleton]
    exact Nat.succ_le_succ (Nat.le_trans hf h)
  simp only [size, insert]
  by_cases hc : c.capacity < (touch c.entries key ⟨c.count, t⟩).length
  · rw [if_pos hc, List.length_drop]
    omega
  · rw [if_neg hc]
    omega

end Cache

end SqlTemplate
