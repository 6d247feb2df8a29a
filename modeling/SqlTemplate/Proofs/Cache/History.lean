import Mathlib.Data.List.DropRight
import SqlTemplate.Cache

/-!
# Histories of a cache

A cache is changed by calls, each of which is answered. `Cache.run` is the cache after a list of
calls, and `Cache.transcript` the calls with their answers. What the calls before have left in the
cache is read off the transcript alone: `usedKeys` are the keys of the calls since the last clearing
that returned a template.
-/

namespace SqlTemplate

namespace Cache

/-- A call on a cache. -/
inductive Call where
  | get (text : Text) (resource : Option Text)
  | contains (text : Text)
  | clear
deriving DecidableEq, Repr

/-- The answer to a call. -/
inductive Answer where
  | template (t : Cached)
  | raised (e : FormatError)
  | found (b : Bool)
  | cleared

/-- The cache after a call, and the answer to the call. A call that raises leaves the cache. -/
def step (c : Cache) : Call → Cache × Answer
  | .get text resource =>
    match c.get text resource with
    | .ok (d, t) => (d, .template t)
    | .error e => (c, .raised e)
  | .contains text => (c, .found (c.contains text))
  | .clear => (c.clear, .cleared)

/-- The cache after calls. -/
def run (c : Cache) : List Call → Cache
  | [] => c
  | a :: as => (c.step a).1.run as

/-- Calls, each with its answer. -/
def transcript (c : Cache) : List Call → List (Call × Answer)
  | [] => []
  | a :: as => (a, (c.step a).2) :: (c.step a).1.transcript as

theorem run_concat (c : Cache) (calls : List Call) (a : Call) :
    c.run (calls ++ [a]) = ((c.run calls).step a).1 := by
  induction calls generalizing c with
  | nil => rfl
  | cons b calls ih => exact ih _

theorem transcript_concat (c : Cache) (calls : List Call) (a : Call) :
    c.transcript (calls ++ [a]) = c.transcript calls ++ [(a, ((c.run calls).step a).2)] := by
  induction calls generalizing c with
  | nil => rfl
  | cons b calls ih => exact congrArg _ (ih _)

theorem map_fst_transcript (c : Cache) (calls : List Call) :
    (c.transcript calls).map Prod.fst = calls := by
  induction calls generalizing c with
  | nil => rfl
  | cons a calls ih => exact congrArg _ (ih _)

/-- The key that a call asked for, if it returned a template. -/
def usedKey? : Call × Answer → Option CacheKey
  | (.get text resource, .template _) => some (CacheKey.of text resource)
  | _ => none

/-- The keys of the calls that returned a template since the last clearing, in the order of the
calls. -/
def usedKeys (events : List (Call × Answer)) : List CacheKey :=
  (events.rtakeWhile fun e => e.1 != .clear).filterMap usedKey?

@[simp] theorem usedKeys_nil : usedKeys [] = [] := rfl

@[simp] theorem usedKeys_concat_clear (events : List (Call × Answer)) (r : Answer) :
    usedKeys (events ++ [(.clear, r)]) = [] := by
  simp [usedKeys]

@[simp] theorem usedKeys_concat_contains (events : List (Call × Answer)) (text : Text)
    (r : Answer) : usedKeys (events ++ [(.contains text, r)]) = usedKeys events := by
  simp [usedKeys, usedKey?]

@[simp] theorem usedKeys_concat_get_template (events : List (Call × Answer)) (text : Text)
    (resource : Option Text) (t : Cached) :
    usedKeys (events ++ [(.get text resource, .template t)]) =
      usedKeys events ++ [CacheKey.of text resource] := by
  simp [usedKeys, usedKey?]

@[simp] theorem usedKeys_concat_get_raised (events : List (Call × Answer)) (text : Text)
    (resource : Option Text) (e : FormatError) :
    usedKeys (events ++ [(.get text resource, .raised e)]) = usedKeys events := by
  simp [usedKeys, usedKey?]

/-- A used key is that of a call. -/
theorem exists_get_of_mem_usedKeys {events : List (Call × Answer)} {k : CacheKey}
    (hk : k ∈ usedKeys events) :
    ∃ text resource, .get text resource ∈ events.map Prod.fst ∧ k = CacheKey.of text resource := by
  obtain ⟨⟨a, r⟩, he, hu⟩ := List.mem_filterMap.1 hk
  have hmem := (List.rtakeWhile_suffix (fun e : Call × Answer => e.1 != .clear) events).subset he
  unfold usedKey? at hu
  split at hu
  · rename_i text resource t heq
    cases heq
    cases hu
    exact ⟨text, resource, List.mem_map_of_mem hmem, rfl⟩
  · cases hu

/-! ### What a call for a template does -/

theorem find?_eq_none_iff {c : Cache} {key : CacheKey} :
    c.find? key = none ↔ key ∉ c.entries.map Prod.fst := by
  simp only [find?, Option.map_eq_none_iff, List.find?_eq_none, List.mem_map, not_exists, not_and,
    beq_iff_eq]

theorem mem_of_find?_eq_some {c : Cache} {key : CacheKey} {t : Cached}
    (h : c.find? key = some t) : (key, t) ∈ c.entries := by
  obtain ⟨⟨k, u⟩, he, hu⟩ := Option.map_eq_some_iff.1 h
  cases hu
  have hk : k = key := by simpa using List.find?_some he
  exact hk ▸ List.mem_of_find?_eq_some he

/-- A call for a template finds it, or reads it, or raises. -/
theorem get_cases (c : Cache) (text : Text) (resource : Option Text) :
    (∃ t, c.find? (CacheKey.of text resource) = some t ∧
      c.get text resource =
        .ok ({ c with entries := touch c.entries (CacheKey.of text resource) t }, t)) ∨
    (∃ t, c.find? (CacheKey.of text resource) = none ∧
      Template.parse c.registry resource text = .ok t ∧
      c.get text resource = .ok (c.insert (CacheKey.of text resource) t, ⟨c.count, t⟩)) ∨
    ∃ e, c.find? (CacheKey.of text resource) = none ∧
      Template.parse c.registry resource text = .error e ∧ c.get text resource = .error e := by
  cases hf : c.find? (CacheKey.of text resource) with
  | some t => exact .inl ⟨t, rfl, by simp only [get, hf]⟩
  | none =>
    cases hp : Template.parse c.registry resource text with
    | ok t => exact .inr (.inl ⟨t, rfl, rfl, by simp only [get, hf, hp]⟩)
    | error e => exact .inr (.inr ⟨e, rfl, rfl, by simp only [get, hf, hp]⟩)

theorem keys_touch (entries : List (CacheKey × Cached)) (key : CacheKey) (t : Cached) :
    (touch entries key t).map Prod.fst = (entries.map Prod.fst).filter (· != key) ++ [key] := by
  simp only [touch, List.map_append, List.filter_map, List.map_cons, List.map_nil]
  rfl

theorem mem_touch {entries : List (CacheKey × Cached)} {key : CacheKey} {t : Cached}
    {e : CacheKey × Cached} (he : e ∈ touch entries key t) :
    e ∈ entries ∧ e.1 ≠ key ∨ e = (key, t) := by
  rcases List.mem_append.1 he with h | h
  · simpa using Or.inl (b := e = (key, t)) (List.mem_filter.1 h)
  · exact .inr (List.mem_singleton.1 h)

theorem mem_insert {c : Cache} {key : CacheKey} {t : Template} {e : CacheKey × Cached}
    (he : e ∈ (c.insert key t).entries) :
    e ∈ c.entries ∧ e.1 ≠ key ∨ e = (key, ⟨c.count, t⟩) := by
  apply mem_touch
  simp only [insert] at he
  split at he
  · exact List.mem_of_mem_drop he
  · exact he

end Cache

end SqlTemplate
