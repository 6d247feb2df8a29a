import Mathlib.Data.List.Dedup
import SqlTemplate.Proofs.Cache.History

/-!
# The order of use in a cache

A cache keeps what was used last. With the keys that calls have used since the last clearing, each
at the place of its last use (`List.dedup`), the keys of the entries are as many of them from the
end as the cache has room for (`List.rtake`). One call changes both sides alike: a key that is used
again moves to the end, a new one comes behind the others, and the first one makes room for it. The
program writes a key as the digest of the text, a colon and the name of the template. For a digest
that tells the texts of the calls apart, the written keys stand for the keys.
-/

namespace SqlTemplate

namespace Cache

section Order

variable {α β : Type}

theorem length_rtake (l : List α) (n : ℕ) : (l.rtake n).length = min n l.length := by
  simp only [List.rtake, List.length_drop]
  omega

theorem rtake_map (f : α → β) (l : List α) (n : ℕ) : (l.map f).rtake n = (l.rtake n).map f := by
  simp [List.rtake, List.map_drop]

theorem rtake_of_length_le {l : List α} {n : ℕ} (h : l.length ≤ n) : l.rtake n = l := by
  rw [List.rtake, Nat.sub_eq_zero_of_le h, List.drop_zero]

theorem rtake_append_of_le_length {l m : List α} {n : ℕ} (h : n ≤ m.length) :
    (l ++ m).rtake n = m.rtake n := by
  rw [List.rtake, List.rtake, List.length_append, Nat.add_sub_assoc h, List.drop_length_add_append]

theorem exists_append_rtake (l : List α) (n : ℕ) : ∃ front, l = front ++ l.rtake n :=
  ⟨l.take (l.length - n), (List.take_append_drop _ l).symm⟩

variable [DecidableEq α]

/-- Among different things in the order of their last use, one that is used again moves to the
end. -/
theorem dedup_concat (l : List α) (a : α) :
    (l ++ [a]).dedup = l.dedup.filter (· != a) ++ [a] := by
  induction l with
  | nil => rfl
  | cons b l ih =>
    rw [List.cons_append, List.dedup_cons, List.dedup_cons, ih]
    by_cases hb : b ∈ l
    · rw [if_pos (List.mem_append_left _ hb), if_pos hb]
    · by_cases hba : b = a
      · rw [if_pos (by simp [hba]), if_neg hb, List.filter_cons_of_neg (by simp [hba])]
      · rw [if_neg (by simp [hb, hba]), if_neg hb, List.filter_cons_of_pos (by simp [hba]),
          List.cons_append]

/-- A thing among the last `n` that is used again moves to the end of them. -/
theorem filter_rtake_concat {l : List α} (hl : l.Nodup) {a : α} {n : ℕ} (hn : 0 < n)
    (ha : a ∈ l.rtake n) :
    (l.rtake n).filter (· != a) ++ [a] = (l.filter (· != a) ++ [a]).rtake n := by
  obtain ⟨n, rfl⟩ := Nat.exists_eq_add_one_of_ne_zero hn.ne'
  rw [List.rtake_concat_succ]
  congr 1
  obtain hshort | hlong := le_or_gt l.length (n + 1)
  · rw [rtake_of_length_le hshort] at ha ⊢
    have hlen : (l.filter (· != a)).length = l.length - 1 := by
      rw [← hl.erase_eq_filter, List.length_erase_of_mem ha]
    exact (rtake_of_length_le (by omega)).symm
  · obtain ⟨front, hfront⟩ := exists_append_rtake l (n + 1)
    have hnodup : (l.rtake (n + 1)).Nodup := hl.sublist (List.drop_sublist _ _)
    have hlen : ((l.rtake (n + 1)).filter (· != a)).length = n := by
      rw [← hnodup.erase_eq_filter, List.length_erase_of_mem ha, length_rtake]
      omega
    calc (l.rtake (n + 1)).filter (· != a)
        = ((l.rtake (n + 1)).filter (· != a)).rtake n := (rtake_of_length_le hlen.le).symm
      _ = (front.filter (· != a) ++ (l.rtake (n + 1)).filter (· != a)).rtake n :=
          (rtake_append_of_le_length hlen.ge).symm
      _ = (l.filter (· != a)).rtake n := by rw [← List.filter_append, ← hfront]

/-- A thing that is not among the last `n` comes behind them, and the first of them makes room for
it where there are `n`. -/
theorem rtake_concat_of_notMem {l : List α} {a : α} {n : ℕ} (hn : 0 < n) (ha : a ∉ l.rtake n) :
    (if n < (l.rtake n ++ [a]).length then (l.rtake n ++ [a]).drop 1 else l.rtake n ++ [a]) =
      (l.filter (· != a) ++ [a]).rtake n := by
  obtain ⟨n, rfl⟩ := Nat.exists_eq_add_one_of_ne_zero hn.ne'
  have hkeep : (l.rtake (n + 1)).filter (· != a) = l.rtake (n + 1) := by
    rw [List.filter_eq_self]
    rintro b hb
    have hba : b ≠ a := fun hba => ha (hba ▸ hb)
    simpa using hba
  have hlen := length_rtake l (n + 1)
  rw [List.rtake_concat_succ, List.length_append, List.length_singleton]
  obtain hshort | hlong := le_or_gt l.length n
  · rw [rtake_of_length_le (by omega)] at hkeep ⊢
    rw [if_neg (by omega), hkeep, rtake_of_length_le hshort]
  · obtain ⟨front, hfront⟩ := exists_append_rtake l (n + 1)
    rw [if_pos (by omega), List.drop_append_of_le_length (by omega)]
    congr 1
    calc (l.rtake (n + 1)).drop 1
        = (l.rtake (n + 1)).rtake n := by
          conv_rhs => rw [List.rtake]
          rw [show (l.rtake (n + 1)).length - n = 1 by omega]
      _ = (front.filter (· != a) ++ l.rtake (n + 1)).rtake n :=
          (rtake_append_of_le_length (by omega)).symm
      _ = (l.filter (· != a)).rtake n := by rw [← hkeep, ← List.filter_append, ← hfront]

variable [DecidableEq β]

/-- Names that tell the things of a list apart stand for them in the order of their last use. -/
theorem dedup_map_of_injOn {f : α → β} {l : List α} (h : ∀ a ∈ l, ∀ b ∈ l, f a = f b → a = b) :
    (l.map f).dedup = l.dedup.map f := by
  induction l with
  | nil => rfl
  | cons a l ih =>
    have hl : (l.map f).dedup = l.dedup.map f :=
      ih fun b hb d hd => h b (List.mem_cons_of_mem _ hb) d (List.mem_cons_of_mem _ hd)
    have hmem : f a ∈ l.map f ↔ a ∈ l := by
      refine ⟨fun hfa => ?_, List.mem_map_of_mem⟩
      obtain ⟨b, hb, hba⟩ := List.mem_map.1 hfa
      exact h b (List.mem_cons_of_mem _ hb) a List.mem_cons_self hba ▸ hb
    rw [List.map_cons, List.dedup_cons, List.dedup_cons, hl]
    by_cases ha : a ∈ l
    · rw [if_pos (hmem.2 ha), if_pos ha]
    · rw [if_neg (mt hmem.1 ha), if_neg ha, List.map_cons]

end Order

/-! ### The entries after calls -/

/-- The entries of a cache as the calls on it have left them. -/
structure Reflects (c : Cache) (capacity : ℕ) (registry : Registry)
    (events : List (Call × Answer)) : Prop where
  capacity_eq : c.capacity = capacity
  registry_eq : c.registry = registry
  keys_eq : c.entries.map Prod.fst = (usedKeys events).dedup.rtake capacity
  /-- An entry was read from the text of a call with its key. -/
  read : ∀ e ∈ c.entries, ∃ text resource, Call.get text resource ∈ events.map Prod.fst ∧
    e.1 = CacheKey.of text resource ∧ Template.parse registry resource text = .ok e.2.template
  /-- A template that is kept can be told from every other one, and from those to come. -/
  number_lt : ∀ e ∈ c.entries, e.2.number < c.count
  number_inj : ∀ e ∈ c.entries, ∀ f ∈ c.entries, e.2.number = f.2.number → e = f

namespace Reflects

variable {c : Cache} {capacity : ℕ} {registry : Registry} {events : List (Call × Answer)}

theorem nil (c : Cache) (h : c.entries = []) : c.Reflects c.capacity c.registry [] where
  capacity_eq := rfl
  registry_eq := rfl
  keys_eq := by simp [h]
  read := by simp [h]
  number_lt := by simp [h]
  number_inj := by simp [h]

/-- A later call that leaves the entries and the keys in use. -/
theorem concat_of_eq (h : c.Reflects capacity registry events) (event : Call × Answer)
    (hu : usedKeys (events ++ [event]) = usedKeys events) :
    c.Reflects capacity registry (events ++ [event]) where
  capacity_eq := h.capacity_eq
  registry_eq := h.registry_eq
  keys_eq := by rw [hu]; exact h.keys_eq
  read e he := by
    obtain ⟨text, resource, hcall, hkey, hparse⟩ := h.read e he
    exact ⟨text, resource, by rw [List.map_append]; exact List.mem_append_left _ hcall, hkey,
      hparse⟩
  number_lt := h.number_lt
  number_inj := h.number_inj

theorem clear (h : c.Reflects capacity registry events) (r : Answer) :
    c.clear.Reflects capacity registry (events ++ [(.clear, r)]) where
  capacity_eq := h.capacity_eq
  registry_eq := h.registry_eq
  keys_eq := by simp
  read := by simp
  number_lt := by simp
  number_inj := by simp

/-- A call for a key, where the entries are replaced by others of which the last one is of that
key. -/
theorem concat_get (h : c.Reflects capacity registry events) {d : Cache} {text : Text}
    {resource : Option Text} {t : Cached} (hd : d.capacity = c.capacity ∧ d.registry = c.registry)
    (hkeys : d.entries.map Prod.fst =
      ((usedKeys events).dedup.filter (· != CacheKey.of text resource) ++
        [CacheKey.of text resource]).rtake capacity)
    (hmem : ∀ e ∈ d.entries, e ∈ c.entries ∨ e = (CacheKey.of text resource, t))
    (hread : ∃ text' resource',
      Call.get text' resource' ∈ (events ++ [(Call.get text resource, Answer.template t)]).map
        Prod.fst ∧
      CacheKey.of text resource = CacheKey.of text' resource' ∧
      Template.parse registry resource' text' = .ok t.template)
    (hlt : c.count ≤ d.count ∧ t.number < d.count)
    (hinj : ∀ e ∈ d.entries, ∀ f ∈ d.entries, e.2.number = f.2.number → e = f) :
    d.Reflects capacity registry (events ++ [(.get text resource, .template t)]) where
  capacity_eq := hd.1.trans h.capacity_eq
  registry_eq := hd.2.trans h.registry_eq
  keys_eq := by rw [usedKeys_concat_get_template, dedup_concat, hkeys]
  read e he := by
    rcases hmem e he with he | rfl
    · obtain ⟨text', resource', hcall, hkey, hparse⟩ := h.read e he
      exact ⟨text', resource', by rw [List.map_append]; exact List.mem_append_left _ hcall, hkey,
        hparse⟩
    · exact hread
  number_lt e he := by
    rcases hmem e he with he | rfl
    · exact (h.number_lt e he).trans_le hlt.1
    · exact hlt.2
  number_inj := hinj

/-- A key that is stored is used again. -/
theorem concat_hit (h : c.Reflects capacity registry events) (hpos : 0 < capacity) {text : Text}
    {resource : Option Text} {t : Cached}
    (hf : c.find? (CacheKey.of text resource) = some t) :
    Reflects { c with entries := touch c.entries (CacheKey.of text resource) t } capacity registry
      (events ++ [(.get text resource, .template t)]) := by
  have hmem : (CacheKey.of text resource, t) ∈ c.entries := mem_of_find?_eq_some hf
  have hold : ∀ e ∈ touch c.entries (CacheKey.of text resource) t, e ∈ c.entries := by
    intro e he
    rcases mem_touch he with ⟨he, -⟩ | rfl
    · exact he
    · exact hmem
  have hkey : CacheKey.of text resource ∈ (usedKeys events).dedup.rtake capacity := by
    rw [← h.keys_eq]
    exact List.mem_map_of_mem hmem
  refine h.concat_get ⟨rfl, rfl⟩ ?_ (fun e he => .inl (hold e he)) ?_
    ⟨le_rfl, h.number_lt _ hmem⟩ fun e he f hf => h.number_inj e (hold e he) f (hold f hf)
  · rw [keys_touch, h.keys_eq, filter_rtake_concat (List.nodup_dedup _) hpos hkey]
  · obtain ⟨text', resource', hcall, hk, hparse⟩ := h.read _ hmem
    exact ⟨text', resource', by rw [List.map_append]; exact List.mem_append_left _ hcall, hk,
      hparse⟩

/-- A key that is not stored is used first. -/
theorem concat_miss (h : c.Reflects capacity registry events) (hpos : 0 < capacity) {text : Text}
    {resource : Option Text} {t : Template}
    (hf : c.find? (CacheKey.of text resource) = none)
    (hp : Template.parse registry resource text = .ok t) :
    (c.insert (CacheKey.of text resource) t).Reflects capacity registry
      (events ++ [(.get text resource, .template ⟨c.count, t⟩)]) := by
  have hkey : CacheKey.of text resource ∉ (usedKeys events).dedup.rtake capacity := by
    rw [← h.keys_eq]
    exact find?_eq_none_iff.1 hf
  refine h.concat_get ⟨rfl, rfl⟩ ?_ (fun e he => (mem_insert he).imp_left And.left)
    ⟨text, resource, by simp, rfl, hp⟩ ⟨Nat.le_succ _, Nat.lt_succ_self _⟩ ?_
  · have hsame : (c.entries.map Prod.fst).filter (· != CacheKey.of text resource) =
        c.entries.map Prod.fst := by
      rw [List.filter_eq_self]
      intro k hk
      have hne : k ≠ CacheKey.of text resource := fun hk' => find?_eq_none_iff.1 hf (hk' ▸ hk)
      simpa using hne
    have htouch := keys_touch c.entries (CacheKey.of text resource) ⟨c.count, t⟩
    rw [hsame, h.keys_eq] at htouch
    rw [← rtake_concat_of_notMem hpos hkey, ← htouch, List.length_map, ← h.capacity_eq]
    simp only [insert]
    split
    · rw [List.map_drop]
    · rfl
  · intro e he f hf hnum
    rcases mem_insert he with ⟨he, -⟩ | rfl <;> rcases mem_insert hf with ⟨hf, -⟩ | rfl
    · exact h.number_inj e he f hf hnum
    · exact absurd hnum (h.number_lt e he).ne
    · exact absurd hnum.symm (h.number_lt f hf).ne
    · rfl

/-- A call keeps to the transcript. -/
theorem concat_step (h : c.Reflects capacity registry events) (hpos : 0 < capacity) (a : Call) :
    (c.step a).1.Reflects capacity registry (events ++ [(a, (c.step a).2)]) := by
  cases a with
  | get text resource =>
    rcases c.get_cases text resource with ⟨t, hf, hg⟩ | ⟨t, hf, hp, hg⟩ | ⟨e, -, -, hg⟩
    · simp only [step, hg]
      exact h.concat_hit hpos hf
    · simp only [step, hg]
      exact h.concat_miss hpos hf (h.registry_eq ▸ hp)
    · simp only [step, hg]
      exact h.concat_of_eq _ (by simp)
  | contains text => exact h.concat_of_eq _ (by simp)
  | clear => exact h.clear _

end Reflects

/-- The entries of a new cache after any calls on it. -/
theorem reflects_run {m : Int} {registry : Registry} {c : Cache}
    (hc : ofCapacity? m registry = some c) (calls : List Call) :
    (c.run calls).Reflects m.toNat registry (c.transcript calls) := by
  unfold ofCapacity? at hc
  split at hc
  · rename_i hm
    cases hc
    induction calls using List.reverseRecOn with
    | nil => exact Reflects.nil _ rfl
    | append_singleton calls a ih =>
      rw [run_concat, transcript_concat]
      exact ih.concat_step (by omega) a
  · cases hc

theorem Reflects.find?_eq_some {c : Cache} {capacity : ℕ} {registry : Registry}
    {events : List (Call × Answer)} (h : c.Reflects capacity registry events)
    {e : CacheKey × Cached} (he : e ∈ c.entries) : c.find? e.1 = some e.2 := by
  have hnodup : (c.entries.map Prod.fst).Nodup := by
    rw [h.keys_eq]
    exact (List.nodup_dedup _).sublist (List.drop_sublist _ _)
  obtain ⟨t, ht⟩ : ∃ t, c.find? e.1 = some t :=
    Option.ne_none_iff_exists'.1 fun hn => find?_eq_none_iff.1 hn (List.mem_map_of_mem he)
  have hte : (e.1, t) = e := List.inj_on_of_nodup_map hnodup (mem_of_find?_eq_some ht) he rfl
  rw [ht, ← hte]

/-! ### Keys as they are written -/

/-- The text that a call is about. -/
def Call.text? : Call → Option Text
  | .get text _ => some text
  | .contains text => some text
  | .clear => none

/-- A digest of texts that is written without a colon. -/
structure Digest where
  hash : Text → Text
  colon_notMem : ∀ text, ':' ∉ hash text

namespace Digest

/-- No two of the texts have the same digest. -/
def Separates (digest : Digest) (texts : List Text) : Prop :=
  ∀ a ∈ texts, ∀ b ∈ texts, digest.hash a = digest.hash b → a = b

/-- What the keys of a text begin with. -/
def stem (digest : Digest) (text : Text) : Text := digest.hash text ++ [':']

/-- A key as it is written. -/
def written (digest : Digest) (key : CacheKey) : Text := digest.stem key.text ++ key.label

theorem append_colon_inj (digest : Digest) {text text' rest rest' : Text} :
    digest.stem text ++ rest = digest.stem text' ++ rest' ↔
      digest.hash text = digest.hash text' ∧ rest = rest' := by
  have hhash (t r : Text) : (digest.stem t ++ r).takeWhile (· != ':') = digest.hash t := by
    have hne : ∀ c ∈ digest.hash t, (c != ':') = true := fun c hc => by
      simpa using ne_of_mem_of_not_mem hc (digest.colon_notMem t)
    rw [stem, List.append_assoc, List.takeWhile_append_of_pos hne]
    simp
  constructor
  · intro h
    have htext : digest.hash text = digest.hash text' := by
      rw [← hhash text rest, h, hhash]
    rw [stem, stem, htext] at h
    exact ⟨htext, List.append_cancel_left h⟩
  · rintro ⟨htext, rfl⟩
    rw [stem, stem, htext]

theorem stem_isPrefix_written_iff (digest : Digest) {text : Text} {key : CacheKey} :
    digest.stem text <+: digest.written key ↔ digest.hash text = digest.hash key.text := by
  constructor
  · rintro ⟨rest, h⟩
    exact (digest.append_colon_inj.1 h).1
  · intro h
    exact ⟨key.label, digest.append_colon_inj.2 ⟨h, rfl⟩⟩

theorem Separates.eq_of_written_eq {digest : Digest} {texts : List Text}
    (h : digest.Separates texts) {k l : CacheKey} (hk : k.text ∈ texts) (hl : l.text ∈ texts)
    (heq : digest.written k = digest.written l) : k = l := by
  obtain ⟨hhash, hlabel⟩ := digest.append_colon_inj.1 heq
  cases k
  cases l
  exact congr (congrArg _ (h _ hk _ hl hhash)) hlabel

end Digest

theorem text_mem_of_mem_usedKeys {c : Cache} {calls : List Call} {k : CacheKey}
    (hk : k ∈ usedKeys (c.transcript calls)) : k.text ∈ calls.filterMap Call.text? := by
  obtain ⟨text, resource, hcall, rfl⟩ := exists_get_of_mem_usedKeys hk
  rw [map_fst_transcript] at hcall
  exact List.mem_filterMap.2 ⟨_, hcall, rfl⟩

theorem Reflects.text_mem {c d : Cache} {capacity : ℕ} {registry : Registry} {calls : List Call}
    (h : d.Reflects capacity registry (c.transcript calls)) {e : CacheKey × Cached}
    (he : e ∈ d.entries) : e.1.text ∈ calls.filterMap Call.text? := by
  apply text_mem_of_mem_usedKeys (c := c)
  have hmem : e.1 ∈ (usedKeys (c.transcript calls)).dedup.rtake capacity := by
    rw [← h.keys_eq]
    exact List.mem_map_of_mem he
  exact List.mem_dedup.1 (List.mem_of_mem_drop hmem)

theorem step_fst_of_raised {c : Cache} {call : Call} {e : FormatError}
    (h : (c.step call).2 = .raised e) : (c.step call).1 = c := by
  cases call with
  | get text resource =>
    cases hg : c.get text resource with
    | ok r => simp [step, hg] at h
    | error e' => simp only [step, hg]
  | contains text => rfl
  | clear => cases h

/-- A call for a stored key returns the template that is stored for it. -/
theorem Reflects.step_get_snd {c : Cache} {capacity : ℕ} {registry : Registry}
    {events : List (Call × Answer)} (h : c.Reflects capacity registry events)
    {e : CacheKey × Cached} (he : e ∈ c.entries) {text : Text} {resource : Option Text}
    (hkey : e.1 = CacheKey.of text resource) :
    (c.step (.get text resource)).2 = .template e.2 := by
  have hfind := h.find?_eq_some he
  rw [hkey] at hfind
  simp only [step, get, hfind]

theorem contains_eq_true_iff {c : Cache} {text : Text} :
    c.contains text = true ↔ ∃ e ∈ c.entries, e.1.text = text := by
  simp [contains]

/-- A cache keeps what was used last. After any calls on a new cache, the written keys of its
entries are the last ones, as many as there is room for, of the different keys that calls have used
since the last clearing, each at the place of its last use. The next call leaves the cache if it
raises or only asks what is kept. It returns the very template that is stored under its key, which
is stored under no other one, and it finds a text just when a stored key is of that text. -/
theorem entries_run_eq_rtake_dedup_usedKeys {m : Int} {registry : Registry} {c : Cache}
    (hc : ofCapacity? m registry = some c) (digest : Digest) (calls : List Call) (next : Call)
    (hd : digest.Separates ((calls ++ [next]).filterMap Call.text?)) :
    let d := c.run calls
    let used := (usedKeys (c.transcript calls)).map digest.written
    d.entries.map (fun e => digest.written e.1) = used.dedup.rtake m.toNat ∧
      d.size = min m.toNat used.dedup.length ∧
      (∀ e ∈ d.entries, ∀ f ∈ d.entries, e.2.number = f.2.number → e = f) ∧
      (∀ e, (d.step next).2 = .raised e → (d.step next).1 = d) ∧
      (∀ text resource, next = .get text resource → ∀ e ∈ d.entries,
        digest.written e.1 = digest.written (CacheKey.of text resource) →
          (d.step next).2 = .template e.2) ∧
      ∀ text, next = .contains text → (d.step next).1 = d ∧
        ∃ b, (d.step next).2 = .found b ∧
          (b = true ↔ ∃ e ∈ d.entries, digest.stem text <+: digest.written e.1) ∧
          (b = true ↔ ∃ e ∈ d.entries, e.1.text = text) := by
  intro d used
  have h : d.Reflects m.toNat registry (c.transcript calls) := reflects_run hc calls
  have hcall : ∀ text ∈ calls.filterMap Call.text?,
      text ∈ (calls ++ [next]).filterMap Call.text? := by
    intro text ht
    rw [List.filterMap_append]
    exact List.mem_append_left _ ht
  have hnext : ∀ text, next.text? = some text → text ∈ (calls ++ [next]).filterMap Call.text? :=
    fun text ht => List.mem_filterMap.2 ⟨next, by simp, ht⟩
  have hused : used.dedup = (usedKeys (c.transcript calls)).dedup.map digest.written :=
    dedup_map_of_injOn fun k hk l hl => hd.eq_of_written_eq
      (hcall _ (text_mem_of_mem_usedKeys hk)) (hcall _ (text_mem_of_mem_usedKeys hl))
  have hkeys : d.entries.map (fun e => digest.written e.1) = used.dedup.rtake m.toNat := by
    rw [hused, rtake_map, ← h.keys_eq, List.map_map]
    rfl
  refine ⟨hkeys, ?_, h.number_inj, ?_, ?_, ?_⟩
  · have hlen := congrArg List.length hkeys
    rwa [List.length_map, length_rtake] at hlen
  · exact fun e => step_fst_of_raised
  · rintro text resource rfl e he hwritten
    exact h.step_get_snd he
      (hd.eq_of_written_eq (hcall _ (h.text_mem he)) (hnext text rfl) hwritten)
  · rintro text rfl
    refine ⟨rfl, _, rfl, contains_eq_true_iff.trans ?_, contains_eq_true_iff⟩
    refine exists_congr fun e => and_congr_right fun he => ?_
    rw [digest.stem_isPrefix_written_iff]
    exact ⟨fun heq => heq ▸ rfl,
      fun heq => (hd _ (hnext text rfl) _ (hcall _ (h.text_mem he)) heq).symm⟩

/-- The empty cache with room for two templates. -/
def roomForTwo : Cache := ⟨2, .standard, [], 0, by decide⟩

/-- The digest of a text that is the text itself, its colons and percent signs written otherwise. -/
def Digest.escaping : Digest where
  hash text := text.flatMap fun c =>
    if c = ':' then "%c".toList else if c = '%' then "%p".toList else [c]
  colon_notMem text := by
    rw [List.mem_flatMap]
    rintro ⟨c, -, hc⟩
    split at hc
    · revert hc; decide
    · split at hc
      · revert hc; decide
      · rename_i hne _
        exact hne (List.mem_singleton.1 hc).symm

/-- Calls for three texts, one of them twice, and a call that raises. -/
def Call.threeTexts : List Call :=
  [.get "SELECT 1".toList none, .get "SELECT 2".toList none, .get "SELECT (1".toList none,
    .get "SELECT 1".toList none, .get "SELECT 3".toList none]

theorem entries_run_eq_rtake_dedup_usedKeys_threeTexts :
    let d := roomForTwo.run Call.threeTexts
    ofCapacity? 2 .standard = some roomForTwo ∧
      Digest.escaping.Separates ((Call.threeTexts ++ [Call.contains "SELECT 2".toList]).filterMap
        Call.text?) ∧
      d.entries.map (fun e => Digest.escaping.written e.1) =
        ["SELECT 1:None".toList, "SELECT 3:None".toList] ∧
      d.size = 2 ∧ d.contains "SELECT 2".toList = false := by
  intro d
  have hc : ofCapacity? 2 .standard = some roomForTwo := rfl
  have hd : Digest.escaping.Separates
      ((Call.threeTexts ++ [Call.contains "SELECT 2".toList]).filterMap Call.text?) := by
    unfold Digest.Separates
    decide
  obtain ⟨hkeys, hsize, -, -, -, hfinds⟩ :=
    entries_run_eq_rtake_dedup_usedKeys hc Digest.escaping Call.threeTexts _ hd
  have hused : usedKeys (roomForTwo.transcript Call.threeTexts) =
      ["SELECT 1", "SELECT 2", "SELECT 1", "SELECT 3"].map fun t => ⟨t.toList, "None".toList⟩ := by
    with_unfolding_all rfl
  rw [hused] at hkeys hsize
  have hlast : d.entries.map (fun e => Digest.escaping.written e.1) =
      ["SELECT 1:None".toList, "SELECT 3:None".toList] := hkeys.trans (by decide)
  obtain ⟨-, b, hb, hfind, -⟩ := hfinds _ rfl
  cases hb
  refine ⟨hc, hd, hlast, hsize.trans (by decide), Bool.eq_false_iff.2 fun hfound => ?_⟩
  obtain ⟨e, he, hstem⟩ := hfind.1 hfound
  have hwritten := List.mem_map_of_mem (f := fun e => Digest.escaping.written e.1) he
  rw [hlast] at hwritten
  have hnone : ∀ k ∈ ["SELECT 1:None".toList, "SELECT 3:None".toList],
      ¬ Digest.escaping.stem "SELECT 2".toList <+: k := by decide
  exact hnone _ hwritten hstem

end Cache

end SqlTemplate
