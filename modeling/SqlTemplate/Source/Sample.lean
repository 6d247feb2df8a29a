import SqlTemplate.Source.Delimiter

/-!
# Sample values

A directive comment may be followed at once by a sample value, which makes the template a statement
that can be run as it is and which the directive replaces. A sample is a parenthesised span, a
quoted literal or a run of characters that neither separate words nor open or close anything.
-/

namespace SqlTemplate

namespace Sample

/-- The span that ends with the parenthesis which brings the count of open parentheses back to zero,
and what follows it. Quoted literals are passed over, a doubled quote being part of its literal, but
comments are not: `quote` is the quote of the literal that is open where the text begins. -/
def balanced? (depth : Int) (quote : Option Char) : Text → Option (Text × Text)
  | [] => none
  | c :: t =>
    match quote with
    | some q =>
      if c = q then
        match t with
        | d :: u =>
          if d = q then (balanced? depth quote u).map fun (s, r) => (c :: d :: s, r)
          else (balanced? depth none (d :: u)).map fun (s, r) => (c :: s, r)
        | [] => none
      else (balanced? depth quote t).map fun (s, r) => (c :: s, r)
    | none =>
      if c = '\'' ∨ c = '"' then (balanced? depth (some c) t).map fun (s, r) => (c :: s, r)
      else if c = '(' then (balanced? (depth + 1) none t).map fun (s, r) => (c :: s, r)
      else if c = ')' then
        if depth = 1 then some ([c], t)
        else (balanced? (depth - 1) none t).map fun (s, r) => (c :: s, r)
      else (balanced? depth none t).map fun (s, r) => (c :: s, r)

/-- Whether a character may stand in an unquoted sample whatever follows it. -/
def isBare (c : Char) : Bool := !isBlank c && !("(),;'\"/*-".toList.contains c)

/-- A longest unquoted sample and what follows it. A dash, a slash or a star is part of the sample
unless it begins a comment or ends one. -/
def bare : Text → Text × Text
  | [] => ([], [])
  | c :: t =>
    if isBare c || (c == '-' && t.head? != some '-') || (c == '/' && t.head? != some '*') ||
        (c == '*' && t.head? != some '/') then
      let (s, r) := bare t
      (c :: s, r)
    else ([], c :: t)

/-- The quoted or unquoted sample that a text begins with, and what follows it. -/
def simple? (t : Text) : Option (Text × Text) :=
  match Quoted.take? t with
  | some found => some found
  | none =>
    match bare t with
    | ([], _) => none
    | found => some found

/-- What follows a directive comment. -/
inductive Reading where
  /-- No sample at all. -/
  | absent
  /-- A sample, and what follows it. -/
  | taken (sample rest : Text)
  /-- A parenthesis that is never closed. -/
  | unclosed
deriving DecidableEq, Repr

/-- Reads the sample that a text begins with. -/
def read (t : Text) : Reading :=
  if t.head? = some '(' then
    match balanced? 0 none t with
    | some (s, r) => .taken s r
    | none => .unclosed
  else
    match simple? t with
    | some (s, r) => .taken s r
    | none => .absent

theorem append_bare (t : Text) : (bare t).1 ++ (bare t).2 = t := by
  induction t with
  | nil => rfl
  | cons c t ih =>
    rw [bare]
    split <;> simp [ih]

/-- A balanced span and what follows it are the text. -/
theorem append_of_balanced? {depth : Int} {quote : Option Char} {t s r : Text}
    (h : balanced? depth quote t = some (s, r)) : t = s ++ r := by
  fun_induction balanced? depth quote t generalizing s r
  all_goals first
    | (simp at h; done)
    | (obtain ⟨rfl, rfl⟩ := Prod.mk.inj (Option.some.inj h); rfl)
    | (obtain ⟨⟨b, u⟩, hb, he⟩ := Option.map_eq_some_iff.1 h
       obtain ⟨rfl, rfl⟩ := Prod.mk.inj he
       rename_i ih
       simp [ih hb])

theorem append_of_simple? {t s r : Text} (h : simple? t = some (s, r)) : t = s ++ r := by
  unfold simple? at h
  split at h
  · rename_i found hq
    obtain rfl := Option.some.inj h
    unfold Quoted.take? at hq
    split at hq
    · simp at hq
    · split at hq
      · obtain ⟨⟨b, u⟩, hb, he⟩ := Option.map_eq_some_iff.1 hq
        obtain ⟨rfl, rfl⟩ := Prod.mk.inj he
        simp [Quoted.append_of_closing? hb]
      · simp at hq
  · split at h
    · simp at h
    · have := append_bare t
      simp_all

/-- A sample and what follows it are the text. -/
theorem append_of_read {t s r : Text} (h : read t = .taken s r) : t = s ++ r := by
  unfold read at h
  split at h
  · split at h
    · rename_i hb
      obtain ⟨rfl, rfl⟩ := Reading.taken.inj h
      exact append_of_balanced? hb
    · simp at h
  · split at h
    · rename_i hb
      obtain ⟨rfl, rfl⟩ := Reading.taken.inj h
      exact append_of_simple? hb
    · simp at h

end Sample

end SqlTemplate
