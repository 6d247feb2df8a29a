import SqlTemplate.Text.Blank

/-!
# Quoted literals

A literal stands between two quotes of one kind, and a quote inside it is written twice. `closing?`
reads a literal after its opening quote. Doubled quotes are paired from the left; where no quote is
left over to close the literal, the first quote of the last pair closes it instead, so the only text
without any closing is one without any quote of the kind. `pairedClosing?` is the strict reading, in
which a doubled quote never closes a literal. `encode` writes a literal and `decode` undoes it.
-/

namespace SqlTemplate

/-- The two kinds of quotes. -/
inductive Quote where
  | single
  | double
deriving DecidableEq, Repr

namespace Quote

def char : Quote → Char
  | single => '\''
  | double => '"'

def ofChar? (c : Char) : Option Quote :=
  if c = '\'' then some single else if c = '"' then some double else none

@[simp] theorem ofChar?_char (q : Quote) : ofChar? q.char = some q := by cases q <;> rfl

theorem char_eq_of_ofChar? {c : Char} {q : Quote} (h : ofChar? c = some q) : q.char = c := by
  unfold ofChar? at h
  split at h
  · simp_all [char, ← Option.some.inj h]
  · split at h
    · simp_all [char, ← Option.some.inj h]
    · simp at h

end Quote

namespace Quoted

/-- The rest of a literal after its opening quote `q`, closing quote included, and what follows the
literal. A doubled quote is passed over as long as another quote closes the literal later on. -/
def closing? (q : Char) : Text → Option (Text × Text)
  | [] => none
  | [c] => if c = q then some ([c], []) else none
  | c :: d :: t =>
    if c = q then
      if d = q then
        match closing? q t with
        | some (body, rest) => some (c :: d :: body, rest)
        | none => some ([c], d :: t)
      else some ([c], d :: t)
    else (closing? q (d :: t)).map fun (body, rest) => (c :: body, rest)

/-- The rest of a literal after its opening quote `q` when a doubled quote never closes it. -/
def pairedClosing? (q : Char) : Text → Option (Text × Text)
  | [] => none
  | [c] => if c = q then some ([c], []) else none
  | c :: d :: t =>
    if c = q then
      if d = q then (pairedClosing? q t).map fun (body, rest) => (c :: d :: body, rest)
      else some ([c], d :: t)
    else (pairedClosing? q (d :: t)).map fun (body, rest) => (c :: body, rest)

/-- The text between quotes `q`, with every quote of that kind doubled. -/
def encodeBody (q : Char) : Text → Text
  | [] => []
  | c :: t => if c = q then c :: c :: encodeBody q t else c :: encodeBody q t

/-- A literal that holds the given text. -/
def encode (q : Quote) (t : Text) : Text := q.char :: (encodeBody q.char t ++ [q.char])

/-- The text that the inside of a literal stands for: every doubled quote, from the left, is one. -/
def decodeBody (q : Char) : Text → Text
  | [] => []
  | [c] => [c]
  | c :: d :: t => if c = q ∧ d = q then c :: decodeBody q t else c :: decodeBody q (d :: t)

/-- The literal at the start of a text, quotes included, and what follows it. -/
def take? : Text → Option (Text × Text)
  | [] => none
  | c :: t =>
    match Quote.ofChar? c with
    | some q => (closing? q.char t).map fun (body, rest) => (c :: body, rest)
    | none => none

/-- The text that a whole literal stands for. -/
def decode : Text → Text
  | [] => []
  | q :: t => decodeBody q t.dropLast

/-- A closed literal and what follows it are the text. -/
theorem append_of_closing? {q : Char} {t body rest : Text}
    (h : closing? q t = some (body, rest)) : t = body ++ rest := by
  fun_induction closing? q t generalizing body rest with
  | case1 => simp at h
  | case2 => simp_all
  | case3 => simp at h
  | case4 t b r hb ih =>
    obtain ⟨rfl, rfl⟩ := Prod.mk.inj (Option.some.inj h)
    simp [ih hb]
  | case5 t hb ih =>
    obtain ⟨rfl, rfl⟩ := Prod.mk.inj (Option.some.inj h)
    rfl
  | case6 d t hd =>
    obtain ⟨rfl, rfl⟩ := Prod.mk.inj (Option.some.inj h)
    rfl
  | case7 c d t hc ih =>
    obtain ⟨⟨b, r⟩, hb, he⟩ := Option.map_eq_some_iff.1 h
    obtain ⟨rfl, rfl⟩ := Prod.mk.inj he
    simp [ih hb]

/-- A closed literal ends with its quote. -/
theorem body_ne_nil_of_closing? {q : Char} {t body rest : Text}
    (h : closing? q t = some (body, rest)) : body ≠ [] := by
  rw [closing?.eq_def] at h
  split at h
  · simp at h
  · split at h
    · simp_all [eq_comm]
    · simp at h
  · split at h
    · split at h
      · split at h <;> (obtain ⟨rfl, rfl⟩ := Prod.mk.inj (Option.some.inj h); simp)
      · obtain ⟨rfl, rfl⟩ := Prod.mk.inj (Option.some.inj h); simp
    · obtain ⟨⟨b, r⟩, _, he⟩ := Option.map_eq_some_iff.1 h
      obtain ⟨rfl, rfl⟩ := Prod.mk.inj he
      simp

/-- Only a text without the quote leaves a literal open. -/
theorem closing?_eq_none_iff {q : Char} {t : Text} : closing? q t = none ↔ q ∉ t := by
  fun_induction closing? q t with
  | case1 => simp
  | case2 => simp_all
  | case3 => simp_all [eq_comm]
  | case4 => simp_all
  | case5 => simp_all
  | case6 => simp_all
  | case7 c d t hc ih => rw [Option.map_eq_none_iff, ih]; simp_all [eq_comm]

@[simp] theorem decodeBody_encodeBody (q : Char) (t : Text) :
    decodeBody q (encodeBody q t) = t := by
  induction t with
  | nil => rfl
  | cons c t ih =>
    by_cases h : c = q
    · simp [encodeBody, decodeBody, h, ih]
    · simp only [encodeBody, h, if_false]
      cases he : encodeBody q t with
      | nil => simp_all [decodeBody]
      | cons d u => simp_all [decodeBody]

end Quoted

end SqlTemplate
