import SqlTemplate.Number.Decimal

/-!
# Code points

The text of a value is made of code points. Most of them are characters; the others are halves of
surrogate pairs that stand alone, which a text may hold but which no encoding has room for.

`WideText.ofText` takes a text of characters as a text of code points and `WideText.toText?` takes
it back (`toText?_ofText`), unless there are halves in it. `WideText.legible` shows every half as a
replacement character, and `WideText.loneHalves?` finds the first ones that keep a text from being
encoded: it finds some just when `toText?` gives nothing (`loneHalves?_eq_none_iff`).
-/

namespace SqlTemplate

/-- A code point: a character, or a half of a surrogate pair, counted from U+D800 on. -/
inductive CodePoint where
  | char (c : Char)
  | half (offset : Fin 2048)
deriving DecidableEq, Repr

namespace CodePoint

def ofNat (n : Nat) : CodePoint :=
  if h : 0xD800 ≤ n ∧ n < 0xE000 then half ⟨n - 0xD800, by omega⟩ else char (Char.ofNat n)

/-- The character of a code point, if it is one. -/
def char? : CodePoint → Option Char
  | char c => some c
  | half _ => none

/-- A code point as a character that can be shown. -/
def legible (p : CodePoint) : Char := p.char?.getD '\ufffd'

def halfNumber (offset : Fin 2048) : Nat := 0xD800 + offset

end CodePoint

abbrev WideText := List CodePoint

/-- Halves of pairs that stand alone in a text, one behind the other: the first of them, its place,
and how many there are. -/
structure LoneHalves where
  first : Fin 2048
  start : Nat
  count : Nat
deriving DecidableEq, Repr

namespace LoneHalves

/-- Why a text with lone halves cannot be encoded. -/
def message (l : LoneHalves) : Text :=
  "'utf-8' codec can't encode ".toList ++
    (if l.count = 1 then
      "character '\\u".toList ++ Decimal.hexadecimal 4 (CodePoint.halfNumber l.first) ++
        "' in position ".toList ++ Decimal.ofNat l.start
    else
      "characters in position ".toList ++ Decimal.ofNat l.start ++
        '-' :: Decimal.ofNat (l.start + l.count - 1)) ++
    ": surrogates not allowed".toList

end LoneHalves

namespace WideText

def ofText (t : Text) : WideText := t.map .char

/-- The characters of a text, if there is nothing else in it. -/
def toText? (t : WideText) : Option Text := t.mapM CodePoint.char?

/-- A text that can be shown, with a replacement character for every half of a pair. -/
def legible (t : WideText) : Text := t.map CodePoint.legible

/-- The first lone halves of a text that begins at a place. -/
def loneHalves? (start : Nat) : WideText → Option LoneHalves
  | [] => none
  | .char _ :: t => loneHalves? (start + 1) t
  | .half offset :: t => some ⟨offset, start, 1 + (t.takeWhile fun p => p.char?.isNone).length⟩

/-- What is written of elements, one behind the other, if each of them can be written. -/
def joined? {α : Type} (write? : α → Option WideText) : List α → Option WideText
  | [] => some []
  | a :: as => do
    let t ← write? a
    let rest ← joined? write? as
    return t ++ rest

@[simp] theorem ofText_nil : ofText [] = [] := rfl

@[simp] theorem ofText_append (s t : Text) : ofText (s ++ t) = ofText s ++ ofText t := by
  simp [ofText]

@[simp] theorem length_ofText (t : Text) : (ofText t).length = t.length := by simp [ofText]

@[simp] theorem legible_ofText (t : Text) : legible (ofText t) = t := by
  have : CodePoint.legible ∘ CodePoint.char = id := rfl
  simp [legible, ofText, this]

@[simp] theorem toText?_nil : toText? [] = some [] := rfl

theorem toText?_char (c : Char) (t : WideText) :
    toText? (.char c :: t) = (toText? t).map (c :: ·) := by
  simp only [toText?, List.mapM_cons, CodePoint.char?]
  cases t.mapM CodePoint.char? <;> rfl

theorem toText?_half (offset : Fin 2048) (t : WideText) : toText? (.half offset :: t) = none := by
  simp [toText?, CodePoint.char?]

/-- A text of characters is found again among the texts of code points. -/
@[simp] theorem toText?_ofText (t : Text) : toText? (ofText t) = some t := by
  induction t with
  | nil => rfl
  | cons c t ih =>
    have : ofText (c :: t) = .char c :: ofText t := rfl
    rw [this, toText?_char, ih]
    rfl

/-- A text has no lone halves just when it is made of characters. -/
theorem loneHalves?_eq_none_iff (start : Nat) (t : WideText) :
    loneHalves? start t = none ↔ (toText? t).isSome := by
  induction t generalizing start with
  | nil => simp [loneHalves?]
  | cons p t ih =>
    cases p with
    | char c => simp [loneHalves?, toText?_char, ih]
    | half offset => simp [loneHalves?, toText?_half]

end WideText

end SqlTemplate
