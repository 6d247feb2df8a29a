import SqlTemplate.Value.Equality

/-!
# Values in JSON

`Json.parse` reads a value written in JSON. Besides the numbers of JSON there are `NaN` and the two
infinities; a number with a fraction or an exponent is a floating-point number and any other one a
whole number. Of several entries of an object with one key the last one counts. An error names its
place by line, column and offset.

Reading goes on by characters, and every step hands on what is left of the text together with its
offset. The nesting of values is bounded by the length of the text, and twice that length is handed
on as fuel.
-/

namespace SqlTemplate

namespace Json

/-- What is wrong with a text that is no JSON. -/
inductive Fault where
  | byteOrderMark
  | expectedValue
  | expectedName
  | expectedColon
  | expectedComma
  | extraData
  | openString
  | controlCharacter
  | unknownEscape
  | invalidCode
deriving DecidableEq, Repr

namespace Fault

def message : Fault → Text
  | byteOrderMark => "Unexpected UTF-8 BOM (decode using utf-8-sig)".toList
  | expectedValue => "Expecting value".toList
  | expectedName => "Expecting property name enclosed in double quotes".toList
  | expectedColon => "Expecting ':' delimiter".toList
  | expectedComma => "Expecting ',' delimiter".toList
  | extraData => "Extra data".toList
  | openString => "Unterminated string starting at".toList
  | controlCharacter => "Invalid control character at".toList
  | unknownEscape => "Invalid \\escape".toList
  | invalidCode => "Invalid \\uXXXX escape".toList

end Fault

/-- Why a text could not be read. -/
inductive Error where
  | fault (f : Fault) (offset : Nat)
  /-- A whole number with more digits than are read. -/
  | tooManyDigits (count : Nat)
deriving DecidableEq, Repr

namespace Error

/-- The text of an error in a text. -/
def message [Runtime] (source : Text) : Error → Text
  | fault f offset =>
    let before := source.take offset
    let line := before.count '\n' + 1
    let column := (before.reverse.takeWhile (· != '\n')).length + 1
    f.message ++ ": line ".toList ++ Decimal.ofNat line ++ " column ".toList ++
      Decimal.ofNat column ++ " (char ".toList ++ Decimal.ofNat offset ++ [')']
  | tooManyDigits count =>
    Decimal.limitMessage (": value has ".toList ++ Decimal.ofNat count ++ " digits".toList)

end Error

/-- What is left of a text, and its offset. -/
structure Rest where
  offset : Nat
  text : Text

namespace Rest

/-- What is left after a count of characters. -/
def drop (r : Rest) (count : Nat) : Rest := ⟨r.offset + count, r.text.drop count⟩

def isBlank (c : Char) : Bool := c == ' ' || c == '\t' || c == '\n' || c == '\r'

def skip (r : Rest) : Rest := r.drop (r.text.takeWhile isBlank).length

def fail {α : Type} (r : Rest) (f : Fault) : Except Error α := .error (.fault f r.offset)

end Rest

/-- The value of a digit in base sixteen. -/
def hexDigit? (c : Char) : Option Nat :=
  if c.isDigit then some (Decimal.digitValue c)
  else if 'a' ≤ c ∧ c ≤ 'f' then some (c.toNat - 'a'.toNat + 10)
  else if 'A' ≤ c ∧ c ≤ 'F' then some (c.toNat - 'A'.toNat + 10)
  else none

/-- The code unit of four digits in base sixteen, behind which the text goes on. -/
def codeUnit? : Text → Option Nat
  | a :: b :: c :: d :: _ :: _ => do
    let a ← hexDigit? a
    let b ← hexDigit? b
    let c ← hexDigit? c
    let d ← hexDigit? d
    return ((a * 16 + b) * 16 + c) * 16 + d
  | _ => none

/-- The character of an escape by a letter. -/
def escaped? : Char → Option Char
  | '"' => some '"'
  | '\\' => some '\\'
  | '/' => some '/'
  | 'b' => some '\x08'
  | 'f' => some '\x0c'
  | 'n' => some '\n'
  | 'r' => some '\r'
  | 't' => some '\t'
  | _ => none

/-- The code point of an escape by code units, and how many characters it takes behind its mark `u`.
Two halves of a pair are one character. -/
def ofCode (r : Rest) : Except Error (CodePoint × Nat) :=
  match codeUnit? (r.text.drop 1) with
  | none => r.fail .invalidCode
  | some high =>
    let single : Except Error (CodePoint × Nat) := .ok (.ofNat high, 4)
    if 0xD800 ≤ high ∧ high < 0xDC00 then
      match r.text.drop 5 with
      | '\\' :: 'u' :: tail =>
        match codeUnit? tail with
        | none => (r.drop 6).fail .invalidCode
        | some low =>
          if 0xDC00 ≤ low ∧ low < 0xE000 then
            .ok (.ofNat (0x10000 + (high - 0xD800) * 0x400 + (low - 0xDC00)), 10)
          else single
      | _ => single
    else single

/-- The rest of a string whose opening quote stands at the offset `opened`; `read` is what has been
read of it, last code point first. -/
def string (opened : Nat) : Nat → Rest → WideText → Except Error (WideText × Rest)
  | 0, _, _ => .error (.fault .openString opened)
  | fuel + 1, r, read =>
    match r.text with
    | [] => .error (.fault .openString opened)
    | '"' :: _ => .ok (read.reverse, r.drop 1)
    | ['\\'] => .error (.fault .openString opened)
    | '\\' :: 'u' :: _ =>
      match ofCode (r.drop 1) with
      | .ok (p, taken) => string opened fuel (r.drop (2 + taken)) (p :: read)
      | .error e => .error e
    | '\\' :: e :: _ =>
      match escaped? e with
      | some c => string opened fuel (r.drop 2) (.char c :: read)
      | none => r.fail .unknownEscape
    | c :: _ =>
      if c.toNat < 32 then r.fail .controlCharacter
      else string opened fuel (r.drop 1) (.char c :: read)

/-- The whole part of a number: a zero, or digits that do not begin with one. -/
def wholePart? : Text → Option Text
  | '0' :: _ => some ['0']
  | t =>
    match (Decimal.takeDigits t).1 with
    | [] => none
    | digits => some digits

/-- The fractional digits of a number behind its point. -/
def fraction : Text → Text
  | '.' :: t => (Decimal.takeDigits t).1
  | _ => []

/-- The exponent of a number: its sign and its digits, and how many characters it takes. -/
def exponent? : Text → Option (Bool × Text × Nat)
  | e :: t =>
    if e == 'e' || e == 'E' then
      let (negative, signed, t) :=
        match t with
        | '-' :: t => (true, 1, t)
        | '+' :: t => (false, 1, t)
        | t => (false, 0, t)
      match (Decimal.takeDigits t).1 with
      | [] => none
      | digits => some (negative, digits, 1 + signed + digits.length)
    else none
  | [] => none

/-- The number that a text begins with. -/
def number [Runtime] (r : Rest) : Except Error (Value × Rest) :=
  let negative := r.text.head? == some '-'
  let unsigned := if negative then r.text.drop 1 else r.text
  match wholePart? unsigned with
  | none => r.fail .expectedValue
  | some whole =>
    let behindWhole := unsigned.drop whole.length
    let fractional := fraction behindWhole
    let point := if fractional.isEmpty then 0 else 1 + fractional.length
    let exponent := exponent? (behindWhole.drop point)
    let taken := (if negative then 1 else 0) + whole.length + point
    if fractional.isEmpty && exponent.isNone then
      if Decimal.overLimit whole.length then .error (.tooManyDigits whole.length)
      else
        let n : Int := Decimal.ofDigits whole
        .ok (.int (if negative then -n else n), r.drop taken)
    else
      let (power, size) : Int × Nat :=
        match exponent with
        | some (true, digits, size) => (-(Decimal.ofDigits digits : Int), size)
        | some (false, digits, size) => (Decimal.ofDigits digits, size)
        | none => (0, 0)
      let x := Binary64.ofDecimal negative (Decimal.ofDigits (whole ++ fractional))
        (power - fractional.length)
      .ok (.float x, r.drop (taken + size))

def constants : List (Text × Value) :=
  [("null".toList, .null), ("true".toList, .bool true), ("false".toList, .bool false),
    ("NaN".toList, .float .nan), ("Infinity".toList, .float (.infinite false)),
    ("-Infinity".toList, .float (.infinite true))]

/-- The word or the number that a text begins with. -/
def scalar [Runtime] (r : Rest) : Except Error (Value × Rest) :=
  match constants.find? fun (word, _) => word.isPrefixOf r.text with
  | some (word, v) => .ok (v, r.drop word.length)
  | none => number r

mutual

/-- The value that a text begins with. -/
def value [Runtime] (fuel : Nat) (r : Rest) : Except Error (Value × Rest) :=
  match fuel with
  | 0 => r.fail .expectedValue
  | fuel + 1 =>
    match r.text with
    | '"' :: _ => do
      let (t, r) ← string r.offset (r.text.length + 1) (r.drop 1) []
      return (.text t, r)
    | '[' :: _ =>
      let inner := (r.drop 1).skip
      if inner.text.head? = some ']' then .ok (.sequence .list [], inner.drop 1)
      else do
        let (items, r) ← items fuel inner
        return (.sequence .list items, r)
    | '\x7b' :: _ =>
      let inner := (r.drop 1).skip
      if inner.text.head? = some '\x7d' then .ok (.dictionary [], inner.drop 1)
      else do
        let (entries, r) ← entries fuel inner
        return (.ofEntries entries, r)
    | _ => scalar r

/-- The elements of an array, of which there is at least one, and its closing bracket. -/
def items [Runtime] (fuel : Nat) (r : Rest) : Except Error (List Value × Rest) :=
  match fuel with
  | 0 => r.fail .expectedValue
  | fuel + 1 => do
    let (v, r) ← value fuel r
    let r := r.skip
    match r.text with
    | ']' :: _ => return ([v], r.drop 1)
    | ',' :: _ =>
      let (vs, r) ← items fuel (r.drop 1).skip
      return (v :: vs, r)
    | _ => r.fail .expectedComma

/-- The entries of an object, of which there is at least one, and its closing brace. -/
def entries [Runtime] (fuel : Nat) (r : Rest) : Except Error (List (WideText × Value) × Rest) :=
  match fuel with
  | 0 => r.fail .expectedName
  | fuel + 1 =>
    if r.text.head? ≠ some '"' then r.fail .expectedName
    else do
      let (name, r) ← string r.offset (r.text.length + 1) (r.drop 1) []
      let r := r.skip
      if r.text.head? ≠ some ':' then r.fail .expectedColon
      else
        let (v, r) ← value fuel (r.drop 1).skip
        let r := r.skip
        match r.text with
        | '\x7d' :: _ => return ([(name, v)], r.drop 1)
        | ',' :: _ =>
          let (more, r) ← entries fuel (r.drop 1).skip
          return ((name, v) :: more, r)
        | _ => r.fail .expectedComma

end

/-- The value that a whole text stands for. -/
def parse [Runtime] (t : Text) : Except Error Value :=
  let start : Rest := ⟨0, t⟩
  if t.head? = some '\ufeff' then start.fail .byteOrderMark
  else
    match value (2 * t.length + 2) start.skip with
    | .error e => .error e
    | .ok (v, r) => if r.skip.text.isEmpty then .ok v else r.skip.fail .extraData

end Json

end SqlTemplate
