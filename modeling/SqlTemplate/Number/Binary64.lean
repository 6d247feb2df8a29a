import SqlTemplate.Number.Digit

/-!
# Binary floating-point numbers

A number of the 64-bit binary format is a signed significand below `2 ^ 53` times a power of two, an
infinity, or not a number. All arithmetic is exact on natural numbers: `ofRatio` rounds a quotient
to the nearest number of the format, ties to the even significand, and `ofDecimal` rounds a decimal
number through it. Finite numbers are kept with the largest significand that the format allows, so
two finite numbers of one sign are equal exactly when their fields are.
-/

namespace SqlTemplate

/-- The quotient of two natural numbers, rounded to the nearest whole number, ties to even. -/
def roundHalfEven (num den : Nat) : Nat :=
  let q := num / den
  let twice := 2 * (num % den)
  if twice < den then q else if den < twice then q + 1 else q + q % 2

/-- A number of the 64-bit binary format. -/
inductive Binary64 where
  | finite (negative : Bool) (significand : Nat) (exponent : Int)
  | infinite (negative : Bool)
  | nan
deriving DecidableEq, Repr

namespace Binary64

/-- The least exponent of a significand in units of the last place. -/
def minExponent : Int := -1074

/-- The greatest exponent of a significand in units of the last place. -/
def maxExponent : Int := 971

/-- The least significand of full precision. -/
def fullSignificand : Nat := Nat.pow 2 52

def zero (negative : Bool) : Binary64 := finite negative 0 minExponent

/-- The quotient `num / den` measured in units `2 ^ exponent`, as numerator and denominator. -/
def inUnits (num den : Nat) (exponent : Int) : Nat × Nat :=
  match exponent with
  | .ofNat e => (num, den * Nat.pow 2 e)
  | .negSucc e => (num * Nat.pow 2 (e + 1), den)

/-- The exponent for which the quotient `num / den` has a significand of full precision, or the
least exponent if that is greater. -/
def exponentOf (num den : Nat) : Int :=
  let guess : Int := (Nat.log2 num : Int) - (Nat.log2 den : Int) - 52
  let (n, d) := inUnits num den guess
  max minExponent (if n < fullSignificand * d then guess - 1 else guess)

/-- The number nearest to `num / den`, of two equally near ones the one with the even significand.
Beyond the largest finite number this is the infinity. -/
def ofRatio (negative : Bool) (num den : Nat) : Binary64 :=
  if num = 0 then zero negative
  else
    let exponent := exponentOf num den
    let (n, d) := inUnits num den exponent
    let significand := roundHalfEven n d
    let (significand, exponent) :=
      if significand = 2 * fullSignificand then (fullSignificand, exponent + 1)
      else (significand, exponent)
    if maxExponent < exponent then infinite negative else finite negative significand exponent

/-- The number nearest to `digits * 10 ^ exponent`. Far outside the range of the format the power of
ten is not computed. -/
def ofDecimal (negative : Bool) (digits : Nat) (exponent : Int) : Binary64 :=
  if digits = 0 then zero negative
  else
    let magnitude : Int := (Decimal.ofNat digits).length + exponent
    if 310 < magnitude then infinite negative
    else if magnitude < -330 then zero negative
    else
      match exponent with
      | .ofNat e => ofRatio negative (digits * Nat.pow 10 e) 1
      | .negSucc e => ofRatio negative digits (Nat.pow 10 (e + 1))

/-- The number nearest to a whole number. -/
def ofInt (i : Int) : Binary64 := ofRatio (i < 0) i.natAbs 1

/-- The absolute value of a finite number, as numerator and denominator. -/
def ratio (significand : Nat) (exponent : Int) : Nat × Nat :=
  match exponent with
  | .ofNat e => (significand * Nat.pow 2 e, 1)
  | .negSucc e => (significand, Nat.pow 2 (e + 1))

/-- Equality of numbers: the two zeros are equal, and what is not a number equals nothing. -/
def numEq : Binary64 → Binary64 → Bool
  | finite n m e, finite n' m' e' => (m == 0 && m' == 0) || (n == n' && m == m' && e == e')
  | infinite n, infinite n' => n == n'
  | _, _ => false

/-- Whether the number is the given whole number. -/
def isInt : Binary64 → Int → Bool
  | finite negative m e, i =>
    let (num, den) := ratio m e
    num == i.natAbs * den && (i == 0 || negative == (i < 0))
  | _, _ => false

@[simp] theorem numEq_nan (x : Binary64) : numEq x nan = false := by cases x <;> rfl

theorem numEq_self {x : Binary64} (h : x ≠ nan) : numEq x x = true := by
  cases x <;> simp_all [numEq]

theorem numEq_comm (x y : Binary64) : numEq x y = numEq y x := by
  cases x <;> cases y <;> grind [numEq]

/-- Whether a text is the given lower-case word in any case of its letters. -/
def isWordIgnoringCase (word t : Text) : Bool := t.map Char.toLower == word

/-- Decimal digits in which single underscores may stand between two digits. -/
def ungrouped? : Text → Option Text
  | [] => some []
  | [c] => if c.isDigit then some [c] else none
  | c :: '_' :: d :: t =>
    if c.isDigit && d.isDigit then (ungrouped? (d :: t)).map (c :: ·) else none
  | c :: d :: t => if c.isDigit then (ungrouped? (d :: t)).map (c :: ·) else none

/-- The exponent after the mark `e`: digits with an optional sign. -/
def exponent? (t : Text) : Option Int :=
  let (negative, digits) :=
    match t with
    | '-' :: r => (true, r)
    | '+' :: r => (false, r)
    | r => (false, r)
  if digits.isEmpty then none
  else (ungrouped? digits).map fun ds =>
    if negative then -(Decimal.ofDigits ds : Int) else Decimal.ofDigits ds

/-- A decimal number without sign: whole digits, a point and fractional digits, of which one part
may be missing, and an exponent. -/
def unsigned? (negative : Bool) (t : Text) : Option Binary64 :=
  let (mantissa, tail) := t.span fun c => c != 'e' && c != 'E'
  let (whole, fraction) := mantissa.span (· != '.')
  let fraction := fraction.drop 1
  if whole.isEmpty && fraction.isEmpty then none
  else do
    let whole ← ungrouped? whole
    let fraction ← ungrouped? fraction
    let power ←
      match tail with
      | [] => some 0
      | _ :: r => exponent? r
    return ofDecimal negative (Decimal.ofDigits (whole ++ fraction)) (power - fraction.length)

/-- The number that a text stands for: a decimal number in the digits of any script, `inf`,
`infinity` or `nan` in any case, with an optional sign and blanks around it. -/
def ofText? (t : Text) : Option Binary64 :=
  let t := (strip t).map Decimal.plainDigit
  let (negative, body) :=
    match t with
    | '-' :: r => (true, r)
    | '+' :: r => (false, r)
    | r => (false, r)
  if isWordIgnoringCase "inf".toList body || isWordIgnoringCase "infinity".toList body then
    some (infinite negative)
  else if isWordIgnoringCase "nan".toList body then some nan
  else unsigned? negative body

end Binary64

end SqlTemplate
