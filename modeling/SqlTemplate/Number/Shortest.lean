import SqlTemplate.Number.Binary64

/-!
# Shortest decimal forms

`Shortest.digits` finds the decimal number with the fewest digits that rounds to a given binary
number; of several with that many digits it takes the nearest, and of two equally near ones the one
with the even last digit. For each count of digits only the two neighbours of the exact value on
that decimal grid have to be tried. `Layout` says how the digits are laid out as a text, and
`Binary64.fixed` writes a number with a fixed count of places instead.
-/

namespace SqlTemplate

/-- The decimal number `coefficient * 10 ^ -scale`. -/
structure Scaled where
  coefficient : Nat
  scale : Int
deriving DecidableEq, Repr

namespace Scaled

/-- The binary number nearest to a decimal one. -/
def nearest (d : Scaled) : Binary64 := .ofDecimal false d.coefficient (-d.scale)

end Scaled

namespace Shortest

/-- The quotient `num / den` in units `10 ^ -scale`, as numerator and denominator. -/
def inTens (num den : Nat) (scale : Int) : Nat × Nat :=
  match scale with
  | .ofNat s => (num * Nat.pow 10 s, den)
  | .negSucc s => (num, den * Nat.pow 10 (s + 1))

/-- How many digits the whole part of `num / den` has; for a value below one, minus the count of
zeros after the point. -/
def magnitude (num den : Nat) : Int :=
  let binary : Int := (Nat.log2 num : Int) - (Nat.log2 den : Int) - 1
  let guess := Int.fdiv (binary * 30103) 100000
  let reaches (k : Int) : Bool :=
    let (n, d) := inTens num den (-k)
    d ≤ n
  if reaches (guess + 1) then guess + 2 else if reaches guess then guess + 1 else guess

/-- The candidate with `count` digits for the positive number `x = num / den`: of the two
neighbours of the exact value on the decimal grid the nearer one that rounds to `x`. -/
def candidate? (x : Binary64) (num den : Nat) (count : Nat) : Option Scaled :=
  let scale := (count : Int) - magnitude num den
  let (n, d) := inTens num den scale
  let low : Scaled := ⟨n / d, scale⟩
  let high : Scaled := ⟨n / d + 1, scale⟩
  let twice := 2 * (n % d)
  let lowFirst := twice < d || (twice == d && (n / d) % 2 == 0)
  let order := if lowFirst then [low, high] else [high, low]
  order.find? fun c => c.nearest == x

/-- The shortest decimal form of the positive number `significand * 2 ^ exponent`; seventeen digits
always suffice. -/
def digits (significand : Nat) (exponent : Int) : Scaled :=
  let (num, den) := Binary64.ratio significand exponent
  let x := Binary64.finite false significand exponent
  ((List.range 17).findSome? fun k => candidate? x num den (k + 1)).getD ⟨0, 0⟩

end Shortest

/-- How the digits of a number are laid out. A number is written with a point as long as the
position of the point, counted from its first digit, lies in the given range, and with an exponent
otherwise. A whole number that is written without an exponent has an ending of its own. -/
structure Layout where
  lowest : Int
  highest : Int
  exponentWidth : Nat
  wholeEnding : Text

namespace Layout

/-- The layout of displayed numbers: a point for magnitudes from `0.0001` up to below
`10000000000000000`, and exponents of at least two digits. -/
def displayed : Layout := ⟨-3, 16, 2, ".0".toList⟩

/-- Digits with a point after the first `point` of them, filled up with zeros. -/
def positional (layout : Layout) (digits : Text) (point : Int) : Text :=
  if point ≤ 0 then "0.".toList ++ List.replicate (-point).toNat '0' ++ digits
  else
    let whole := digits.take point.toNat
    let fraction := digits.drop point.toNat
    whole ++ List.replicate (point.toNat - digits.length) '0' ++
      (if fraction.isEmpty then layout.wholeEnding else '.' :: fraction)

/-- Digits with a point after the first one, and the exponent of ten. -/
def scientific (layout : Layout) (digits : Text) (point : Int) : Text :=
  let exponent := point - 1
  let power := Decimal.ofNat exponent.natAbs
  let fraction := digits.drop 1
  digits.take 1 ++ (if fraction.isEmpty then [] else '.' :: fraction) ++
    ['e', if exponent < 0 then '-' else '+'] ++
    List.replicate (layout.exponentWidth - power.length) '0' ++ power

def render (layout : Layout) (d : Scaled) : Text :=
  let all := Decimal.ofNat d.coefficient
  let point : Int := all.length - d.scale
  let digits := (all.reverse.dropWhile (· == '0')).reverse
  if layout.lowest ≤ point ∧ point ≤ layout.highest then layout.positional digits point
  else layout.scientific digits point

end Layout

namespace Binary64

/-- The sign that is written in front of a number. -/
def sign (negative : Bool) : Text := if negative then ['-'] else []

/-- A number with the fewest digits that read back as the same number. -/
def write (layout : Layout) : Binary64 → Text
  | finite negative 0 _ => sign negative ++ '0' :: layout.wholeEnding
  | finite negative m e => sign negative ++ layout.render (Shortest.digits m e)
  | infinite negative => sign negative ++ "inf".toList
  | nan => "nan".toList

def display (x : Binary64) : Text := x.write .displayed

/-- A number rounded to `places` decimal places (at least one), ties to even. -/
def fixed (places : Nat) : Binary64 → Text
  | finite negative m e =>
    let (num, den) := ratio m e
    let digits := Decimal.ofNat (roundHalfEven (num * Nat.pow 10 places) den)
    let padded := List.replicate (places + 1 - digits.length) '0' ++ digits
    let whole := padded.length - places
    sign negative ++ padded.take whole ++ ['.'] ++ padded.drop whole
  | infinite negative => sign negative ++ "inf".toList
  | nan => "nan".toList

end Binary64

end SqlTemplate
