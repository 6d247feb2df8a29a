import SqlTemplate.Text.Blank

/-!
# Decimal digits

Whole numbers are written in base ten without leading zeros and with a minus sign in front of the
negative ones. `ofDigits` is the number that a text of decimal digits stands for and `takeDigits`
splits a text after its leading digits. A runtime may limit the digits of the numbers that are read
and written as values, and `write?` gives nothing for a number that has more of them.
-/

namespace SqlTemplate

/-- The settings of the runtime that the program runs on. As an inferred parameter they go along with
all that reads or writes values. -/
class Runtime where
  /-- The most digits of a whole number that is read or written as a value, or zero if there may be any
  number of them. -/
  digitLimit : Nat

/-- The settings that a runtime starts with. -/
instance Runtime.standard : Runtime := ⟨4300⟩

namespace Decimal

/-- The decimal digits of a natural number, without leading zeros. -/
def ofNat (n : Nat) : Text := Nat.toDigits 10 n

/-- The decimal digits of a whole number, after a minus sign if it is negative. -/
def ofInt : Int → Text
  | .ofNat n => ofNat n
  | .negSucc n => '-' :: ofNat (n + 1)

/-- Whether these are too many digits. -/
def overLimit [Runtime] (digits : Nat) : Bool :=
  Runtime.digitLimit != 0 && Runtime.digitLimit < digits

/-- A whole number as a value is written: not at all if it has too many digits. A minus sign is no
digit. -/
def write? [Runtime] (i : Int) : Option Text :=
  if overLimit (ofNat i.natAbs).length then none else some (ofInt i)

/-- The text of the error on a whole number with too many digits, with what is to be said of that
number. -/
def limitMessage [Runtime] (detail : Text) : Text :=
  "Exceeds the limit (".toList ++ ofNat Runtime.digitLimit ++
    " digits) for integer string conversion".toList ++ detail ++
    "; use sys.set_int_max_str_digits() to increase the limit".toList

/-- The digits of `n` in base sixteen, filled up with zeros to `width` digits. -/
def hexadecimal (width n : Nat) : Text :=
  let digits := Nat.toDigits 16 n
  List.replicate (width - digits.length) '0' ++ digits

/-- The number that a character stands for as a decimal digit. -/
def digitValue (c : Char) : Nat := c.toNat - '0'.toNat

/-- The number that a text of decimal digits stands for. -/
def ofDigits (digits : Text) : Nat := digits.foldl (fun n c => 10 * n + digitValue c) 0

/-- The leading decimal digits of a text, and what follows them. -/
def takeDigits (t : Text) : Text × Text := (t.takeWhile Char.isDigit, t.dropWhile Char.isDigit)

@[simp] theorem ofDigits_nil : ofDigits [] = 0 := rfl

theorem ofDigits_append_singleton (digits : Text) (c : Char) :
    ofDigits (digits ++ [c]) = 10 * ofDigits digits + digitValue c := by
  simp [ofDigits]

/-- Nothing of a text is lost by splitting it after its leading digits. -/
theorem append_takeDigits (t : Text) : (takeDigits t).1 ++ (takeDigits t).2 = t :=
  List.takeWhile_append_dropWhile

@[simp] theorem ofInt_natCast (n : Nat) : ofInt n = ofNat n := rfl

end Decimal

end SqlTemplate
