import SqlTemplate.Number.Decimal

/-!
# Digits of other scripts

Every script with decimal digits of its own has the ten of them in a row, beginning with its zero.
`plainDigit` replaces such a digit by the one of the same value between `0` and `9` and keeps all
other characters.
-/

namespace SqlTemplate

namespace Decimal

/-- The zeros of all scripts, in increasing order. -/
def zeros : List Nat := [
    0x0030, 0x0660, 0x06F0, 0x07C0, 0x0966, 0x09E6, 0x0A66, 0x0AE6, 0x0B66, 0x0BE6, 0x0C66,
    0x0CE6, 0x0D66, 0x0DE6, 0x0E50, 0x0ED0, 0x0F20, 0x1040, 0x1090, 0x17E0, 0x1810, 0x1946,
    0x19D0, 0x1A80, 0x1A90, 0x1B50, 0x1BB0, 0x1C40, 0x1C50, 0xA620, 0xA8D0, 0xA900, 0xA9D0,
    0xA9F0, 0xAA50, 0xABF0, 0xFF10, 0x104A0, 0x10D30, 0x11066, 0x110F0, 0x11136, 0x111D0,
    0x112F0, 0x11450, 0x114D0, 0x11650, 0x116C0, 0x11730, 0x118E0, 0x11950, 0x11C50, 0x11D50,
    0x11DA0, 0x16A60, 0x16AC0, 0x16B50, 0x1D7CE, 0x1D7D8, 0x1D7E2, 0x1D7EC, 0x1D7F6, 0x1E140,
    0x1E2F0, 0x1E950, 0x1FBF0]

/-- The zero of the script that a character is a digit of. -/
def zeroOf? (c : Char) : Option Nat := zeros.find? fun z => z ≤ c.toNat && c.toNat < z + 10

/-- The digit between `0` and `9` of the same value as a digit; any other character is kept. -/
def plainDigit (c : Char) : Char :=
  match zeroOf? c with
  | some z => Char.ofNat ('0'.toNat + (c.toNat - z))
  | none => c

theorem plainDigit_of_zeroOf?_eq_none {c : Char} (h : zeroOf? c = none) : plainDigit c = c := by
  simp [plainDigit, h]

/-- The digits between `0` and `9` are plain already. -/
theorem plainDigit_of_isDigit {c : Char} (h : c.isDigit = true) : plainDigit c = c := by
  have bounds : 48 ≤ c.toNat ∧ c.toNat ≤ 57 := by
    simpa [Char.isDigit, UInt32.le_iff_toNat_le] using h
  have found : zeroOf? c = some 48 := by
    have low : decide (0x0030 ≤ c.toNat) = true := by simpa using bounds.1
    have high : decide (c.toNat < 0x0030 + 10) = true := by simp; omega
    simp only [zeroOf?, zeros, List.find?_cons, low, high, Bool.and_self]
  have value : '0'.toNat + (c.toNat - 48) = c.toNat := by
    change 48 + (c.toNat - 48) = c.toNat
    omega
  simp only [plainDigit, found, value, Char.ofNat_toNat]

end Decimal

end SqlTemplate
