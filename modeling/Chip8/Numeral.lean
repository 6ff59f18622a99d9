/-! # Numerals

The number texts of the machine's messages: hexadecimal for addresses, words and registers, decimal
for everything that is counted.  Digits come from the base-`b` expansion of a natural number, most
significant first and without leading zeros; a width asks for zeros in front and never cuts a
digit off.
-/

namespace Chip8.Numeral

/-- The lower-case hexadecimal digits of `n`, at least `width` of them. -/
def hexDigits (width n : Nat) : List Char :=
  (Nat.toDigits 16 n).leftpad width '0'

/-- `n` in lower-case hexadecimal with at least `width` digits and no marker in front. -/
def hex (width n : Nat) : String :=
  String.ofList (hexDigits width n)

/-- `n` in lower-case hexadecimal with at least `width` digits behind the marker `0x`. -/
def marked (width n : Nat) : String :=
  "0x" ++ hex width n

/-- `n` in upper-case hexadecimal, with no more digits than it needs. -/
def upperHex (n : Nat) : String :=
  String.ofList ((Nat.toDigits 16 n).map Char.toUpper)

def decimal (n : Nat) : String :=
  String.ofList (Nat.toDigits 10 n)

/-- The number that a non-empty run of decimal digits spells. -/
def ofDecimal? (digits : List Char) : Option Nat :=
  if digits ≠ [] ∧ digits.all Char.isDigit then some (Nat.ofDigitChars 10 digits 0) else none

/-- An address, as messages show it: `0x` and at least three digits. -/
def address (n : Nat) : String :=
  marked 3 n

end Chip8.Numeral
