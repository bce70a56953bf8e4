/-!
# Digits

Numbers written in a base up to 36, with lower or upper case letters for the digits above nine.
-/

namespace AccessRules.Text

/-- The value of a digit; a character that is no digit counts as zero. -/
def digitValue (c : Char) : Nat :=
  if c.isDigit then c.toNat - '0'.toNat
  else if 'a' ≤ c && c ≤ 'z' then c.toNat - 'a'.toNat + 10
  else if 'A' ≤ c && c ≤ 'Z' then c.toNat - 'A'.toNat + 10
  else 0

/-- The value of digits in the given base, most significant first. -/
def digitsValue (base : Nat) (digits : List Char) : Nat :=
  digits.foldl (fun n c => n * base + digitValue c) 0

/-- Whether `c` is a hexadecimal digit. -/
def isHexDigit (c : Char) : Bool :=
  c.isDigit || ('a' ≤ c && c ≤ 'f') || ('A' ≤ c && c ≤ 'F')

/-- The digits of `n` in base 16, in lower case. -/
def hexDigits (n : Nat) : List Char :=
  Nat.toDigits 16 n

end AccessRules.Text
