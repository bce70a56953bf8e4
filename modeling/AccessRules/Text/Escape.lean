import AccessRules.Text.Digit
import AccessRules.Text.Utf8

/-!
# Escaped bytes

Bytes are written as text in which a backslash starts an escape: a letter for a control character,
up to three octal digits, or two hexadecimal ones behind an `x`.
-/

namespace AccessRules.Text

/-- The byte that a backslash and one more character stand for. -/
def simpleEscape? : Char → Option UInt8
  | 'a' => some 7
  | 'b' => some 8
  | 't' => some 9
  | 'n' => some 10
  | 'v' => some 11
  | 'f' => some 12
  | 'r' => some 13
  | '"' => some 34
  | '\'' => some 39
  | '?' => some 63
  | '\\' => some 92
  | _ => none

/-- Whether `c` is an octal digit. -/
def isOctalDigit (c : Char) : Bool :=
  '0' ≤ c && c ≤ '7'

/-- The byte that two hexadecimal digits stand for. A plus sign may stand in place of the first. -/
def hexByte? (high low : Char) : Option UInt8 :=
  if (isHexDigit high || high = '+') && isHexDigit low then
    some (digitValue high * 16 + digitValue low).toUInt8
  else none

/-- The bytes that the characters stand for. Octal escapes beyond the largest byte wrap around. -/
def unescape? : List Char → Option (List UInt8)
  | [] => some []
  | '\\' :: c :: rest =>
    if isOctalDigit c then
      match rest with
      | d :: e :: rest =>
        if isOctalDigit d then
          if isOctalDigit e then
            (unescape? rest).map ((digitsValue 8 [c, d, e]).toUInt8 :: ·)
          else (unescape? (e :: rest)).map ((digitsValue 8 [c, d]).toUInt8 :: ·)
        else (unescape? (d :: e :: rest)).map ((digitValue c).toUInt8 :: ·)
      | [d] =>
        if isOctalDigit d then some [(digitsValue 8 [c, d]).toUInt8]
        else (unescape? [d]).map ((digitValue c).toUInt8 :: ·)
      | [] => some [(digitValue c).toUInt8]
    else if c = 'x' || c = 'X' then
      match rest with
      | high :: low :: rest => do
        let byte ← hexByte? high low
        return byte :: (← unescape? rest)
      | _ => none
    else do
      let byte ← simpleEscape? c
      return byte :: (← unescape? rest)
  | ['\\'] => none
  | c :: rest => (unescape? rest).map (encode (String.singleton c) ++ ·)

end AccessRules.Text
