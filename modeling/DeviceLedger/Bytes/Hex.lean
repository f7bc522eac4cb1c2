import DeviceLedger.Text.Utf8

/-!
Hexadecimal text. Bytes are written with two lower-case digits each. Reading takes digits of either
case and works on the UTF-8 bytes of the text: an odd count is refused first, then the first byte
that is no digit is named with its offset.
-/

namespace DeviceLedger.Hex

/-- Why a text is not hexadecimal. -/
inductive Fault where
  | oddLength
  | notDigit (byte : UInt8) (position : Nat)
  deriving DecidableEq, Repr

/-- The digit of a number below sixteen. -/
def digit (number : Nat) : Char :=
  if number < 10 then Char.ofNat (0x30 + number) else Char.ofNat (0x57 + number)

def encodeByte (byte : UInt8) : List Char :=
  [digit (byte.toNat / 16), digit (byte.toNat % 16)]

/-- Two lower-case digits for each byte. -/
def encode (bytes : Bytes) : String :=
  String.ofList (bytes.flatMap encodeByte)

/-- The number that a digit of either case stands for. -/
def digitValue? (byte : UInt8) : Option Nat :=
  if 0x30 ≤ byte ∧ byte ≤ 0x39 then some (byte.toNat - 0x30)
  else if 0x61 ≤ byte ∧ byte ≤ 0x66 then some (byte.toNat - 0x57)
  else if 0x41 ≤ byte ∧ byte ≤ 0x46 then some (byte.toNat - 0x37)
  else none

/-- The number that a character stands for as a digit of either case. -/
def charValue? (c : Char) : Option Nat :=
  if c.toNat < 256 then digitValue? (UInt8.ofNat c.toNat) else none

/-- The bytes that pairs of digits stand for, behind those already found, the latest first. -/
def decodePairs (found : Bytes) (position : Nat) : Bytes → Except Fault Bytes
  | [] => .ok found.reverse
  | [_] => .error .oddLength
  | high :: low :: rest =>
    match digitValue? high, digitValue? low with
    | none, _ => .error (.notDigit high position)
    | some _, none => .error (.notDigit low (position + 1))
    | some upper, some lower =>
      decodePairs (UInt8.ofNat (upper * 16 + lower) :: found) (position + 2) rest

/-- The bytes that a hexadecimal text stands for. -/
def decode (text : String) : Except Fault Bytes :=
  let bytes := Utf8.encode text
  if bytes.length % 2 = 1 then .error .oddLength else decodePairs [] 0 bytes

/-- A number in hexadecimal without leading zeros. -/
def ofNat (number : Nat) : String :=
  String.ofList (Nat.toDigits 16 number)

/-- A byte taken as the character with that code, in single quotes. Control characters, white
space other than the blank and the soft hyphen are written as escapes. -/
def quoteByte (byte : UInt8) : String :=
  let escaped :=
    if byte = 0 then "\\0"
    else if byte = 0x09 then "\\t"
    else if byte = 0x0A then "\\n"
    else if byte = 0x0D then "\\r"
    else if byte = 0x27 then "\\'"
    else if byte = 0x5C then "\\\\"
    else if byte < 0x20 ∨ (0x7F ≤ byte ∧ byte ≤ 0xA0) ∨ byte = 0xAD then
      "\\u\x7b" ++ ofNat byte.toNat ++ "\x7d"
    else String.singleton (Char.ofNat byte.toNat)
  "'" ++ escaped ++ "'"

def Fault.message : Fault → String
  | .oddLength => "Odd number of digits"
  | .notDigit byte position =>
    "Invalid character " ++ quoteByte byte ++ " at position " ++ toString position

end DeviceLedger.Hex
