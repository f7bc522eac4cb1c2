import DeviceLedger.Bytes.Hex
import DeviceLedger.Decimal

/-!
The tokens of JSON text. The text is a byte string, and the tokens run up to the first byte that can
begin none, where a last token `bad` stands. A string keeps its bytes as they are written:
`unescape` turns them into text, which fails for bytes that are not UTF-8 and for halves of
surrogate pairs. A number keeps those of its digits that fit 64 bits and a power of ten.
-/

namespace DeviceLedger.Json

/-- A number as it is read: its leading digits as one number of at most 64 bits, times a power of
ten. It is `integral` if it has neither a fraction nor an exponent. -/
structure Numeral where
  negative : Bool
  digits : Nat
  scale : Int
  integral : Bool
  deriving DecidableEq, Repr

/-- A token. -/
inductive Token where
  | openObject
  | closeObject
  | openList
  | closeList
  | colon
  | comma
  | null
  | flag (value : Bool)
  | number (numeral : Numeral)
  | text (written : Bytes)
  | bad
  deriving DecidableEq, Repr

/-- The four blanks between tokens. -/
def isSpace (byte : UInt8) : Bool :=
  byte == 0x20 || byte == 0x0A || byte == 0x09 || byte == 0x0D

def isDigit (byte : UInt8) : Bool := decide (0x30 ≤ byte ∧ byte ≤ 0x39)

/-- The number that digits denote, or a bound that it exceeds. -/
def readCapped (bound : Nat) (written : Bytes) : Nat :=
  written.foldl (fun number byte => min bound (number * 10 + (byte.toNat - 0x30))) 0

/-- The number that digits denote behind the digits already read, up to the first digit that would
take it beyond 64 bits, and how many digits were read in all. -/
def readFitting (digits count : Nat) : Bytes → Nat × Nat
  | [] => (digits, count)
  | byte :: rest =>
    let longer := digits * 10 + (byte.toNat - 0x30)
    if longer < UInt64.size then readFitting longer (count + 1) rest else (digits, count)

/-- The letters after a backslash that stand for one character. -/
def shortEscape? (byte : UInt8) : Option UInt8 :=
  if byte = 0x22 then some 0x22
  else if byte = 0x5C then some 0x5C
  else if byte = 0x2F then some 0x2F
  else if byte = 0x62 then some 0x08
  else if byte = 0x66 then some 0x0C
  else if byte = 0x6E then some 0x0A
  else if byte = 0x72 then some 0x0D
  else if byte = 0x74 then some 0x09
  else none

def unit? (a b c d : UInt8) : Option Nat := do
  let upper := (← Hex.digitValue? a) * 16 + (← Hex.digitValue? b)
  let lower := (← Hex.digitValue? c) * 16 + (← Hex.digitValue? d)
  return upper * 256 + lower

/-- The bytes of a string up to its closing quote, and what follows it. Control characters and
unknown escapes are refused; the halves of surrogate pairs are not looked at. -/
def scanText (found : Bytes) : Bytes → Option (Bytes × Bytes)
  | [] => none
  | 0x22 :: rest => some (found.reverse, rest)
  | 0x5C :: 0x75 :: a :: b :: c :: d :: rest =>
    if (unit? a b c d).isSome then scanText (d :: c :: b :: a :: 0x75 :: 0x5C :: found) rest
    else none
  | 0x5C :: byte :: rest =>
    if (shortEscape? byte).isSome then scanText (byte :: 0x5C :: found) rest else none
  | byte :: rest => if byte < 0x20 ∨ byte = 0x5C then none else scanText (byte :: found) rest

/-- The bytes that the inside of a string stands for, behind those found already. A code above
U+FFFF is written as two units, of which neither may stand alone. -/
def unescapeBytes (found : Bytes) : Bytes → Option Bytes
  | [] => some found.reverse
  | 0x5C :: 0x75 :: a :: b :: c :: d :: rest =>
    match unit? a b c d with
    | none => none
    | some unit =>
      if unit < 0xD800 ∨ 0xE000 ≤ unit then
        unescapeBytes ((Utf8.encodeChar (Char.ofNat unit)).reverse ++ found) rest
      else if 0xDC00 ≤ unit then none
      else
        match rest with
        | 0x5C :: 0x75 :: a' :: b' :: c' :: d' :: rest' =>
          match unit? a' b' c' d' with
          | none => none
          | some low =>
            if 0xDC00 ≤ low ∧ low < 0xE000 then
              let code := 0x10000 + (unit - 0xD800) * 0x400 + (low - 0xDC00)
              unescapeBytes ((Utf8.encodeChar (Char.ofNat code)).reverse ++ found) rest'
            else none
        | _ => none
  | 0x5C :: byte :: rest =>
    match shortEscape? byte with
    | none => none
    | some plain => unescapeBytes (plain :: found) rest
  | byte :: rest => unescapeBytes (byte :: found) rest

/-- The text of the inside of a string. -/
def unescape (written : Bytes) : Option String :=
  (unescapeBytes [] written).bind Utf8.strict?

/-- The fraction behind the whole digits of a number: its digits, and what follows. A point has to
be followed by a digit. -/
def scanFraction : Bytes → Option (Bytes × Bytes)
  | 0x2E :: rest =>
    match rest.takeWhile isDigit with
    | [] => none
    | digits => some (digits, rest.dropWhile isDigit)
  | bytes => some ([], bytes)

/-- An exponent that no length of a text makes up for. Greater ones are read as this one. -/
def greatestExponent : Nat := 2147483648

/-- The digits of an exponent and its sign. -/
def scanExponentDigits (negative : Bool) (bytes : Bytes) : Option (Int × Bytes) :=
  match bytes.takeWhile isDigit with
  | [] => none
  | digits =>
    let number := readCapped greatestExponent digits
    some (if negative then -number else number, bytes.dropWhile isDigit)

/-- The exponent behind the digits of a number, if there is one, and what follows. -/
def scanExponent : Bytes → Option (Option Int × Bytes)
  | byte :: rest =>
    if byte = 0x65 ∨ byte = 0x45 then
      let scanned :=
        match rest with
        | 0x2B :: rest => scanExponentDigits false rest
        | 0x2D :: rest => scanExponentDigits true rest
        | rest => scanExponentDigits false rest
      scanned.map fun (exponent, rest) => (some exponent, rest)
    else some (none, byte :: rest)
  | [] => some (none, [])

/-- The whole digits of a number: one zero, or digits that begin with another. -/
def scanWhole : Bytes → Option (Bytes × Bytes)
  | [] => none
  | byte :: rest =>
    if byte = 0x30 then
      match rest with
      | [] => some ([byte], [])
      | next :: rest => if isDigit next then none else some ([byte], next :: rest)
    else if isDigit byte then
      some (byte :: rest.takeWhile isDigit, rest.dropWhile isDigit)
    else none

/-- The number of whole digits, a fraction and an exponent. Of the whole digits that do not fit 64
bits only the count is kept, and such digits of the fraction are dropped. -/
def Numeral.ofParts (negative : Bool) (whole fraction : Bytes) (exponent : Option Int) : Numeral :=
  let (digits, wholeRead) := readFitting 0 0 whole
  let (digits, fractionRead) := readFitting digits 0 fraction
  let scale : Int := (whole.length - wholeRead : Nat) - (fractionRead : Nat)
  ⟨negative, digits, scale + exponent.getD 0, fraction.isEmpty && exponent.isNone⟩

/-- A number without its sign, and what follows. -/
def scanNumber (negative : Bool) (bytes : Bytes) : Option (Numeral × Bytes) := do
  let (whole, rest) ← scanWhole bytes
  let (fraction, rest') ← scanFraction rest
  let (exponent, rest'') ← scanExponent rest'
  return (.ofParts negative whole fraction exponent, rest'')

/-- A token at the start of bytes that begin with no blank, and what follows. -/
def scanToken : Bytes → Option (Token × Bytes)
  | 0x7B :: rest => some (.openObject, rest)
  | 0x7D :: rest => some (.closeObject, rest)
  | 0x5B :: rest => some (.openList, rest)
  | 0x5D :: rest => some (.closeList, rest)
  | 0x3A :: rest => some (.colon, rest)
  | 0x2C :: rest => some (.comma, rest)
  | 0x22 :: rest => (scanText [] rest).map fun (written, rest) => (.text written, rest)
  | 0x6E :: 0x75 :: 0x6C :: 0x6C :: rest => some (.null, rest)
  | 0x74 :: 0x72 :: 0x75 :: 0x65 :: rest => some (.flag true, rest)
  | 0x66 :: 0x61 :: 0x6C :: 0x73 :: 0x65 :: rest => some (.flag false, rest)
  | 0x2D :: rest => (scanNumber true rest).map fun (numeral, rest) => (.number numeral, rest)
  | bytes => (scanNumber false bytes).map fun (numeral, rest) => (.number numeral, rest)

/-- The tokens of a text behind those found already, the latest first. The fuel is the length of
the text, since every token and every blank takes at least one byte. -/
def tokensAfter : Nat → List Token → Bytes → List Token
  | _, found, [] => found.reverse
  | 0, found, _ => (.bad :: found).reverse
  | fuel + 1, found, byte :: rest =>
    if isSpace byte then tokensAfter fuel found rest
    else
      match scanToken (byte :: rest) with
      | none => (.bad :: found).reverse
      | some (token, rest) => tokensAfter fuel (token :: found) rest

def tokens (text : Bytes) : List Token := tokensAfter text.length [] text

/-- Whether a number is beyond double precision, so that no reader takes it as a number at all. -/
def Numeral.isTooLarge (numeral : Numeral) : Bool :=
  Decimal.isTooLargeStepwise numeral.digits numeral.scale

/-- The integer that a number is. A negative zero is none, nor is a number beyond 64 bits. -/
def Numeral.integer? (numeral : Numeral) : Option Int :=
  if numeral.integral ∧ numeral.scale = 0 then
    if numeral.negative then
      if numeral.digits = 0 then none else some (-numeral.digits)
    else some numeral.digits
  else none

end DeviceLedger.Json
