import DeviceLedger.Bytes.Hex
import DeviceLedger.Decimal
import DeviceLedger.Toml.Document

/-!
The grammar of TOML. Every rule takes a part from the start of a text and leaves the rest. Values
may be nested up to 79 levels deep. A float beyond the range of double precision is refused.
-/

namespace DeviceLedger.Toml

/-- A part of a document at the start of a text, and what follows it. -/
abbrev Scan (α : Type) := List Char → Option (α × List Char)

/-- Blanks within a line. -/
def isSpace (c : Char) : Bool := c == ' ' || c == '\t'

/-- A text without the blanks at its start. -/
def dropSpaces (text : List Char) : List Char := text.dropWhile isSpace

/-- The characters that may stand in a line as they are. -/
def isPlain (c : Char) : Bool :=
  c == '\t' || (0x20 ≤ c.toNat && c.toNat ≤ 0x7E) || 0x80 ≤ c.toNat

def isDigit (c : Char) : Bool := '0' ≤ c && c ≤ '9'

def scanNewline : Scan Unit
  | '\n' :: rest => some ((), rest)
  | '\r' :: '\n' :: rest => some ((), rest)
  | _ => none

/-- What may stand behind a statement up to the end of its line. -/
def scanLineEnd (text : List Char) : Option (List Char) :=
  let rest :=
    match dropSpaces text with
    | '#' :: rest => rest.dropWhile isPlain
    | rest => rest
  match rest with
  | [] => some []
  | rest => (scanNewline rest).map Prod.snd

def scanChar (expected : Char) (text : List Char) : Option (List Char) :=
  match text with
  | c :: rest => if c = expected then some rest else none
  | [] => none

/-- The character of exactly `count` hexadecimal digits. -/
def scanCode (count : Nat) : Scan Char := fun text => do
  let digits ← (text.take count).mapM Hex.charValue?
  let code := digits.foldl (fun number digit => number * 16 + digit) 0
  if digits.length = count ∧ (code < 0xD800 ∨ (0xE000 ≤ code ∧ code < 0x110000)) then
    return (Char.ofNat code, text.drop count)
  else none

/-- The character that an escape stands for, behind its backslash. -/
def scanEscape : Scan Char
  | 'b' :: rest => some ('\x08', rest)
  | 't' :: rest => some ('\t', rest)
  | 'n' :: rest => some ('\n', rest)
  | 'f' :: rest => some ('\x0c', rest)
  | 'r' :: rest => some ('\r', rest)
  | '"' :: rest => some ('"', rest)
  | '\\' :: rest => some ('\\', rest)
  | 'u' :: rest => scanCode 4 rest
  | 'U' :: rest => scanCode 8 rest
  | _ => none

/-- A string in double quotes behind its opening quote. The fuel is the length of the text. -/
def scanBasic : Nat → List Char → Scan String
  | 0, _, _ => none
  | _, _, [] => none
  | _, found, '"' :: rest => some (String.ofList found.reverse, rest)
  | fuel + 1, found, '\\' :: rest => do
    let (c, rest) ← scanEscape rest
    scanBasic fuel (c :: found) rest
  | fuel + 1, found, c :: rest => if isPlain c then scanBasic fuel (c :: found) rest else none

/-- A string in single quotes behind its opening quote. -/
def scanLiteral (text : List Char) : Option (String × List Char) :=
  let content := text.takeWhile fun c => isPlain c && c != '\''
  (scanChar '\'' (text.drop content.length)).map fun rest => (String.ofList content, rest)

/-- The quotes at the end of a string over several lines: up to two of them belong to the string,
and three close it. -/
def scanClosing (quote : Char) (found text : List Char) : Option (String × List Char) :=
  let quotes := text.takeWhile (· == quote)
  let extra := min (quotes.length - 3) 2
  if quotes.length < 3 then none
  else some (String.ofList (found.reverse ++ List.replicate extra quote), text.drop (extra + 3))

/-- Blanks and line breaks. -/
def dropBlankLines (text : List Char) : List Char :=
  match text with
  | [] => []
  | c :: rest =>
    if isSpace c || c == '\n' then dropBlankLines rest
    else
      match c, rest with
      | '\r', '\n' :: rest' => dropBlankLines rest'
      | _, _ => c :: rest
termination_by text.length

/-- A string over several lines in double quotes, behind its opening quotes. A backslash at the end
of a line takes the line break and the blanks behind it away. The fuel is the length of the
text. -/
def scanBasicLines : Nat → List Char → Scan String
  | 0, _, _ => none
  | _, _, [] => none
  | fuel + 1, found, '"' :: rest =>
    match scanClosing '"' found ('"' :: rest) with
    | some closed => some closed
    | none => scanBasicLines fuel ('"' :: found) rest
  | fuel + 1, found, '\\' :: rest =>
    match scanNewline (dropSpaces rest) with
    | some ((), rest) => scanBasicLines fuel found (dropBlankLines rest)
    | none => do
      let (c, rest) ← scanEscape rest
      scanBasicLines fuel (c :: found) rest
  | fuel + 1, found, c :: rest =>
    match scanNewline (c :: rest) with
    | some ((), rest) => scanBasicLines fuel ('\n' :: found) rest
    | none => if isPlain c then scanBasicLines fuel (c :: found) rest else none

/-- A string over several lines in single quotes, behind its opening quotes. The fuel is the length
of the text. -/
def scanLiteralLines : Nat → List Char → Scan String
  | 0, _, _ => none
  | _, _, [] => none
  | fuel + 1, found, '\'' :: rest =>
    match scanClosing '\'' found ('\'' :: rest) with
    | some closed => some closed
    | none => scanLiteralLines fuel ('\'' :: found) rest
  | fuel + 1, found, c :: rest =>
    match scanNewline (c :: rest) with
    | some ((), rest) => scanLiteralLines fuel ('\n' :: found) rest
    | none => if isPlain c then scanLiteralLines fuel (c :: found) rest else none

/-- The line break that may follow the opening quotes of a string over several lines. -/
def dropFirstNewline (text : List Char) : List Char :=
  match scanNewline text with
  | some ((), rest) => rest
  | none => text

/-- A string of any of the four kinds. -/
def scanString : Scan String
  | '"' :: '"' :: '"' :: rest =>
    let rest := dropFirstNewline rest
    scanBasicLines (rest.length + 1) [] rest
  | '\'' :: '\'' :: '\'' :: rest =>
    let rest := dropFirstNewline rest
    scanLiteralLines (rest.length + 1) [] rest
  | '"' :: rest => scanBasic (rest.length + 1) [] rest
  | '\'' :: rest => scanLiteral rest
  | _ => none

/-- The characters of a key without quotes. -/
def isKeyChar (c : Char) : Bool :=
  ('a' ≤ c && c ≤ 'z') || ('A' ≤ c && c ≤ 'Z') || isDigit c || c == '-' || c == '_'

/-- A key without dots. -/
def scanSimpleKey : Scan String
  | '"' :: rest => scanBasic (rest.length + 1) [] rest
  | '\'' :: rest => scanLiteral rest
  | source =>
    let key := source.takeWhile isKeyChar
    if key.isEmpty then none else some (String.ofList key, source.drop key.length)

/-- The keys that dots join, behind those found already, the latest first. The fuel is the length
of the text. -/
def scanKeysAfter : Nat → List String → Scan (List String × String)
  | 0, _, _ => none
  | fuel + 1, found, source => do
    let (key, rest) ← scanSimpleKey (dropSpaces source)
    match dropSpaces rest with
    | '.' :: rest => scanKeysAfter fuel (key :: found) rest
    | rest => return ((found.reverse, key), rest)

/-- The keys that dots join: those in front, and the last one. -/
def scanKey : Scan (List String × String) := fun text => do
  let ((path, key), rest) ← scanKeysAfter (text.length + 1) [] text
  if path.length < 79 then return ((path, key), rest) else none

/-- Digits of which two may be joined by an underscore, and what follows. -/
def scanDigits (isDigit : Char → Bool) (text : List Char) : Option (List Char × List Char) :=
  let written := text.takeWhile fun c => isDigit c || c == '_'
  let digits := written.filter (· != '_')
  let joined := (written.splitOnP (· == '_')).all fun part => !part.isEmpty
  if written.isEmpty ∨ joined = false then none else some (digits, text.drop written.length)

/-- The number that digits of a base denote. -/
def ofDigits (base : Nat) (digits : List Char) : Nat :=
  digits.foldl (fun number digit => number * base + (Hex.charValue? digit).getD 0) 0

/-- Whole digits of a number: one zero, or digits that begin with another. -/
def scanWhole (text : List Char) : Option (List Char × List Char) :=
  match text with
  | '0' :: rest => some (['0'], rest)
  | _ => scanDigits isDigit text

/-- The sign of a number and what follows it. -/
def scanSign : List Char → Bool × List Char
  | '+' :: rest => (false, rest)
  | '-' :: rest => (true, rest)
  | unsigned => (false, unsigned)

def scanExponent : List Char → Option (Int × List Char)
  | e :: rest =>
    if e = 'e' ∨ e = 'E' then do
      let (negative, rest) := scanSign rest
      let (digits, rest) ← scanDigits isDigit rest
      let number : Int := ofDigits 10 digits
      return (if negative then -number else number, rest)
    else none
  | [] => none

/-- A float, unless it is positive and too large. -/
def ofFloat (negative : Bool) (digits : Nat) (scale : Int) (rest : List Char) :
    Option (Toml × List Char) :=
  if !negative && Decimal.isTooLarge digits scale then none else some (.float, rest)

def ofInteger (value : Int) (rest : List Char) : Option (Toml × List Char) :=
  if -9223372036854775808 ≤ value ∧ value ≤ 9223372036854775807 then some (.integer value, rest)
  else none

/-- A decimal number: an integer, or a float if a fraction or an exponent follows. -/
def scanDecimal (text : List Char) : Option (Toml × List Char) := do
  let (negative, rest) := scanSign text
  let (whole, rest) ← scanWhole rest
  match rest with
  | '.' :: rest =>
    let (fraction, rest) ← scanDigits isDigit rest
    let digits := ofDigits 10 (whole ++ fraction)
    match rest with
    | 'e' :: _ | 'E' :: _ =>
      let (exponent, rest) ← scanExponent rest
      ofFloat negative digits (exponent - fraction.length) rest
    | _ => ofFloat negative digits (-fraction.length) rest
  | 'e' :: _ | 'E' :: _ =>
    let (exponent, rest) ← scanExponent rest
    ofFloat negative (ofDigits 10 whole) exponent rest
  | _ =>
    let value : Int := ofDigits 10 whole
    ofInteger (if negative then -value else value) rest

/-- A number of another base behind its mark. -/
def scanBase (base : Nat) (text : List Char) : Option (Toml × List Char) := do
  let isBaseDigit := fun c => (Hex.charValue? c).any fun value => decide (value < base)
  let (digits, rest) ← scanDigits isBaseDigit text
  ofInteger (ofDigits base digits) rest

def scanNumber : Scan Toml
  | '0' :: 'x' :: rest => scanBase 16 rest
  | '0' :: 'o' :: rest => scanBase 8 rest
  | '0' :: 'b' :: rest => scanBase 2 rest
  | '+' :: 'i' :: 'n' :: 'f' :: rest | '-' :: 'i' :: 'n' :: 'f' :: rest
  | '+' :: 'n' :: 'a' :: 'n' :: rest | '-' :: 'n' :: 'a' :: 'n' :: rest => some (.float, rest)
  | decimal => scanDecimal decimal

/-- Exactly `count` digits whose number lies between two bounds. -/
def scanPadded (count low high : Nat) (text : List Char) : Option (Nat × List Char) :=
  let digits := text.take count
  let number := ofDigits 10 digits
  if digits.length = count ∧ digits.all isDigit ∧ low ≤ number ∧ number ≤ high then
    some (number, text.drop count)
  else none

def daysIn (year month : Nat) : Nat :=
  if month = 2 then
    if year % 4 = 0 ∧ (year % 100 ≠ 0 ∨ year % 400 = 0) then 29 else 28
  else if month = 4 ∨ month = 6 ∨ month = 9 ∨ month = 11 then 30
  else 31

/-- A date behind its year and the hyphen. -/
def scanMonthDay (year : Nat) (text : List Char) : Option (List Char) := do
  let (month, rest) ← scanPadded 2 1 12 text
  let rest ← scanChar '-' rest
  let (day, rest) ← scanPadded 2 1 31 rest
  if day ≤ daysIn year month then return rest else none

/-- A fraction of a second, if there is one. -/
def scanSecondFraction : List Char → Option (List Char)
  | '.' :: rest => if rest.head?.any isDigit then some (rest.dropWhile isDigit) else none
  | rest => some rest

/-- A time behind its hour and the colon. -/
def scanMinuteSecond (text : List Char) : Option (List Char) := do
  let (_, rest) ← scanPadded 2 0 59 text
  let rest ← scanChar ':' rest
  let (_, rest) ← scanPadded 2 0 60 rest
  match scanSecondFraction rest with
  | some rest => return rest
  | none => return rest

/-- An offset from universal time behind a sign. -/
def scanOffset (text : List Char) : Option (List Char) := do
  let (_, rest) ← scanPadded 2 0 23 text
  let rest ← scanChar ':' rest
  let (_, rest) ← scanPadded 2 0 59 rest
  return rest

/-- The time of day behind a date, if there is one, with its offset. -/
def scanTimeOfDate (text : List Char) : Option (List Char) :=
  match text with
  | delimiter :: rest =>
    if delimiter = 'T' ∨ delimiter = 't' ∨ delimiter = ' ' then
      match scanPadded 2 0 23 rest with
      | some (_, ':' :: rest) => do
        let rest ← scanMinuteSecond rest
        match rest with
        | 'Z' :: rest | 'z' :: rest => return rest
        | '+' :: rest | '-' :: rest => scanOffset rest
        | rest => return rest
      | _ => some text
    else some text
  | [] => some []

/-- A date, a time of day or both, if the text begins like one; what else begins with a digit is a
number. -/
def scanDateOrNumber : Scan Toml := fun text =>
  match scanPadded 4 0 9999 text with
  | some (year, '-' :: rest) => do
    let rest ← scanMonthDay year rest
    let rest ← scanTimeOfDate rest
    return (.dateTime, rest)
  | _ =>
    match scanPadded 2 0 23 text with
    | some (_, ':' :: rest) => (scanMinuteSecond rest).map fun rest => (.dateTime, rest)
    | _ => scanNumber text

/-- Blanks, line breaks and comments between the values of an array. The fuel is the length of the
text. -/
def dropFiller : Nat → List Char → Option (List Char)
  | 0, source => some source
  | fuel + 1, source =>
    match dropBlankLines source with
    | '#' :: rest =>
      match scanNewline (rest.dropWhile isPlain) with
      | some ((), rest) => dropFiller fuel rest
      | none => none
    | rest => some rest

/-- The values of an array behind those found already, the latest first, and behind its opening
bracket or a comma. The fuel is the length of the text. -/
def scanItems (item : Scan Toml) : Nat → List Toml → Scan Toml
  | 0, _, _ => none
  | fuel + 1, found, source => do
    match ← dropFiller fuel source with
    | ']' :: rest => return (.array found.reverse, rest)
    | source =>
      let (value, rest) ← item source
      match ← dropFiller fuel rest with
      | ']' :: rest => return (.array (value :: found).reverse, rest)
      | ',' :: rest => scanItems item fuel (value :: found) rest
      | _ => none

/-- A key and its value inside an inline table, with the blanks around them. -/
def scanInlinePair (item : Scan Toml) : Scan (List String × String × Toml) := fun text => do
  let ((path, key), rest) ← scanKey text
  let rest ← scanChar '=' rest
  let (value, rest) ← item (dropSpaces rest)
  return ((path, key, value), dropSpaces rest)

/-- The pairs of an inline table behind those found already, the latest first. The fuel is the
length of the text. -/
def scanInlinePairs (item : Scan Toml) :
    Nat → List (List String × String × Toml) → Scan (List (List String × String × Toml))
  | 0, _, _ => none
  | fuel + 1, found, source => do
    let (pair, rest) ← scanInlinePair item source
    match rest with
    | ',' :: rest => scanInlinePairs item fuel (pair :: found) rest
    | '}' :: rest => return ((pair :: found).reverse, rest)
    | _ => none

/-- An inline table behind its opening brace. -/
def scanInline (item : Scan Toml) : Scan Toml := fun text =>
  match dropSpaces text with
  | '}' :: rest => some (.inline [], rest)
  | _ => do
    let (pairs, rest) ← scanInlinePairs item (text.length + 1) [] text
    return (.inline (← buildInline pairs), rest)

/-- A value in which containers may be nested to a depth. -/
def scanValue : Nat → Scan Toml
  | depth, source =>
    match source with
    | '"' :: _ | '\'' :: _ => (scanString source).map fun (value, rest) => (.text value, rest)
    | '[' :: rest =>
      match depth with
      | 0 => none
      | depth + 1 => scanItems (scanValue depth) (rest.length + 1) [] rest
    | '{' :: rest =>
      match depth with
      | 0 => none
      | depth + 1 => scanInline (scanValue depth) rest
    | 't' :: 'r' :: 'u' :: 'e' :: rest => some (.flag true, rest)
    | 'f' :: 'a' :: 'l' :: 's' :: 'e' :: rest => some (.flag false, rest)
    | 'i' :: 'n' :: 'f' :: rest => some (.float, rest)
    | 'n' :: 'a' :: 'n' :: rest => some (.float, rest)
    | '+' :: _ | '-' :: _ => scanNumber source
    | c :: _ => if isDigit c then scanDateOrNumber source else none
    | [] => none

/-- A line of a document behind its blanks: a statement, or none for an empty line. -/
def scanLine : Scan (Option Statement)
  | '#' :: rest => (scanLineEnd ('#' :: rest)).map fun rest => (none, rest)
  | '\n' :: rest => some (none, rest)
  | '\r' :: rest => (scanNewline ('\r' :: rest)).map fun ((), rest) => (none, rest)
  | '[' :: '[' :: rest => do
    let ((path, key), rest) ← scanKey rest
    let rest ← scanChar ']' rest
    let rest ← scanChar ']' rest
    return (some (.element path key), ← scanLineEnd rest)
  | '[' :: rest => do
    let ((path, key), rest) ← scanKey rest
    let rest ← scanChar ']' rest
    return (some (.header path key), ← scanLineEnd rest)
  | source => do
    let ((path, key), rest) ← scanKey source
    let rest ← scanChar '=' rest
    let (value, rest) ← scanValue 79 (dropSpaces rest)
    return (some (.pair path key value), ← scanLineEnd rest)

/-- The statements of a document behind those found already, the latest first. The fuel is the
length of the text. -/
def scanLines : Nat → List Statement → List Char → Option (List Statement)
  | 0, _, _ => none
  | fuel + 1, found, source =>
    match dropSpaces source with
    | [] => some found.reverse
    | source => do
      let (statement?, rest) ← scanLine source
      scanLines fuel (statement?.elim found (· :: found)) rest

/-- The entries of a document, which may begin with a byte-order mark. -/
def parse? (text : String) : Option Entries :=
  let characters :=
    match text.toList with
    | '\ufeff' :: rest => rest
    | characters => characters
  (scanLines (characters.length + 1) [] characters).bind build

end DeviceLedger.Toml
