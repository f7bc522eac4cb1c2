import DeviceLedger.Bytes.Hex

/-!
Socket addresses and their text. A version 4 address is four decimal numbers without leading zeros;
a version 6 address stands in brackets, where one run of zero groups may be left out, the last two
groups may be written as a version 4 address, and a scope may follow behind a percent sign. When
shown, the first longest run of at least two zero groups is left out.
-/

namespace DeviceLedger

/-- An address of a host. -/
inductive HostAddress where
  | v4 (octets : List Nat)
  | v6 (groups : List Nat) (scope : Nat)
  deriving DecidableEq, Repr

/-- An address of a host and the number of one of its ports. -/
structure SocketAddress where
  host : HostAddress
  portNumber : Nat
  deriving DecidableEq, Repr

namespace SocketAddress

/-- A part of an address at the start of a text, and what follows it. -/
abbrev Scan (α : Type) := List Char → Option (α × List Char)

/-- The number that a digit stands for in a base up to sixteen. -/
def digitValue? (base : Nat) (c : Char) : Option Nat :=
  (Hex.charValue? c).filter fun value => value < base

/-- As many digits as there are, of which there has to be at least one. -/
def scanNumber (base : Nat) : Scan (List Nat) := fun text =>
  let digits := text.takeWhile fun c => (digitValue? base c).isSome
  if digits.isEmpty then none
  else some (digits.filterMap (digitValue? base), text.drop digits.length)

def ofDigits (base : Nat) (digits : List Nat) : Nat :=
  digits.foldl (fun number digit => number * base + digit) 0

def scanChar (expected : Char) : Scan Unit
  | c :: rest => if c = expected then some ((), rest) else none
  | [] => none

/-- A number of a version 4 address: at most three digits, no leading zero, at most 255. -/
def scanOctet : Scan Nat := fun text => do
  let (digits, rest) ← scanNumber 10 text
  let number := ofDigits 10 digits
  if 3 < digits.length ∨ 255 < number ∨ (digits.head? = some 0 ∧ 1 < digits.length) then none
  else some (number, rest)

def scanV4 : Scan (List Nat) := fun text => do
  let (a, rest) ← scanOctet text
  let ((), rest) ← scanChar '.' rest
  let (b, rest) ← scanOctet rest
  let ((), rest) ← scanChar '.' rest
  let (c, rest) ← scanOctet rest
  let ((), rest) ← scanChar '.' rest
  let (d, rest) ← scanOctet rest
  return ([a, b, c, d], rest)

/-- A group of a version 6 address: at most four hexadecimal digits. -/
def scanGroup : Scan Nat := fun text => do
  let (digits, rest) ← scanNumber 16 text
  if 4 < digits.length then none else some (ofDigits 16 digits, rest)

/-- A part behind a colon, unless it comes first. -/
def behindColon {α : Type} (first : Bool) (scan : Scan α) : Scan α := fun text => do
  if first then scan text
  else
    let ((), rest) ← scanChar ':' text
    scan rest

/-- At most `room` groups behind those found already, the latest first; whether they end in a
version 4 address, which needs room for two; and what follows. -/
def scanGroups : Nat → Bool → List Nat → List Char → List Nat × Bool × List Char
  | 0, _, found, text => (found.reverse, false, text)
  | room + 1, first, found, text =>
    match if 0 < room then behindColon first scanV4 text else none with
    | some ([a, b, c, d], rest) =>
      (((c * 256 + d) :: (a * 256 + b) :: found).reverse, true, rest)
    | _ =>
      match behindColon first scanGroup text with
      | some (group, rest) => scanGroups room false (group :: found) rest
      | none => (found.reverse, false, text)

/-- The eight groups of a version 6 address. -/
def scanV6 : Scan (List Nat) := fun text =>
  let (head, endsInV4, rest) := scanGroups 8 true [] text
  if head.length = 8 then some (head, rest)
  else if endsInV4 then none
  else do
    let ((), rest) ← scanChar ':' rest
    let ((), rest) ← scanChar ':' rest
    let (tail, _, rest) := scanGroups (7 - head.length) true [] rest
    return (head ++ List.replicate (8 - head.length - tail.length) 0 ++ tail, rest)

/-- The number of one of a host's ports, behind a colon and with any number of leading zeros. -/
def scanPort : Scan Nat := fun text => do
  let ((), rest) ← scanChar ':' text
  let (digits, rest) ← scanNumber 10 rest
  let number := ofDigits 10 digits
  if 65535 < number then none else some (number, rest)

/-- A scope behind a percent sign, or no scope, which is zero. -/
def scanScope : Scan Nat := fun text =>
  let scanned := do
    let ((), rest) ← scanChar '%' text
    let (digits, rest) ← scanNumber 10 rest
    let number := ofDigits 10 digits
    if UInt32.size ≤ number then none else some (number, rest)
  some (scanned.getD (0, text))

/-- A version 4 address and the number of one of its ports. -/
def scanSocketV4 : Scan SocketAddress := fun text => do
  let (octets, rest) ← scanV4 text
  let (portNumber, rest) ← scanPort rest
  return (⟨.v4 octets, portNumber⟩, rest)

/-- A version 6 address in brackets and the number of one of its ports. -/
def scanSocketV6 : Scan SocketAddress := fun text => do
  let ((), rest) ← scanChar '[' text
  let (groups, rest) ← scanV6 rest
  let (scope, rest) ← scanScope rest
  let ((), rest) ← scanChar ']' rest
  let (portNumber, rest) ← scanPort rest
  return (⟨.v6 groups scope, portNumber⟩, rest)

def parse? (text : String) : Option SocketAddress :=
  match (scanSocketV4 text.toList).orElse fun _ => scanSocketV6 text.toList with
  | some (address, []) => some address
  | _ => none

/-- Start and length of the first longest run of zeros. -/
def longestZeros (groups : List Nat) : Nat × Nat :=
  let step := fun (state : (Nat × Nat) × (Nat × Nat) × Nat) (group : Nat) =>
    let (longest, current, index) := state
    if group = 0 then
      let current := if current.2 = 0 then (index, 1) else (current.1, current.2 + 1)
      (if longest.2 < current.2 then current else longest, current, index + 1)
    else (longest, (0, 0), index + 1)
  (groups.foldl step ((0, 0), (0, 0), 0)).1

def showV4 (octets : List Nat) : String := ".".intercalate (octets.map toString)

/-- The text of a version 6 address. One that stands for a version 4 address ends in it. -/
def showV6 (groups : List Nat) : String :=
  match groups with
  | [0, 0, 0, 0, 0, 0xFFFF, a, b] => "::ffff:" ++ showV4 [a / 256, a % 256, b / 256, b % 256]
  | _ =>
    let (start, length) := longestZeros groups
    let joined := fun (part : List Nat) => ":".intercalate (part.map Hex.ofNat)
    if 1 < length then joined (groups.take start) ++ "::" ++ joined (groups.drop (start + length))
    else joined groups

def render (address : SocketAddress) : String :=
  match address.host with
  | .v4 octets => showV4 octets ++ ":" ++ toString address.portNumber
  | .v6 groups scope =>
    "[" ++ showV6 groups ++ (if scope = 0 then "" else "%" ++ toString scope) ++ "]:" ++
      toString address.portNumber

/-- An address on the host itself. -/
def loopback (portNumber : Nat) : SocketAddress := ⟨.v4 [127, 0, 0, 1], portNumber⟩

end SocketAddress

end DeviceLedger
