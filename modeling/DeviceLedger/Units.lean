import DeviceLedger.Identifier

/-!
The units that a transaction consumes in each of five resource dimensions, and their 40 bytes.
-/

namespace DeviceLedger

/-- Units consumed in each of the five dimensions. -/
abbrev Units := Vector UInt64 5

namespace Units

/-- The bytes of the five numbers in order. -/
def toBytes (units : Units) : Bytes :=
  units.toList.flatMap Bytes.ofUInt64

/-- The five numbers at the start of a byte string. -/
def atStart (bytes : Bytes) : Units :=
  Vector.ofFn fun index => Bytes.toUInt64 ((bytes.drop (8 * index.val)).take 8)

/-- The units that a byte string of exactly 40 bytes stands for. -/
def ofBytes (bytes : Bytes) : Except WidthError Units :=
  if bytes.length = 40 then .ok (atStart bytes) else .error (.length 40 bytes.length)

end Units

end DeviceLedger
