/-!
Byte strings and the big-endian numbers inside them. Keys, record values and file contents are all
byte strings. `Bytes.bigEndian` writes a number in a fixed number of bytes and `Bytes.value` reads
it back; `toUInt64_ofUInt64` says that nothing of a 64-bit number is lost.
-/

namespace DeviceLedger

abbrev Bytes := List UInt8

namespace Bytes

/-- The `width` low-order bytes of a number, most significant first. -/
def bigEndian : Nat → Nat → Bytes
  | 0, _ => []
  | width + 1, number => bigEndian width (number / 256) ++ [UInt8.ofNat number]

/-- The number that a byte string denotes, most significant byte first. -/
def value (bytes : Bytes) : Nat :=
  bytes.foldl (fun number byte => number * 256 + byte.toNat) 0

def ofUInt64 (number : UInt64) : Bytes :=
  bigEndian 8 number.toNat

def ofUInt16 (number : UInt16) : Bytes :=
  bigEndian 2 number.toNat

/-- The unsigned 64-bit number in the last eight bytes. -/
def toUInt64 (bytes : Bytes) : UInt64 :=
  UInt64.ofNat bytes.value

/-- The unsigned 16-bit number in the last two bytes. -/
def toUInt16 (bytes : Bytes) : UInt16 :=
  UInt16.ofNat bytes.value

@[simp] theorem length_bigEndian (width number : Nat) :
    (bigEndian width number).length = width := by
  induction width generalizing number with
  | zero => rfl
  | succ width ih => simp [bigEndian, ih]

/-- A further byte at the end is the lowest digit to the base 256. -/
theorem value_append_byte (bytes : Bytes) (byte : UInt8) :
    value (bytes ++ [byte]) = value bytes * 256 + byte.toNat := by
  simp [value]

theorem value_bigEndian_succ (width number : Nat) :
    value (bigEndian (width + 1) number) =
      value (bigEndian width (number / 256)) * 256 + number % 256 := by
  simp [bigEndian, value_append_byte]

@[simp] theorem toUInt64_ofUInt64 (number : UInt64) : toUInt64 (ofUInt64 number) = number := by
  apply UInt64.toNat_inj.mp
  have hLt := number.toNat_lt
  have hZero : ∀ rest, value (bigEndian 0 rest) = 0 := fun _ => rfl
  have hValue : value (bigEndian 8 number.toNat) = number.toNat := by
    simp only [value_bigEndian_succ, hZero]
    omega
  simp [toUInt64, ofUInt64, hValue]

end Bytes

end DeviceLedger
