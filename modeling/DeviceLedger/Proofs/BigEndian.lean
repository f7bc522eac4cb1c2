import DeviceLedger.Bytes
import Mathlib.Data.List.Induction
import Mathlib.Tactic.Ring

/-! Big-endian numbers of a fixed width and byte strings of that length are in
bijection. A number that needs more bytes loses its high digits. -/

namespace DeviceLedger.Bytes

/-- A byte string denotes a number below the power of 256 of its length. -/
theorem value_lt (bytes : Bytes) : value bytes < 256 ^ bytes.length := by
  induction bytes using List.reverseRecOn with
  | nil => simp [value]
  | append_singleton bytes byte ih =>
      have hByte := byte.toNat_lt
      rw [value_append_byte, List.length_append, List.length_singleton, Nat.pow_succ]
      omega

/-- Only the digits that fit into the width are kept. -/
theorem value_bigEndian (width number : Nat) :
    value (bigEndian width number) = number % 256 ^ width := by
  induction width generalizing number with
  | zero => simp [bigEndian, value, Nat.mod_one]
  | succ width ih =>
      rw [value_bigEndian_succ, ih, Nat.pow_succ, Nat.mul_comm (256 ^ width) 256, Nat.mod_mul]
      ring

/-- Writing the number of a byte string in its own length gives it back. -/
@[simp] theorem bigEndian_value (bytes : Bytes) : bigEndian bytes.length bytes.value = bytes := by
  induction bytes using List.reverseRecOn with
  | nil => rfl
  | append_singleton bytes byte ih =>
      have hByte := byte.toNat_lt
      have hHigh : (value bytes * 256 + byte.toNat) / 256 = value bytes := by omega
      have hLow : UInt8.ofNat (value bytes * 256 + byte.toNat) = byte := by
        apply UInt8.toNat_inj.mp
        rw [UInt8.toNat_ofNat']
        omega
      rw [List.length_append, List.length_singleton, bigEndian, value_append_byte, hHigh, hLow, ih]

@[simp] theorem length_ofUInt16 (number : UInt16) : (ofUInt16 number).length = 2 :=
  length_bigEndian 2 number.toNat

@[simp] theorem length_ofUInt64 (number : UInt64) : (ofUInt64 number).length = 8 :=
  length_bigEndian 8 number.toNat

@[simp] theorem toUInt16_ofUInt16 (number : UInt16) : toUInt16 (ofUInt16 number) = number := by
  apply UInt16.toNat_inj.mp
  have hLt := number.toNat_lt
  rw [toUInt16, ofUInt16, value_bigEndian, UInt16.toNat_ofNat']
  omega

/-- Two bytes are the bytes of the number that they denote. -/
theorem ofUInt16_toUInt16 {bytes : Bytes} (hLength : bytes.length = 2) :
    ofUInt16 (toUInt16 bytes) = bytes := by
  have hLt := value_lt bytes
  rw [hLength] at hLt
  have hValue : (toUInt16 bytes).toNat = value bytes := by
    rw [toUInt16, UInt16.toNat_ofNat']
    exact Nat.mod_eq_of_lt hLt
  rw [ofUInt16, hValue, ← hLength, bigEndian_value]

/-- Eight bytes denote an unsigned 64-bit number. -/
theorem toNat_toUInt64 {bytes : Bytes} (hLength : bytes.length = 8) :
    (toUInt64 bytes).toNat = value bytes := by
  have hLt := value_lt bytes
  rw [hLength] at hLt
  rw [toUInt64, UInt64.toNat_ofNat']
  exact Nat.mod_eq_of_lt hLt

/-- Eight bytes are the bytes of the number that they denote. -/
theorem ofUInt64_toUInt64 {bytes : Bytes} (hLength : bytes.length = 8) :
    ofUInt64 (toUInt64 bytes) = bytes := by
  rw [ofUInt64, toNat_toUInt64 hLength, ← hLength, bigEndian_value]

end DeviceLedger.Bytes
