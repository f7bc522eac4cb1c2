import DeviceLedger.Error

/-!
Writing the fields of a record one behind the other. Numbers are big-endian, fixed fields are
written as they are, and a sized field is preceded by its length in two bytes.
-/

namespace DeviceLedger

/-- The bytes written so far. -/
structure Writer where
  buffer : Bytes

namespace Writer

def empty : Writer := ⟨[]⟩

/-- The greatest length of a sized field. -/
def sizedLimit : Nat := 65535

/-- Bytes as they are. -/
def fixed (writer : Writer) (bytes : Bytes) : Writer := ⟨writer.buffer ++ bytes⟩

def u8 (writer : Writer) (byte : UInt8) : Writer := writer.fixed [byte]

def u16 (writer : Writer) (number : UInt16) : Writer := writer.fixed (Bytes.ofUInt16 number)

def u64 (writer : Writer) (number : UInt64) : Writer := writer.fixed (Bytes.ofUInt64 number)

/-- A length in two bytes and as many bytes behind it. A field that is too long is refused by its
name. -/
def sized (writer : Writer) (field : String) (bytes : Bytes) : Except StorageError Writer :=
  if bytes.length ≤ sizedLimit then
    .ok ((writer.u16 (UInt16.ofNat bytes.length)).fixed bytes)
  else
    .error (.fieldTooLong field bytes.length sizedLimit)

end Writer

end DeviceLedger
