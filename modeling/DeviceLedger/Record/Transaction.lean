import DeviceLedger.Record.Writer
import DeviceLedger.Record.Cursor
import DeviceLedger.Units

/-!
The record of an executed transaction, in 57 bytes: time stamp, outcome, units and fee.
-/

namespace DeviceLedger

/-- An executed transaction. -/
structure TransactionRecord where
  timestamp : Int64
  success : Bool
  units : Units
  fee : UInt64
  deriving DecidableEq

namespace TransactionRecord

/-- The bytes of a record. The outcome is one byte, 1 for success and 0 for failure. -/
def encode (record : TransactionRecord) : Bytes :=
  ((((Writer.empty.u64 record.timestamp.toUInt64).u8 (if record.success then 1 else 0)).fixed
    record.units.toBytes).u64 record.fee).buffer

/-- The record in a byte string. Any outcome byte other than 0 means success. -/
def decode (value : Bytes) : Except StorageError TransactionRecord :=
  Cursor.run "transaction" value do
    let timestamp ← Cursor.u64
    let success ← Cursor.u8
    let units ← Cursor.take 40
    let fee ← Cursor.u64
    return ⟨timestamp.toInt64, success != 0, Units.atStart units, fee⟩

end TransactionRecord

end DeviceLedger
