import DeviceLedger.Record.Writer
import DeviceLedger.Record.Cursor

/-!
The record of an order to exchange two assets, in 121 bytes.
-/

namespace DeviceLedger

/-- An order: what comes in and goes out at which rates, how much remains, and whose it is. -/
structure OrderRecord where
  input : Identifier
  inTick : UInt64
  output : Identifier
  outTick : UInt64
  remaining : UInt64
  owner : Address
  deriving DecidableEq

namespace OrderRecord

def encode (record : OrderRecord) : Bytes :=
  ((((((Writer.empty.fixed record.input.bytes).u64 record.inTick).fixed
    record.output.bytes).u64 record.outTick).u64 record.remaining).fixed record.owner.bytes).buffer

def decode (value : Bytes) : Except StorageError OrderRecord :=
  Cursor.run "order" value do
    let input ← Cursor.fixed 32
    let inTick ← Cursor.u64
    let output ← Cursor.fixed 32
    let outTick ← Cursor.u64
    let remaining ← Cursor.u64
    let owner ← Cursor.fixed 33
    return ⟨input, inTick, output, outTick, remaining, owner⟩

end OrderRecord

end DeviceLedger
