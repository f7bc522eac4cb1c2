import DeviceLedger.Record.Writer
import DeviceLedger.Record.Cursor

/-!
The record of an asset. Symbol and metadata are sized fields, so its length varies.
-/

namespace DeviceLedger

/-- An asset. -/
structure AssetRecord where
  symbol : Bytes
  decimals : UInt8
  metadata : Bytes
  supply : UInt64
  owner : Address
  warp : Bool
  deriving DecidableEq

namespace AssetRecord

def encodedLength (record : AssetRecord) : Nat :=
  2 + record.symbol.length + 1 + 2 + record.metadata.length + 8 + 33 + 1

/-- The bytes of a record, unless one of its sized fields is too long; the symbol is looked at
first. -/
def encode (record : AssetRecord) : Except StorageError Bytes := do
  let withSymbol ← Writer.empty.sized "symbol" record.symbol
  let withMetadata ← (withSymbol.u8 record.decimals).sized "metadata" record.metadata
  return (((withMetadata.u64 record.supply).fixed record.owner.bytes).u8
    (if record.warp then 1 else 0)).buffer

/-- The record in a byte string. Only the byte 1 marks a warped asset. -/
def decode (value : Bytes) : Except StorageError AssetRecord :=
  Cursor.run "asset" value do
    let symbol ← Cursor.sized
    let decimals ← Cursor.u8
    let metadata ← Cursor.sized
    let supply ← Cursor.u64
    let owner ← Cursor.fixed 33
    let warp ← Cursor.u8
    return ⟨symbol, decimals, metadata, supply, owner, warp == 1⟩

end AssetRecord

end DeviceLedger
