import DeviceLedger.Policy
import DeviceLedger.Entity
import DeviceLedger.Record.Asset

/-!
The registry of assets.
-/

namespace DeviceLedger.Asset

def key (id : Identifier) : Bytes := (Entity.asset id).key

def get (id : Identifier) : Action (Option AssetRecord) :=
  Action.getDecoded AssetRecord.decode (key id)

/-- Write the record, which is encoded before the store is touched. -/
def set (id : Identifier) (record : AssetRecord) : Action Unit := do
  let value ← Action.ofResult record.encode
  Action.insert (key id) value

/-- Write the record if the policy lets it be written. -/
def create (id : Identifier) (record : AssetRecord) (policy : OverwritePolicy) : Action Unit := do
  policy.permit (key id) "asset"
  set id record

def delete (id : Identifier) : Action Unit := Action.remove (key id)

def read (reader : Reader) (id : Identifier) : Except StorageError (Option AssetRecord) :=
  reader.decoded AssetRecord.decode (key id)

end DeviceLedger.Asset
