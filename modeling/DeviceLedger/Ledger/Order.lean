import DeviceLedger.Ledger.Action
import DeviceLedger.Entity
import DeviceLedger.Record.Order

/-!
The book of open orders.
-/

namespace DeviceLedger.Order

def key (id : Identifier) : Bytes := (Entity.order id).key

def get (id : Identifier) : Action (Option OrderRecord) :=
  Action.getDecoded OrderRecord.decode (key id)

def set (id : Identifier) (record : OrderRecord) : Action Unit :=
  Action.insert (key id) record.encode

def delete (id : Identifier) : Action Unit := Action.remove (key id)

def read (reader : Reader) (id : Identifier) : Except StorageError (Option OrderRecord) :=
  reader.decoded OrderRecord.decode (key id)

end DeviceLedger.Order
