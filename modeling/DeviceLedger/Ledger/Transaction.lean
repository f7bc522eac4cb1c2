import DeviceLedger.Ledger.Action
import DeviceLedger.Entity
import DeviceLedger.Record.Transaction

/-!
The log of executed transactions.
-/

namespace DeviceLedger.Transaction

def key (id : Identifier) : Bytes := (Entity.transaction id).key

def store (id : Identifier) (record : TransactionRecord) : Action Unit :=
  Action.insert (key id) record.encode

def get (id : Identifier) : Action (Option TransactionRecord) :=
  Action.getDecoded TransactionRecord.decode (key id)

end DeviceLedger.Transaction
