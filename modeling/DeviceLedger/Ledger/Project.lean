import DeviceLedger.Policy
import DeviceLedger.Entity
import DeviceLedger.Record.Project

/-!
The registry of projects, which are written once if the policy says so.
-/

namespace DeviceLedger.Project

def key (id : Identifier) : Bytes := (Entity.project id).key

/-- Write the record if the policy lets it be written. -/
def set (policy : OverwritePolicy) (id : Identifier) (record : ProjectRecord) : Action Unit := do
  policy.permit (key id) "project"
  Action.insert (key id) record.encode

def get (id : Identifier) : Action (Option ProjectRecord) :=
  Action.getDecoded ProjectRecord.decode (key id)

def read (reader : Reader) (id : Identifier) : Except StorageError (Option ProjectRecord) :=
  reader.decoded ProjectRecord.decode (key id)

end DeviceLedger.Project
