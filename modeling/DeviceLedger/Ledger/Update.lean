import DeviceLedger.Policy
import DeviceLedger.Entity
import DeviceLedger.Record.Update

/-!
The registry of published updates, which are written once if the policy says so, and the check of
an executable's hash against the published one.
-/

namespace DeviceLedger.Update

def key (id : Identifier) : Bytes := (Entity.update id).key

/-- Write the record if the policy lets it be written. -/
def set (policy : OverwritePolicy) (id : Identifier) (record : UpdateRecord) : Action Unit := do
  policy.permit (key id) "update"
  Action.insert (key id) record.encode

def get (id : Identifier) : Action (Option UpdateRecord) :=
  Action.getDecoded UpdateRecord.decode (key id)

def read (reader : Reader) (id : Identifier) : Except StorageError (Option UpdateRecord) :=
  reader.decoded UpdateRecord.decode (key id)

/-- Whether a candidate is the published hash without its padding, if the update is there. -/
def hashMatches (reader : Reader) (id : Identifier) (candidate : Bytes) :
    Except StorageError (Option Bool) := do
  let found ← read reader id
  return found.map fun record => Slot.trim record.executableHash == candidate

end DeviceLedger.Update
