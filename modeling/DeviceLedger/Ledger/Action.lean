import DeviceLedger.Error

/-!
Ledger operations as actions on a view of the store. An action stops at its first error; what it
did to the store before stays, and so do the calls that it made.
-/

namespace DeviceLedger

/-- Something done through a view that may fail. -/
abbrev Action (α : Type) := ExceptT StorageError (StateM View) α

namespace Action

/-- A call of the view, whose failure becomes the action's error. -/
def ofCall {α : Type} (call : View → Except StateError α × View) : Action α := fun view =>
  match call view with
  | (.ok result, next) => (.ok result, next)
  | (.error failure, next) => (.error (.state failure), next)

def get (key : Bytes) : Action (Option Bytes) := ofCall fun view => view.get key

def insert (key value : Bytes) : Action Unit := ofCall fun view => view.insert key value

def remove (key : Bytes) : Action Unit := ofCall fun view => view.remove key

/-- A result or error that does not touch the view. -/
def ofResult {α : Type} (result : Except StorageError α) : Action α := fun view => (result, view)

/-- Read a key and decode what is there. -/
def getDecoded {α : Type} (decode : Bytes → Except StorageError α) (key : Bytes) :
    Action (Option α) := do
  match ← get key with
  | none => return none
  | some value => return some (← ofResult (decode value))

end Action

/-- What a reply says about one key, decoded. -/
def Reply.decoded {α : Type} (decode : Bytes → Except StorageError α) :
    Reply → Except StorageError (Option α)
  | .error failure => .error (.state failure)
  | .ok none => .ok none
  | .ok (some value) => (decode value).map some

/-- Read one key through a reader and decode what is there. -/
def Reader.decoded {α : Type} (reader : Reader) (decode : Bytes → Except StorageError α)
    (key : Bytes) : Except StorageError (Option α) :=
  Reply.decoded decode (reader.one key)

end DeviceLedger
