import DeviceLedger.Ledger.Asset
import DeviceLedger.Ledger.Balance
import DeviceLedger.Ledger.Loan
import DeviceLedger.Ledger.Order
import DeviceLedger.Ledger.Project
import DeviceLedger.Ledger.Update
import DeviceLedger.Server.Error
import DeviceLedger.Server.View
import DeviceLedger.Text.Blank

/-!
The queries that the service answers from a reader. Identifiers come as texts; white space around
them does not count. A query for a record that is not there fails, but an account or a loan that is
not there reads as zero.
-/

namespace DeviceLedger

/-- A query, with its identifiers as they were written. -/
inductive Query where
  | health
  | info
  | project (id : String)
  | update (id : String)
  | verify (id : String) (hash : Option String)
  | balances (batch : BalanceBatch)
  | balance (address asset : String)
  | asset (id : String)
  | order (id : String)
  | loan (asset destination : String)

/-- An answer: JSON, or the plain confirmation of a hash. -/
inductive Answer where
  | json (value : Json)
  | valid

def programVersion : String := "0.1.0"

/-- A reader and the greatest number of accounts in a batch. -/
structure Service where
  reader : Reader
  maxBatchKeys : Nat

namespace Service

/-- The value of a fixed width that a text stands for, in the named part of a request. -/
def parseFixed (width : Nat) (field text : String) : Except ServerError (Fixed width) :=
  match Fixed.ofHex width (Blank.trim text) with
  | .ok fixed => .ok fixed
  | .error error => .error (.badRequest field error.message)

/-- The identifier that a text stands for, in the named part of a request. -/
def parseIdentifier (field text : String) : Except ServerError Identifier :=
  parseFixed 32 field text

/-- The address that a text stands for, in the named part of a request. -/
def parseAddress (field text : String) : Except ServerError Address :=
  parseFixed 33 field text

/-- A result of the storage. -/
def ofStorage {α : Type} : Except StorageError α → Except ServerError α
  | .ok result => .ok result
  | .error error => .error (.storage error)

/-- A record that has to be there. -/
def present {α : Type} (entity : String) (id : Identifier) :
    Option α → Except ServerError α
  | some record => .ok record
  | none => .error (.notFound entity id.toHex)

/-- That the program runs, and its version. -/
def health : Json := .object [("status", .text "ok"), ("version", .text programVersion)]

/-- How the keys of one kind are built, with the members in the order of their names. -/
def describeKind (kind : EntityKind) : Json :=
  Json.sortedObject [
    ("name", .text kind.name),
    ("prefix", .nat kind.tag.toNat),
    ("chunks", (kind.chunks.map fun chunks => Json.nat chunks.toNat).getD .null),
    ("key_len", .nat kind.keyLength)]

/-- What clients need to know: how keys are built, and the limit of batches. -/
def info (service : Service) : Json :=
  Json.sortedObject [
    ("name", .text "hupd-server"),
    ("version", .text programVersion),
    ("max_batch_keys", .nat service.maxBatchKeys),
    ("entities", .list (EntityKind.all.map describeKind))]

def project (service : Service) (id : String) : Except ServerError ProjectView := do
  let id ← parseIdentifier "project id" id
  let record ← present "project" id (← ofStorage (Project.read service.reader id))
  return .ofRecord id record

def update (service : Service) (id : String) : Except ServerError UpdateView := do
  let id ← parseIdentifier "update id" id
  let record ← present "update" id (← ofStorage (Update.read service.reader id))
  return .ofRecord id record

/-- Whether a hash is that of an update; another hash is an error. -/
def verify (service : Service) (id : String) (hash : Option String) : Except ServerError Unit := do
  let id ← parseIdentifier "update id" id
  match hash with
  | none => throw (.badRequest "hash" "missing query parameter")
  | some hash =>
    let found ← ofStorage (Update.hashMatches service.reader id (Utf8.encode hash))
    if ← present "update" id found then return () else throw (.hashMismatch id.toHex)

def balance (service : Service) (address asset : String) : Except ServerError BalanceView := do
  let address ← parseAddress "address" address
  let asset ← parseIdentifier "asset" asset
  let found ← ofStorage (Balance.read service.reader address asset)
  return ⟨address, asset, found.getD 0⟩

/-- The identifiers of an account in a batch. -/
def parseAccount (query : AccountQuery) : Except ServerError (Address × Identifier) := do
  let address ← parseAddress "address" query.address
  let asset ← parseIdentifier "asset" query.asset
  return (address, asset)

/-- The balances of a batch of accounts. The size of the batch is looked at first, then the
identifiers in order, and only then the store is read. -/
def balances (service : Service) (batch : BalanceBatch) : Except ServerError (List BalanceView) :=
  if service.maxBatchKeys < batch.accounts.length then
    .error (.batchTooLarge batch.accounts.length service.maxBatchKeys)
  else do
    let accounts ← batch.accounts.mapM parseAccount
    let found ← ofStorage (Balance.readMany service.reader accounts)
    return List.zipWith (fun (address, asset) balance => ⟨address, asset, balance.getD 0⟩)
      accounts found

def asset (service : Service) (id : String) : Except ServerError AssetView := do
  let id ← parseIdentifier "asset id" id
  let record ← present "asset" id (← ofStorage (Asset.read service.reader id))
  return .ofRecord id record

def order (service : Service) (id : String) : Except ServerError OrderView := do
  let id ← parseIdentifier "order id" id
  let record ← present "order" id (← ofStorage (Order.read service.reader id))
  return ⟨id, record⟩

def loan (service : Service) (asset destination : String) : Except ServerError LoanView := do
  let asset ← parseIdentifier "asset" asset
  let destination ← parseIdentifier "destination" destination
  let amount ← ofStorage (Loan.read service.reader asset destination)
  return ⟨asset, destination, amount⟩

def shown {α : Type} [JsonFormat α] (result : Except ServerError α) : Except ServerError Answer :=
  result.map fun view => .json (JsonFormat.toJson view)

def answer (service : Service) : Query → Except ServerError Answer
  | .health => .ok (.json health)
  | .info => .ok (.json service.info)
  | .project id => shown (service.project id)
  | .update id => shown (service.update id)
  | .verify id hash => (service.verify id hash).map fun _ => .valid
  | .balances batch =>
    (service.balances batch).map fun views => .json (.list (views.map JsonFormat.toJson))
  | .balance address asset => shown (service.balance address asset)
  | .asset id => shown (service.asset id)
  | .order id => shown (service.order id)
  | .loan asset destination => shown (service.loan asset destination)

end Service

end DeviceLedger
