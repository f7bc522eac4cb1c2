import DeviceLedger.Ledger.Action
import DeviceLedger.Entity
import DeviceLedger.Record.Cursor

/-!
Balances of assets at addresses. An account with nothing has no record: a balance that becomes zero
is removed.
-/

namespace DeviceLedger.Balance

def key (address : Address) (asset : Identifier) : Bytes := (Entity.balance address asset).key

def decode (value : Bytes) : Except StorageError UInt64 := decodeAmount "balance" value

/-- The recorded balance, if there is a record. -/
def get (address : Address) (asset : Identifier) : Action (Option UInt64) :=
  Action.getDecoded decode (key address asset)

/-- The balance, which is zero where there is no record. -/
def amount (address : Address) (asset : Identifier) : Action UInt64 := do
  return (← get address asset).getD 0

/-- Store a balance at a key, or remove the record of a balance of zero. -/
def write (key : Bytes) (balance : UInt64) : Action Unit :=
  if balance = 0 then Action.remove key else Action.insert key (encodeAmount balance)

def set (address : Address) (asset : Identifier) (balance : UInt64) : Action Unit :=
  write (key address asset) balance

def delete (address : Address) (asset : Identifier) : Action Unit :=
  Action.remove (key address asset)

/-- Add to a balance. Without `create` an account that has no record is left alone. -/
def add (address : Address) (asset : Identifier) (amount : UInt64) (create : Bool) :
    Action Unit := do
  match ← get address asset, create with
  | none, false => return ()
  | found, _ =>
    let current := found.getD 0
    if current.toNat + amount.toNat < UInt64.size then
      write (key address asset) (current + amount)
    else
      throw (.overflow (.balance address asset) current amount)

/-- Subtract from a balance, which has to cover the amount. -/
def sub (address : Address) (asset : Identifier) (amount : UInt64) : Action Unit := do
  let current := (← get address asset).getD 0
  if amount ≤ current then
    write (key address asset) (current - amount)
  else
    throw (.underflow (.balance address asset) current amount)

/-- The recorded balance as a reader sees it. -/
def read (reader : Reader) (address : Address) (asset : Identifier) :
    Except StorageError (Option UInt64) :=
  reader.decoded decode (key address asset)

/-- The recorded balances of several accounts, read as one batch. The batch needs as many replies
as there are accounts, and then the first reply that fails decides. -/
def readMany (reader : Reader) (accounts : List (Address × Identifier)) :
    Except StorageError (List (Option UInt64)) :=
  let replies := reader (accounts.map fun (address, asset) => key address asset)
  if replies.length = accounts.length then
    replies.mapM (Reply.decoded decode)
  else
    .error (.state (.backend ("expected " ++ toString accounts.length ++ " results, got " ++
      toString replies.length)))

end DeviceLedger.Balance
