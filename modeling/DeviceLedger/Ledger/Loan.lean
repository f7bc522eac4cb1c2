import DeviceLedger.Ledger.Action
import DeviceLedger.Entity
import DeviceLedger.Record.Cursor

/-!
Amounts of assets that are lent to other chains. A loan of nothing has no record: a loan that
becomes zero is removed.
-/

namespace DeviceLedger.Loan

def key (asset destination : Identifier) : Bytes := (Entity.loan asset destination).key

def decode (value : Bytes) : Except StorageError UInt64 := decodeAmount "loan" value

/-- The amount lent, which is zero where there is no record. -/
def get (asset destination : Identifier) : Action UInt64 := do
  match ← Action.get (key asset destination) with
  | some value => Action.ofResult (decode value)
  | none => return 0

def set (asset destination : Identifier) (amount : UInt64) : Action Unit :=
  if amount = 0 then Action.remove (key asset destination)
  else Action.insert (key asset destination) (encodeAmount amount)

def add (asset destination : Identifier) (amount : UInt64) : Action Unit := do
  let current ← get asset destination
  if current.toNat + amount.toNat < UInt64.size then
    set asset destination (current + amount)
  else
    throw (.overflow (.loan asset destination) current amount)

/-- Take some of a loan back, which has to cover the amount. -/
def sub (asset destination : Identifier) (amount : UInt64) : Action Unit := do
  let current ← get asset destination
  if amount ≤ current then
    set asset destination (current - amount)
  else
    throw (.underflow (.loan asset destination) current amount)

/-- The amount lent as a reader sees it. -/
def read (reader : Reader) (asset destination : Identifier) : Except StorageError UInt64 :=
  match reader.one (key asset destination) with
  | .error failure => .error (.state failure)
  | .ok none => .ok 0
  | .ok (some value) => decode value

end DeviceLedger.Loan
