import DeviceLedger.Ledger.Asset
import DeviceLedger.Ledger.Balance
import DeviceLedger.Ledger.Counter
import DeviceLedger.Ledger.Loan
import DeviceLedger.Ledger.Order
import DeviceLedger.Ledger.Project
import DeviceLedger.Ledger.Transaction
import DeviceLedger.Ledger.Update

/-!
The operations of the ledger as values. An operation reads or writes the record of one entity, its
target, through the view that writes. A lookup asks a reader.
-/

namespace DeviceLedger

/-- What an operation or a lookup found. An operation that only writes finds nothing. -/
inductive Outcome where
  | done
  | amount (amount : Option UInt64)
  | amounts (amounts : List (Option UInt64))
  | transaction (record : Option TransactionRecord)
  | asset (record : Option AssetRecord)
  | order (record : Option OrderRecord)
  | project (record : Option ProjectRecord)
  | update (record : Option UpdateRecord)
  | verdict (verdict : Option Bool)
  deriving DecidableEq

/-- An operation on the record of one entity. -/
inductive Operation where
  | balanceGet (address : Address) (asset : Identifier)
  | balanceAmount (address : Address) (asset : Identifier)
  | balanceSet (address : Address) (asset : Identifier) (balance : UInt64)
  | balanceDelete (address : Address) (asset : Identifier)
  | balanceAdd (address : Address) (asset : Identifier) (amount : UInt64) (create : Bool)
  | balanceSub (address : Address) (asset : Identifier) (amount : UInt64)
  | loanGet (asset destination : Identifier)
  | loanSet (asset destination : Identifier) (amount : UInt64)
  | loanAdd (asset destination : Identifier) (amount : UInt64)
  | loanSub (asset destination : Identifier) (amount : UInt64)
  | assetGet (id : Identifier)
  | assetSet (id : Identifier) (record : AssetRecord)
  | assetCreate (id : Identifier) (record : AssetRecord) (policy : OverwritePolicy)
  | assetDelete (id : Identifier)
  | orderGet (id : Identifier)
  | orderSet (id : Identifier) (record : OrderRecord)
  | orderDelete (id : Identifier)
  | transactionGet (id : Identifier)
  | transactionStore (id : Identifier) (record : TransactionRecord)
  | projectGet (id : Identifier)
  | projectSet (policy : OverwritePolicy) (id : Identifier) (record : ProjectRecord)
  | updateGet (id : Identifier)
  | updateSet (policy : OverwritePolicy) (id : Identifier) (record : UpdateRecord)
  | counterGet (counter : Counter)
  | counterPut (counter : Counter) (number : UInt64)

namespace Operation

/-- The entity whose record an operation reads or writes. -/
def target : Operation → Entity
  | balanceGet address held => .balance address held
  | balanceAmount address held => .balance address held
  | balanceSet address held _ => .balance address held
  | balanceDelete address held => .balance address held
  | balanceAdd address held _ _ => .balance address held
  | balanceSub address held _ => .balance address held
  | loanGet lent destination => .loan lent destination
  | loanSet lent destination _ => .loan lent destination
  | loanAdd lent destination _ => .loan lent destination
  | loanSub lent destination _ => .loan lent destination
  | assetGet id => .asset id
  | assetSet id _ => .asset id
  | assetCreate id _ _ => .asset id
  | assetDelete id => .asset id
  | orderGet id => .order id
  | orderSet id _ => .order id
  | orderDelete id => .order id
  | transactionGet id => .transaction id
  | transactionStore id _ => .transaction id
  | projectGet id => .project id
  | projectSet _ id _ => .project id
  | updateGet id => .update id
  | updateSet _ id _ => .update id
  | counterGet counter => counter.entity
  | counterPut counter _ => counter.entity

/-- An action that finds nothing. -/
def writing (action : Action Unit) : Action Outcome := do
  action
  return .done

def run : Operation → Action Outcome
  | balanceGet address held => .amount <$> Balance.get address held
  | balanceAmount address held =>
    (fun found => .amount (some found)) <$> Balance.amount address held
  | balanceSet address held balance => writing (Balance.set address held balance)
  | balanceDelete address held => writing (Balance.delete address held)
  | balanceAdd address held amount create => writing (Balance.add address held amount create)
  | balanceSub address held amount => writing (Balance.sub address held amount)
  | loanGet lent destination => (fun found => .amount (some found)) <$> Loan.get lent destination
  | loanSet lent destination amount => writing (Loan.set lent destination amount)
  | loanAdd lent destination amount => writing (Loan.add lent destination amount)
  | loanSub lent destination amount => writing (Loan.sub lent destination amount)
  | assetGet id => .asset <$> Asset.get id
  | assetSet id record => writing (Asset.set id record)
  | assetCreate id record policy => writing (Asset.create id record policy)
  | assetDelete id => writing (Asset.delete id)
  | orderGet id => .order <$> Order.get id
  | orderSet id record => writing (Order.set id record)
  | orderDelete id => writing (Order.delete id)
  | transactionGet id => .transaction <$> Transaction.get id
  | transactionStore id record => writing (Transaction.store id record)
  | projectGet id => .project <$> Project.get id
  | projectSet policy id record => writing (Project.set policy id record)
  | updateGet id => .update <$> Update.get id
  | updateSet policy id record => writing (Update.set policy id record)
  | counterGet counter => .amount <$> counter.get
  | counterPut counter number => writing (counter.put number)

end Operation

/-- A question to a reader. -/
inductive Lookup where
  | balance (address : Address) (asset : Identifier)
  | balances (accounts : List (Address × Identifier))
  | loan (asset destination : Identifier)
  | asset (id : Identifier)
  | order (id : Identifier)
  | project (id : Identifier)
  | update (id : Identifier)
  | hashMatches (id : Identifier) (candidate : Bytes)
  | counter (counter : Counter)

def Lookup.run (reader : Reader) : Lookup → Except StorageError Outcome
  | balance address held => (Balance.read reader address held).map .amount
  | balances accounts => (Balance.readMany reader accounts).map .amounts
  | loan lent destination =>
    (Loan.read reader lent destination).map fun found => .amount (some found)
  | asset id => (Asset.read reader id).map .asset
  | order id => (Order.read reader id).map .order
  | project id => (Project.read reader id).map .project
  | update id => (Update.read reader id).map .update
  | hashMatches id candidate => (Update.hashMatches reader id candidate).map .verdict
  | counter which => (Counter.read reader which).map .amount

end DeviceLedger
