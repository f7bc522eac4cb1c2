import DeviceLedger.Proofs.Operations
import Mathlib.Data.Finmap

/-! The ledger as eight separate finite maps, one for each kind of record, without keys,
bytes or a store. A step either changes one of the maps or is refused, and then changes
nothing. Amounts are computed as unbounded numbers. -/

namespace DeviceLedger

abbrev Table (κ β : Type) := Finmap fun _ : κ => β

namespace Table

variable {κ β : Type} [DecidableEq κ]

/-- Give a key a value, or take its value away. -/
def put (table : Table κ β) (key : κ) : Option β → Table κ β
  | some value => table.insert key value
  | none => table.erase key

theorem lookup_put (table : Table κ β) (key : κ) (value : Option β) (other : κ) :
    (table.put key value).lookup other = if key = other then value else table.lookup other := by
  by_cases hKey : key = other
  · subst hKey
    rw [if_pos rfl]
    cases value with
    | none => exact Finmap.lookup_erase key table
    | some value => exact Finmap.lookup_insert table
  · rw [if_neg hKey]
    cases value with
    | none => exact Finmap.lookup_erase_ne (Ne.symm hKey)
    | some value => exact Finmap.lookup_insert_of_ne table (Ne.symm hKey)

/-- All values of a map satisfy a condition. -/
def All (Holds : β → Prop) (table : Table κ β) : Prop :=
  ∀ key value, table.lookup key = some value → Holds value

theorem all_empty (Holds : β → Prop) : All Holds (∅ : Table κ β) := by
  intro key value hValue
  simp at hValue

theorem All.put {Holds : β → Prop} {table : Table κ β} (hTable : table.All Holds) (key : κ)
    {value : Option β} (hValue : ∀ found, value = some found → Holds found) :
    (table.put key value).All Holds := by
  intro other found hFound
  rw [lookup_put] at hFound
  split at hFound
  · exact hValue found hFound
  · exact hTable other found hFound

end Table

/-- An amount that is worth a record. -/
abbrev RecordedAmount := {amount : UInt64 // amount ≠ 0}

/-- An amount with its record: none for zero. -/
def RecordedAmount.of? (amount : UInt64) : Option RecordedAmount :=
  if h : amount = 0 then none else some ⟨amount, h⟩

/-- Amounts of which zero is not recorded. -/
abbrev Amounts (κ : Type) := Table κ RecordedAmount

namespace Amounts

variable {κ : Type} [DecidableEq κ]

/-- The recorded amount, if there is one. -/
def find (amounts : Amounts κ) (key : κ) : Option UInt64 := (amounts.lookup key).map Subtype.val

/-- The amount, which is zero where none is recorded. -/
def amount (amounts : Amounts κ) (key : κ) : UInt64 := (amounts.find key).getD 0

def set (amounts : Amounts κ) (key : κ) (amount : UInt64) : Amounts κ :=
  amounts.put key (RecordedAmount.of? amount)

/-- Add to an amount, unless the sum reaches 2^64. -/
def add (amounts : Amounts κ) (target : AmountTarget) (key : κ) (more : UInt64) :
    Except StorageError (Amounts κ) :=
  let current := amounts.amount key
  let sum := current.toNat + more.toNat
  if sum < 2 ^ 64 then .ok (amounts.set key (.ofNat sum))
  else .error (.overflow target current more)

/-- Subtract from an amount, unless it is smaller than what is taken. -/
def sub (amounts : Amounts κ) (target : AmountTarget) (key : κ) (less : UInt64) :
    Except StorageError (Amounts κ) :=
  let current := amounts.amount key
  if less.toNat ≤ current.toNat then .ok (amounts.set key (.ofNat (current.toNat - less.toNat)))
  else .error (.underflow target current less)

theorem add_eq (amounts : Amounts κ) (target : AmountTarget) (key : κ) (more : UInt64) :
    amounts.add target key more =
      if (amounts.amount key).toNat + more.toNat < UInt64.size then
        .ok (amounts.set key (amounts.amount key + more))
      else .error (.overflow target (amounts.amount key) more) := by
  rw [add, UInt64.ofNat_add, UInt64.ofNat_toNat, UInt64.ofNat_toNat]
  rfl

theorem sub_eq (amounts : Amounts κ) (target : AmountTarget) (key : κ) (less : UInt64) :
    amounts.sub target key less =
      if less ≤ amounts.amount key then .ok (amounts.set key (amounts.amount key - less))
      else .error (.underflow target (amounts.amount key) less) := by
  by_cases hLess : less ≤ amounts.amount key
  · have hDifference : UInt64.ofNat ((amounts.amount key).toNat - less.toNat) =
        amounts.amount key - less := by
      rw [← UInt64.toNat_sub_of_le _ _ hLess, UInt64.ofNat_toNat]
    rw [sub, if_pos (UInt64.le_iff_toNat_le.mp hLess), if_pos hLess, hDifference]
  · rw [sub, if_neg (fun hNat => hLess (UInt64.le_iff_toNat_le.mpr hNat)), if_neg hLess]

end Amounts

/-- The records of a ledger by their identifiers. Messages between chains have none. -/
structure TypedMaps where
  balances : Amounts (Address × Identifier)
  loans : Amounts (Identifier × Identifier)
  assets : Table Identifier AssetRecord
  orders : Table Identifier OrderRecord
  transactions : Table Identifier TransactionRecord
  projects : Table Identifier ProjectRecord
  updates : Table Identifier UpdateRecord
  counters : Table Counter UInt64

namespace TypedMaps

def empty : TypedMaps := ⟨∅, ∅, ∅, ∅, ∅, ∅, ∅, ∅⟩

/-- How many records there are. -/
def size (maps : TypedMaps) : Nat :=
  maps.balances.keys.card + maps.loans.keys.card + maps.assets.keys.card +
    maps.orders.keys.card + maps.transactions.keys.card + maps.projects.keys.card +
    maps.updates.keys.card + maps.counters.keys.card

/-- The bytes that stand for the record of an entity. -/
def valueAt (maps : TypedMaps) : Entity → Option Bytes
  | .transaction id => (maps.transactions.lookup id).map TransactionRecord.encode
  | .balance address held => (maps.balances.find (address, held)).map encodeAmount
  | .asset id => (maps.assets.lookup id).map AssetRecord.layout
  | .order id => (maps.orders.lookup id).map OrderRecord.encode
  | .loan lent destination => (maps.loans.find (lent, destination)).map encodeAmount
  | .height => (maps.counters.lookup .height).map encodeAmount
  | .timestamp => (maps.counters.lookup .timestamp).map encodeAmount
  | .fee => (maps.counters.lookup .fee).map encodeAmount
  | .incomingWarp _ _ => none
  | .outgoingWarp _ => none
  | .project id => (maps.projects.lookup id).map ProjectRecord.encode
  | .update id => (maps.updates.lookup id).map UpdateRecord.encode

section

variable (maps : TypedMaps) (id : Identifier) (other : Entity)

theorem valueAt_counter (counter : Counter) :
    maps.valueAt counter.entity = (maps.counters.lookup counter).map encodeAmount := by
  cases counter <;> rfl

theorem valueAt_putBalance (account : Address × Identifier) (amount : Option RecordedAmount) :
    valueAt { maps with balances := maps.balances.put account amount } other =
      if .balance account.1 account.2 = other then (amount.map Subtype.val).map encodeAmount
      else maps.valueAt other := by
  cases other with
  | balance address held =>
      simp only [valueAt, Amounts.find, Table.lookup_put, Entity.balance.injEq, Prod.ext_iff]
      split <;> rfl
  | _ => rfl

theorem valueAt_putLoan (loan : Identifier × Identifier) (amount : Option RecordedAmount) :
    valueAt { maps with loans := maps.loans.put loan amount } other =
      if .loan loan.1 loan.2 = other then (amount.map Subtype.val).map encodeAmount
      else maps.valueAt other := by
  cases other with
  | loan lent destination =>
      simp only [valueAt, Amounts.find, Table.lookup_put, Entity.loan.injEq, Prod.ext_iff]
      split <;> rfl
  | _ => rfl

theorem valueAt_putAsset (record : Option AssetRecord) :
    valueAt { maps with assets := maps.assets.put id record } other =
      if .asset id = other then record.map AssetRecord.layout else maps.valueAt other := by
  cases other with
  | asset other =>
      simp only [valueAt, Table.lookup_put, Entity.asset.injEq]
      split <;> rfl
  | _ => rfl

theorem valueAt_putOrder (record : Option OrderRecord) :
    valueAt { maps with orders := maps.orders.put id record } other =
      if .order id = other then record.map OrderRecord.encode else maps.valueAt other := by
  cases other with
  | order other =>
      simp only [valueAt, Table.lookup_put, Entity.order.injEq]
      split <;> rfl
  | _ => rfl

theorem valueAt_putTransaction (record : Option TransactionRecord) :
    valueAt { maps with transactions := maps.transactions.put id record } other =
      if .transaction id = other then record.map TransactionRecord.encode
      else maps.valueAt other := by
  cases other with
  | transaction other =>
      simp only [valueAt, Table.lookup_put, Entity.transaction.injEq]
      split <;> rfl
  | _ => rfl

theorem valueAt_putProject (record : Option ProjectRecord) :
    valueAt { maps with projects := maps.projects.put id record } other =
      if .project id = other then record.map ProjectRecord.encode else maps.valueAt other := by
  cases other with
  | project other =>
      simp only [valueAt, Table.lookup_put, Entity.project.injEq]
      split <;> rfl
  | _ => rfl

theorem valueAt_putUpdate (record : Option UpdateRecord) :
    valueAt { maps with updates := maps.updates.put id record } other =
      if .update id = other then record.map UpdateRecord.encode else maps.valueAt other := by
  cases other with
  | update other =>
      simp only [valueAt, Table.lookup_put, Entity.update.injEq]
      split <;> rfl
  | _ => rfl

theorem valueAt_putCounter (counter : Counter) (number : Option UInt64) :
    valueAt { maps with counters := maps.counters.put counter number } other =
      if counter.entity = other then number.map encodeAmount else maps.valueAt other := by
  cases counter <;> cases other <;> simp [valueAt, Table.lookup_put, Counter.entity]

end

/-- What the maps say about a question to a reader. -/
def answer (maps : TypedMaps) : Lookup → Outcome
  | .balance address held => .amount (maps.balances.find (address, held))
  | .balances accounts => .amounts (accounts.map maps.balances.find)
  | .loan lent destination => .amount (some (maps.loans.amount (lent, destination)))
  | .asset id => .asset (maps.assets.lookup id)
  | .order id => .order (maps.orders.lookup id)
  | .project id => .project (maps.projects.lookup id)
  | .update id => .update (maps.updates.lookup id)
  | .hashMatches id candidate => .verdict ((maps.updates.lookup id).map fun record =>
      Slot.trim record.executableHash == candidate)
  | .counter which => .amount (maps.counters.lookup which)

/-- A question, which changes nothing. -/
def ask (answer : TypedMaps → Outcome) : Fallible StorageError TypedMaps Outcome :=
  fun maps => (.ok (answer maps), maps)

/-- A change of the maps. One that is refused changes nothing. -/
def change (next : TypedMaps → Except StorageError TypedMaps) :
    Fallible StorageError TypedMaps Outcome := fun maps =>
  match next maps with
  | .ok after => (.ok .done, after)
  | .error error => (.error error, maps)

/-- Whether a record may be written where one may be already. -/
def permit (policy : OverwritePolicy) (taken : Bool) (entity : Entity) :
    Except StorageError Unit :=
  if policy = .reject ∧ taken then .error (.alreadyExists entity.kind.name entity.key) else .ok ()

/-- Give an asset its record. The symbol is looked at before the metadata. -/
def setAsset (maps : TypedMaps) (id : Identifier) (record : AssetRecord) :
    Except StorageError TypedMaps :=
  if Writer.sizedLimit < record.symbol.length then
    .error (.fieldTooLong "symbol" record.symbol.length Writer.sizedLimit)
  else if Writer.sizedLimit < record.metadata.length then
    .error (.fieldTooLong "metadata" record.metadata.length Writer.sizedLimit)
  else .ok { maps with assets := maps.assets.put id (some record) }

def allocate (maps : TypedMaps) (allocation : Allocation) : TypedMaps :=
  { maps with
    balances := maps.balances.set (allocation.address, Identifier.native) allocation.balance }

/-- What an operation does to the maps. -/
def operate : Operation → Fallible StorageError TypedMaps Outcome
  | .balanceGet address held => ask fun maps => maps.answer (.balance address held)
  | .balanceAmount address held =>
    ask fun maps => .amount (some (maps.balances.amount (address, held)))
  | .balanceSet address held balance => change fun maps =>
    .ok { maps with balances := maps.balances.set (address, held) balance }
  | .balanceDelete address held => change fun maps =>
    .ok { maps with balances := maps.balances.put (address, held) none }
  | .balanceAdd address held amount create => change fun maps =>
    if maps.balances.find (address, held) = none ∧ create = false then .ok maps
    else (maps.balances.add (.balance address held) (address, held) amount).map fun balances =>
      { maps with balances }
  | .balanceSub address held amount => change fun maps =>
    (maps.balances.sub (.balance address held) (address, held) amount).map fun balances =>
      { maps with balances }
  | .loanGet lent destination => ask fun maps => maps.answer (.loan lent destination)
  | .loanSet lent destination amount => change fun maps =>
    .ok { maps with loans := maps.loans.set (lent, destination) amount }
  | .loanAdd lent destination amount => change fun maps =>
    (maps.loans.add (.loan lent destination) (lent, destination) amount).map fun loans =>
      { maps with loans }
  | .loanSub lent destination amount => change fun maps =>
    (maps.loans.sub (.loan lent destination) (lent, destination) amount).map fun loans =>
      { maps with loans }
  | .assetGet id => ask fun maps => maps.answer (.asset id)
  | .assetSet id record => change fun maps => maps.setAsset id record
  | .assetCreate id record policy => change fun maps => do
    permit policy (maps.assets.lookup id).isSome (.asset id)
    maps.setAsset id record
  | .assetDelete id => change fun maps =>
    .ok { maps with assets := maps.assets.put id none }
  | .orderGet id => ask fun maps => maps.answer (.order id)
  | .orderSet id record => change fun maps =>
    .ok { maps with orders := maps.orders.put id (some record) }
  | .orderDelete id => change fun maps =>
    .ok { maps with orders := maps.orders.put id none }
  | .transactionGet id => ask fun maps => .transaction (maps.transactions.lookup id)
  | .transactionStore id record => change fun maps =>
    .ok { maps with transactions := maps.transactions.put id (some record) }
  | .projectGet id => ask fun maps => maps.answer (.project id)
  | .projectSet policy id record => change fun maps => do
    permit policy (maps.projects.lookup id).isSome (.project id)
    return { maps with projects := maps.projects.put id (some record) }
  | .updateGet id => ask fun maps => maps.answer (.update id)
  | .updateSet policy id record => change fun maps => do
    permit policy (maps.updates.lookup id).isSome (.update id)
    return { maps with updates := maps.updates.put id (some record) }
  | .counterGet counter => ask fun maps => maps.answer (.counter counter)
  | .counterPut counter number => change fun maps =>
    .ok { maps with counters := maps.counters.put counter (some number) }

/-- What a step does to the maps. First balances are given out in order. -/
def act : LedgerStep → Fallible StorageError TypedMaps Outcome
  | .operate operation => operate operation
  | .found genesis => change fun maps => .ok (genesis.allocations.foldl allocate maps)

end TypedMaps

end DeviceLedger
