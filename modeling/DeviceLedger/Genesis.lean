import DeviceLedger.Json.Format
import DeviceLedger.Ledger.Balance

/-!
The balances of the native asset with which a ledger starts.
-/

namespace DeviceLedger

/-- A balance of the native asset at an address. -/
structure Allocation where
  address : Address
  balance : UInt64
  deriving DecidableEq

/-- The allocations in the order in which they are applied. -/
structure Genesis where
  allocations : List Allocation
  deriving DecidableEq

open Json.Read (required)

instance : JsonFormat Allocation where
  toJson allocation := .object [
    ("address", JsonFormat.toJson allocation.address),
    ("balance", .nat allocation.balance.toNat)]
  read := Json.Read.record [
    required "address" (JsonFormat.read Address),
    required "balance" Json.Read.u64]
  ofJson
    | .object [("address", address), ("balance", balance)] => do
      return ⟨← Fixed.ofJson? address, ← balance.u64?⟩
    | _ => none

instance : JsonFormat Genesis where
  toJson genesis := .object [("allocations", .list (genesis.allocations.map JsonFormat.toJson))]
  read := Json.Read.record
    [⟨"allocations", Json.Read.list (JsonFormat.read Allocation), some (.list [])⟩]
  ofJson
    | .object [("allocations", .list items)] => do
      return ⟨← items.mapM JsonFormat.ofJson⟩
    | _ => none

namespace Genesis

/-- Give every address its balance, in order, so that the last allocation for an address counts. -/
def apply (genesis : Genesis) : Action Unit :=
  genesis.allocations.forM fun allocation =>
    Balance.set allocation.address Identifier.native allocation.balance

end Genesis

end DeviceLedger
