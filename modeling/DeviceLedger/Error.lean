import DeviceLedger.Identifier
import DeviceLedger.Store

/-!
What can go wrong in a ledger operation. Each error is a cause with the values that it names, and
`StorageError.message` words all of them.
-/

namespace DeviceLedger

/-- The amount that an addition or subtraction was about. -/
inductive AmountTarget where
  | balance (address : Address) (asset : Identifier)
  | loan (asset destination : Identifier)
  deriving DecidableEq

def AmountTarget.message : AmountTarget → String
  | .balance address asset =>
    "balance (asset=" ++ asset.toHex ++ ", addr=" ++ address.toHex ++ ")"
  | .loan asset destination =>
    "loan (asset=" ++ asset.toHex ++ ", destination=" ++ destination.toHex ++ ")"

/-- Why a stored value is no record: a field reaches past the end, or bytes are left over. -/
inductive Malformation where
  | short (need offset left : Nat)
  | trailing (count : Nat)
  deriving DecidableEq, Repr

def Malformation.message : Malformation → String
  | .short need offset left =>
    "need " ++ toString need ++ " bytes at offset " ++ toString offset ++ ", have " ++ toString left
  | .trailing count => toString count ++ " trailing bytes"

/-- Why a ledger operation failed. -/
inductive StorageError where
  | overflow (target : AmountTarget) (current amount : UInt64)
  | underflow (target : AmountTarget) (current amount : UInt64)
  | malformed (entity : String) (reason : Malformation)
  | fieldTooLong (field : String) (length limit : Nat)
  | alreadyExists (entity : String) (key : Bytes)
  | state (failure : StateError)
  deriving DecidableEq

def StorageError.message : StorageError → String
  | .overflow target current amount =>
    "could not add " ++ target.message ++ " (current=" ++ toString current.toNat ++ ", amount=" ++
      toString amount.toNat ++ "): overflow"
  | .underflow target current amount =>
    "could not subtract " ++ target.message ++ " (current=" ++ toString current.toNat ++
      ", amount=" ++ toString amount.toNat ++ "): underflow"
  | .malformed entity reason => "malformed " ++ entity ++ " record: " ++ reason.message
  | .fieldTooLong field length limit =>
    field ++ " is " ++ toString length ++ " bytes, exceeds the maximum of " ++ toString limit
  | .alreadyExists entity key => entity ++ " already exists at key " ++ Hex.encode key
  | .state failure => "state error: " ++ failure.message

end DeviceLedger
