import DeviceLedger.CommandLine.Failure
import DeviceLedger.CommandLine.Invocation
import DeviceLedger.Json.Format
import DeviceLedger.Text.Blank

/-!
The command that shows a stored value. Members are shown in the order of their names.
-/

namespace DeviceLedger.CommandLine

namespace ValueKind

/-- The members of a stored value of a kind. -/
def members (kind : ValueKind) (value : Bytes) : Except StorageError (List (String × Json)) :=
  match kind with
  | transaction => (TransactionRecord.decode value).map TransactionRecord.members
  | balance => (decodeAmount "balance" value).map fun amount => [("balance", .nat amount.toNat)]
  | loan => (decodeAmount "loan" value).map fun amount => [("amount", .nat amount.toNat)]
  | counter => (decodeAmount "counter" value).map fun amount => [("value", .nat amount.toNat)]
  | order => (OrderRecord.decode value).map OrderRecord.members
  | asset => do
    let record ← AssetRecord.decode value
    return [
      ("symbol", .text (Utf8.lossy record.symbol)),
      ("decimals", .nat record.decimals.toNat),
      ("metadata", .text (Utf8.lossy record.metadata)),
      ("supply", .nat record.supply.toNat),
      ("owner", JsonFormat.toJson record.owner),
      ("warp", .flag record.warp)]
  | project => do
    let record ← ProjectRecord.decode value
    return [
      ("name", .text record.nameText),
      ("description", .text record.descriptionText),
      ("owner", .text record.ownerText),
      ("logo", .text record.logoText)]
  | update => do
    let record ← UpdateRecord.decode value
    return [
      ("project_id", .text record.projectIdText),
      ("executable_hash", .text record.executableHashText),
      ("ipfs_url", .text record.ipfsUrlText),
      ("device_name", .text record.deviceNameText),
      ("version", .nat record.version.toNat),
      ("success_count", .nat record.successCount.toNat)]

end ValueKind

/-- The object that a hexadecimal text shows as a value of a kind. White space around the text does
not count. -/
def decoded (kind : ValueKind) (written : String) : Except Failure Json :=
  match Hex.decode (Blank.trim written) with
  | .error fault => .error (.notHexadecimal fault)
  | .ok value => ((kind.members value).mapError .storage).map Json.sortedObject

/-- A member in a line, with its name filled up to sixteen characters. A text stands as it is. -/
def memberLine (name : String) (value : Json) : String :=
  let label := name ++ ":"
  let shown :=
    match value with
    | .text text => text
    | other => other.compact
  "  " ++ label ++ String.ofList (List.replicate (16 - label.length) ' ') ++ " " ++ shown ++ "\n"

def showDecoded (value : Json) : OutputFormat → String
  | .json => value.pretty ++ "\n"
  | .text =>
    match value with
    | .object members => String.join (members.map fun (name, member) => memberLine name member)
    | _ => ""

end DeviceLedger.CommandLine
