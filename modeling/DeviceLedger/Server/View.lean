import DeviceLedger.Json.Format

/-!
What the service shows of the ledger, and the batches that it is asked for.
-/

namespace DeviceLedger

open Json.Read (required)

/-- A project with the texts of its slots. -/
structure ProjectView where
  id : Identifier
  name : String
  description : String
  owner : String
  logo : String
  deriving DecidableEq

namespace ProjectView

def ofRecord (id : Identifier) (record : ProjectRecord) : ProjectView :=
  ⟨id, record.nameText, record.descriptionText, record.ownerText, record.logoText⟩

instance : JsonFormat ProjectView where
  toJson view := .object [
    ("id", JsonFormat.toJson view.id),
    ("name", .text view.name),
    ("description", .text view.description),
    ("owner", .text view.owner),
    ("logo", .text view.logo)]
  read := Json.Read.record [
    required "id" (JsonFormat.read Identifier),
    required "name" Json.Read.text,
    required "description" Json.Read.text,
    required "owner" Json.Read.text,
    required "logo" Json.Read.text]
  ofJson
    | .object [("id", id), ("name", name), ("description", description), ("owner", owner),
        ("logo", logo)] => do
      return ⟨← Fixed.ofJson? id, ← name.text?, ← description.text?, ← owner.text?, ← logo.text?⟩
    | _ => none

end ProjectView

/-- An update with the texts of its slots. -/
structure UpdateView where
  id : Identifier
  projectId : String
  executableHash : String
  ipfsUrl : String
  deviceName : String
  version : UInt8
  successCount : UInt8
  deriving DecidableEq

namespace UpdateView

def ofRecord (id : Identifier) (record : UpdateRecord) : UpdateView :=
  ⟨id, record.projectIdText, record.executableHashText, record.ipfsUrlText, record.deviceNameText,
    record.version, record.successCount⟩

instance : JsonFormat UpdateView where
  toJson view := .object [
    ("id", JsonFormat.toJson view.id),
    ("project_id", .text view.projectId),
    ("executable_hash", .text view.executableHash),
    ("ipfs_url", .text view.ipfsUrl),
    ("device_name", .text view.deviceName),
    ("version", .nat view.version.toNat),
    ("success_count", .nat view.successCount.toNat)]
  read := Json.Read.record [
    required "id" (JsonFormat.read Identifier),
    required "project_id" Json.Read.text,
    required "executable_hash" Json.Read.text,
    required "ipfs_url" Json.Read.text,
    required "device_name" Json.Read.text,
    required "version" Json.Read.u8,
    required "success_count" Json.Read.u8]
  ofJson
    | .object [("id", id), ("project_id", projectId), ("executable_hash", executableHash),
        ("ipfs_url", ipfsUrl), ("device_name", deviceName), ("version", version),
        ("success_count", successCount)] => do
      return ⟨← Fixed.ofJson? id, ← projectId.text?, ← executableHash.text?, ← ipfsUrl.text?,
        ← deviceName.text?, ← version.u8?, ← successCount.u8?⟩
    | _ => none

end UpdateView

/-- The balance of an asset at an address. -/
structure BalanceView where
  address : Address
  asset : Identifier
  balance : UInt64
  deriving DecidableEq

instance : JsonFormat BalanceView where
  toJson view := .object [
    ("address", JsonFormat.toJson view.address),
    ("asset", JsonFormat.toJson view.asset),
    ("balance", .nat view.balance.toNat)]
  read := Json.Read.record [
    required "address" (JsonFormat.read Address),
    required "asset" (JsonFormat.read Identifier),
    required "balance" Json.Read.u64]
  ofJson
    | .object [("address", address), ("asset", asset), ("balance", balance)] => do
      return ⟨← Fixed.ofJson? address, ← Fixed.ofJson? asset, ← balance.u64?⟩
    | _ => none

/-- An asset with its sized fields as texts. -/
structure AssetView where
  id : Identifier
  symbol : String
  decimals : UInt8
  metadata : String
  supply : UInt64
  owner : Address
  warp : Bool
  deriving DecidableEq

namespace AssetView

def ofRecord (id : Identifier) (record : AssetRecord) : AssetView :=
  ⟨id, Utf8.lossy record.symbol, record.decimals, Utf8.lossy record.metadata, record.supply,
    record.owner, record.warp⟩

instance : JsonFormat AssetView where
  toJson view := .object [
    ("id", JsonFormat.toJson view.id),
    ("symbol", .text view.symbol),
    ("decimals", .nat view.decimals.toNat),
    ("metadata", .text view.metadata),
    ("supply", .nat view.supply.toNat),
    ("owner", JsonFormat.toJson view.owner),
    ("warp", .flag view.warp)]
  read := Json.Read.record [
    required "id" (JsonFormat.read Identifier),
    required "symbol" Json.Read.text,
    required "decimals" Json.Read.u8,
    required "metadata" Json.Read.text,
    required "supply" Json.Read.u64,
    required "owner" (JsonFormat.read Address),
    required "warp" Json.Read.flag]
  ofJson
    | .object [("id", id), ("symbol", symbol), ("decimals", decimals), ("metadata", metadata),
        ("supply", supply), ("owner", owner), ("warp", warp)] => do
      return ⟨← Fixed.ofJson? id, ← symbol.text?, ← decimals.u8?, ← metadata.text?, ← supply.u64?,
        ← Fixed.ofJson? owner, ← warp.flag?⟩
    | _ => none

end AssetView

/-- An order under its identifier. In JSON the members of the order stand beside the identifier. -/
structure OrderView where
  id : Identifier
  order : OrderRecord
  deriving DecidableEq

instance : JsonFormat OrderView where
  toJson view := .object (("id", JsonFormat.toJson view.id) :: view.order.members)
  read := Json.Read.merged (required "id" (JsonFormat.read Identifier) :: OrderRecord.fields)
  ofJson
    | .object (("id", id) :: members) => do
      return ⟨← Fixed.ofJson? id, ← OrderRecord.ofMembers? members⟩
    | _ => none

/-- An amount lent. -/
structure LoanView where
  asset : Identifier
  destination : Identifier
  amount : UInt64
  deriving DecidableEq

instance : JsonFormat LoanView where
  toJson view := .object [
    ("asset", JsonFormat.toJson view.asset),
    ("destination", JsonFormat.toJson view.destination),
    ("amount", .nat view.amount.toNat)]
  read := Json.Read.record [
    required "asset" (JsonFormat.read Identifier),
    required "destination" (JsonFormat.read Identifier),
    required "amount" Json.Read.u64]
  ofJson
    | .object [("asset", asset), ("destination", destination), ("amount", amount)] => do
      return ⟨← Fixed.ofJson? asset, ← Fixed.ofJson? destination, ← amount.u64?⟩
    | _ => none

/-- An account that a batch asks for, with its identifiers as they were written. -/
structure AccountQuery where
  address : String
  asset : String
  deriving DecidableEq

instance : JsonFormat AccountQuery where
  toJson query := .object [("address", .text query.address), ("asset", .text query.asset)]
  read := Json.Read.record [required "address" Json.Read.text, required "asset" Json.Read.text]
  ofJson
    | .object [("address", address), ("asset", asset)] => do
      return ⟨← address.text?, ← asset.text?⟩
    | _ => none

/-- The accounts whose balances are asked for together. -/
structure BalanceBatch where
  accounts : List AccountQuery
  deriving DecidableEq

instance : JsonFormat BalanceBatch where
  toJson batch := .object [("accounts", .list (batch.accounts.map JsonFormat.toJson))]
  read := Json.Read.record [required "accounts" (Json.Read.list (JsonFormat.read AccountQuery))]
  ofJson
    | .object [("accounts", .list items)] => do
      return ⟨← items.mapM JsonFormat.ofJson⟩
    | _ => none

end DeviceLedger
