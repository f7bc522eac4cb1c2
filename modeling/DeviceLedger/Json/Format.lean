import DeviceLedger.Json.Read
import DeviceLedger.Ledger.Counter
import DeviceLedger.Policy
import DeviceLedger.Record.Asset
import DeviceLedger.Record.Order
import DeviceLedger.Record.Project
import DeviceLedger.Record.Transaction
import DeviceLedger.Record.Update

/-!
The JSON form of each type that has one: how a value is shown, how its shape is read, and how a
value is made of what was read. Identifiers and addresses are hexadecimal strings, byte strings are
lists of numbers, and settings and counters go by their names.
-/

namespace DeviceLedger

/-- A type whose values are written as JSON and read back. -/
class JsonFormat (α : Type) where
  toJson : α → Json
  read : Json.Read Json
  ofJson : Json → Option α

namespace JsonFormat

def write {α : Type} [JsonFormat α] (value : α) : String := (toJson value).compact

/-- A value made of what a reader found. -/
def finish {α : Type} [JsonFormat α] : Except Json.Fault Json → Except Json.Fault α
  | .error fault => .error fault
  | .ok found => (ofJson found).elim (.error .shape) .ok

/-- The value of which a text is the whole form. -/
def parse (α : Type) [JsonFormat α] (source : Bytes) : Except Json.Fault α :=
  finish ((read α).whole source)

/-- The value whose form a text begins with. -/
def parseAtStart (α : Type) [JsonFormat α] (source : Bytes) : Except Json.Fault α :=
  finish ((read α).atStart source)

end JsonFormat

namespace Json.Read

def u64 : Read Json := integer 0 18446744073709551615

def i64 : Read Json := integer (-9223372036854775808) 9223372036854775807

def u8 : Read Json := integer 0 255

end Json.Read

namespace Json

def u64? (value : Json) : Option UInt64 := value.nat?.map UInt64.ofNat

def u8? (value : Json) : Option UInt8 := value.nat?.map UInt8.ofNat

/-- The bytes that a list of numbers is. -/
def bytes? (value : Json) : Option Bytes := value.list?.bind fun items => items.mapM u8?

end Json

open Json.Read (required)

/-- The value of a fixed width that a hexadecimal string is. -/
def Fixed.ofJson? {width : Nat} (value : Json) : Option (Fixed width) := do
  match Fixed.ofHex width (← value.text?) with
  | .ok fixed => some fixed
  | .error _ => none

instance (width : Nat) : JsonFormat (Fixed width) where
  toJson fixed := .text fixed.toHex
  read := Json.Read.text
  ofJson := Fixed.ofJson?

/-- The units that a list of five numbers is. -/
def Units.ofJson? (value : Json) : Option Units := do
  let words ← (← value.list?).mapM Json.u64?
  if h : words.length = 5 then some ⟨words.toArray, by simpa using h⟩ else none

instance : JsonFormat Units where
  toJson units := .list (units.toList.map fun word => Json.nat word.toNat)
  read := Json.Read.row 5 Json.Read.u64
  ofJson := Units.ofJson?

def TransactionRecord.members (record : TransactionRecord) : List (String × Json) := [
  ("timestamp", .number record.timestamp.toInt),
  ("success", .flag record.success),
  ("units", JsonFormat.toJson record.units),
  ("fee", .nat record.fee.toNat)]

instance : JsonFormat TransactionRecord where
  toJson record := .object record.members
  read := Json.Read.record [
    required "timestamp" Json.Read.i64,
    required "success" Json.Read.flag,
    required "units" (JsonFormat.read Units),
    required "fee" Json.Read.u64]
  ofJson
    | .object [("timestamp", timestamp), ("success", success), ("units", units), ("fee", fee)] => do
      return ⟨Int64.ofInt (← timestamp.integer?), ← success.flag?, ← Units.ofJson? units,
        ← fee.u64?⟩
    | _ => none

instance : JsonFormat AssetRecord where
  toJson record := .object [
    ("symbol", .bytes record.symbol),
    ("decimals", .nat record.decimals.toNat),
    ("metadata", .bytes record.metadata),
    ("supply", .nat record.supply.toNat),
    ("owner", JsonFormat.toJson record.owner),
    ("warp", .flag record.warp)]
  read := Json.Read.record [
    required "symbol" (Json.Read.list Json.Read.u8),
    required "decimals" Json.Read.u8,
    required "metadata" (Json.Read.list Json.Read.u8),
    required "supply" Json.Read.u64,
    required "owner" (JsonFormat.read Address),
    required "warp" Json.Read.flag]
  ofJson
    | .object [("symbol", symbol), ("decimals", decimals), ("metadata", metadata),
        ("supply", supply), ("owner", owner), ("warp", warp)] => do
      return ⟨← symbol.bytes?, ← decimals.u8?, ← metadata.bytes?, ← supply.u64?,
        ← Fixed.ofJson? owner, ← warp.flag?⟩
    | _ => none

namespace OrderRecord

def members (record : OrderRecord) : List (String × Json) := [
  ("input", JsonFormat.toJson record.input),
  ("in_tick", .nat record.inTick.toNat),
  ("output", JsonFormat.toJson record.output),
  ("out_tick", .nat record.outTick.toNat),
  ("remaining", .nat record.remaining.toNat),
  ("owner", JsonFormat.toJson record.owner)]

def fields : List Json.Read.Field := [
  required "input" (JsonFormat.read Identifier),
  required "in_tick" Json.Read.u64,
  required "output" (JsonFormat.read Identifier),
  required "out_tick" Json.Read.u64,
  required "remaining" Json.Read.u64,
  required "owner" (JsonFormat.read Address)]

def ofMembers? : List (String × Json) → Option OrderRecord
  | [("input", input), ("in_tick", inTick), ("output", output), ("out_tick", outTick),
      ("remaining", remaining), ("owner", owner)] => do
    return ⟨← Fixed.ofJson? input, ← inTick.u64?, ← Fixed.ofJson? output, ← outTick.u64?,
      ← remaining.u64?, ← Fixed.ofJson? owner⟩
  | _ => none

end OrderRecord

instance : JsonFormat OrderRecord where
  toJson record := .object record.members
  read := Json.Read.record OrderRecord.fields
  ofJson
    | .object members => OrderRecord.ofMembers? members
    | _ => none

instance : JsonFormat OverwritePolicy where
  toJson policy := .text policy.name
  read := Json.Read.choice ["allow_collision", "reject"]
  ofJson value := value.text?.bind OverwritePolicy.ofName?

instance : JsonFormat StorageSettings where
  toJson settings := .object [("overwrite", JsonFormat.toJson settings.overwrite)]
  read := Json.Read.record
    [⟨"overwrite", JsonFormat.read OverwritePolicy, some (.text "allow_collision")⟩]
  ofJson
    | .object [("overwrite", overwrite)] => do
      return ⟨← overwrite.text?.bind OverwritePolicy.ofName?⟩
    | _ => none

instance : JsonFormat Counter where
  toJson counter := .text counter.name
  read := Json.Read.choice ["height", "timestamp", "fee"]
  ofJson value := value.text?.bind Counter.ofName?

/-- The JSON form of a project's slots as they are. -/
def ProjectRecord.toJson (record : ProjectRecord) : Json := .object [
  ("name", .bytes record.name),
  ("description", .bytes record.description),
  ("owner", .bytes record.owner),
  ("logo", .bytes record.logo)]

/-- The JSON form of an update's slots as they are. -/
def UpdateRecord.toJson (record : UpdateRecord) : Json := .object [
  ("project_id", .bytes record.projectId),
  ("executable_hash", .bytes record.executableHash),
  ("ipfs_url", .bytes record.ipfsUrl),
  ("device_name", .bytes record.deviceName),
  ("version", .nat record.version.toNat),
  ("success_count", .nat record.successCount.toNat)]

end DeviceLedger
