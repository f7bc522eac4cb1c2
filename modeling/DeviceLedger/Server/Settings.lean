import DeviceLedger.Json.Format
import DeviceLedger.Server.Error
import DeviceLedger.Toml.Scan

/-!
The settings of the server, their TOML form and their JSON form. A setting that is left out has its
default, and a setting with an unknown name is ignored.
-/

namespace DeviceLedger

namespace OverwritePolicy

/-- The policy that a value stands for: its name, or a table with its name as the only key and
nothing in it. -/
def ofToml? : Toml → Option OverwritePolicy
  | .text name => ofName? name
  | .inline [(name, content)] | .table _ [(name, content)] =>
    match content with
    | .array [] | .inline [] | .table _ [] => ofName? name
    | _ => none
  | _ => none

end OverwritePolicy

namespace StorageSettings

/-- The storage settings in the entries of a table. -/
def ofEntries? (entries : Toml.Entries) : Option StorageSettings :=
  match entries.lookup "overwrite" with
  | none => some default
  | some value => (OverwritePolicy.ofToml? value).map fun policy => ⟨policy⟩

/-- The storage settings that a list gives in their order. -/
def ofItems? : List Toml → Option StorageSettings
  | [] => some default
  | value :: _ => (OverwritePolicy.ofToml? value).map fun policy => ⟨policy⟩

/-- The storage settings that a value stands for. A time is a table without known settings. -/
def ofToml? : Toml → Option StorageSettings
  | .table _ entries | .inline entries => ofEntries? entries
  | .array items | .tables items => ofItems? items
  | .dateTime => some default
  | _ => none

def parse? (source : String) : Option StorageSettings := (Toml.parse? source).bind ofEntries?

def document (settings : StorageSettings) : String :=
  "overwrite = \"" ++ settings.overwrite.name ++ "\"\n"

end StorageSettings

/-- The settings of the server: where it listens, the file of the first balances, the greatest
number of accounts in a batch, and how it stores. -/
structure ServerSettings where
  bindAddress : SocketAddress
  genesis : Option String
  maxBatchKeys : Nat
  storage : StorageSettings
  deriving DecidableEq

instance : Inhabited ServerSettings := ⟨⟨.loopback 9650, none, 256, default⟩⟩

namespace ServerSettings

/-- The value of one setting, or its default if it is left out. -/
def setting {α : Type} (entries : Toml.Entries) (name : String) (read : Toml → Option α)
    (default : α) : Option α :=
  (entries.lookup name).elim (some default) read

def addressOf? : Toml → Option SocketAddress
  | .text address => SocketAddress.parse? address
  | _ => none

def pathOf? : Toml → Option (Option String)
  | .text path => some (some path)
  | _ => none

def countOf? : Toml → Option Nat
  | .integer number => if 0 ≤ number then some number.toNat else none
  | _ => none

/-- The settings in the entries of a document, if each has its form. -/
def ofEntries? (entries : Toml.Entries) : Option ServerSettings := do
  let standard : ServerSettings := default
  return {
    bindAddress := ← setting entries "bind_addr" addressOf? standard.bindAddress
    genesis := ← setting entries "genesis" pathOf? standard.genesis
    maxBatchKeys := ← setting entries "max_batch_keys" countOf? standard.maxBatchKeys
    storage := ← setting entries "storage" StorageSettings.ofToml? standard.storage }

/-- The settings of a document. Batches may not be limited to nothing. -/
def parse (source : String) : Except SettingsError ServerSettings :=
  match (Toml.parse? source).bind ofEntries? with
  | none => .error (.invalid "the document does not hold server settings")
  | some settings => if settings.maxBatchKeys = 0 then .error .noBatchKeys else .ok settings

def load (host : Host) (path : String) : Except ServerError ServerSettings :=
  match host.readText path with
  | .error error => .error (.files error)
  | .ok source => (parse source).mapError .settings

def toJson (settings : ServerSettings) : Json := .object [
  ("bind_addr", .text settings.bindAddress.render),
  ("genesis", (settings.genesis.map Json.text).getD .null),
  ("max_batch_keys", .nat settings.maxBatchKeys),
  ("storage", JsonFormat.toJson settings.storage)]

end ServerSettings

end DeviceLedger
