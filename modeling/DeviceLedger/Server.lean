import DeviceLedger.Genesis
import DeviceLedger.Server.Settings
import DeviceLedger.Server.Route

/-!
The server: its settings and the reader behind it. A new server reads a store that holds the first
balances that its settings name, and nothing else.
-/

namespace DeviceLedger

/-- Settings and the reader that is asked. -/
structure Server where
  settings : ServerSettings
  reader : Reader

namespace Server

/-- The first balances in a file. -/
def loadGenesis (host : Host) (path : String) : Except ServerError Genesis :=
  match host.readFile path with
  | .error error => .error (.files error)
  | .ok content =>
    match Utf8.strict? content with
    | none => .error (.files .notText)
    | some _ =>
      match JsonFormat.parse Genesis content with
      | .ok genesis => .ok genesis
      | .error _ => .error (.genesis "the file does not hold allocations")

/-- The store that holds the given first balances alone. -/
def initialStore (genesis : Genesis) : Except ServerError Store :=
  match genesis.apply (View.ofStore ∅) with
  | (.ok (), view) => .ok view.store
  | (.error error, _) => .error (.storage error)

/-- A new server. Without a file of first balances it reads an empty store. -/
def ofSettings (host : Host) (settings : ServerSettings) : Except ServerError Server :=
  match settings.genesis with
  | none => .ok ⟨settings, .ofStore ∅⟩
  | some path => do
    let genesis ← loadGenesis host path
    let store ← initialStore genesis
    return ⟨settings, .ofStore store⟩

/-- What the server answers with: its reader, and the limit of batches in its settings. -/
def service (server : Server) : Service := ⟨server.reader, server.settings.maxBatchKeys⟩

def listen (server : Server) (host : Host) : Except ServerError Unit :=
  (host.bind server.settings.bindAddress).mapError .files

end Server

end DeviceLedger
