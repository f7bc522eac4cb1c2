import DeviceLedger.Error
import DeviceLedger.Host
import DeviceLedger.Json.Value

/-!
What can go wrong in the server, as causes, with the wording, the status and the response of each.
-/

namespace DeviceLedger

/-- Why settings are refused. -/
inductive SettingsError where
  | noBatchKeys
  | invalid (reason : String)
  deriving DecidableEq

def SettingsError.message : SettingsError → String
  | .noBatchKeys => "max_batch_keys must be positive"
  | .invalid reason => reason

/-- Why the server could not start or answer. -/
inductive ServerError where
  | notFound (entity id : String)
  | badRequest (field reason : String)
  | hashMismatch (id : String)
  | batchTooLarge (length limit : Nat)
  | storage (error : StorageError)
  | settings (error : SettingsError)
  | genesis (reason : String)
  | files (error : IoError)
  | internal (reason : String)
  deriving DecidableEq

namespace ServerError

def message : ServerError → String
  | notFound entity id => entity ++ " not found: " ++ id
  | badRequest field reason => "invalid " ++ field ++ ": " ++ reason
  | hashMismatch id => "executable hash does not match update " ++ id
  | batchTooLarge length limit =>
    "batch of " ++ toString length ++ " keys exceeds the limit of " ++ toString limit
  | storage error => "storage error: " ++ error.message
  | settings error => "configuration error: " ++ error.message
  | genesis reason => "genesis error: " ++ reason
  | files error => "I/O error: " ++ error.message
  | internal reason => "internal error: " ++ reason

/-- The status of a response to an error: 404 for what is not there, 400 for what the request got
wrong, and 500 for what the server got wrong. -/
def status : ServerError → Nat
  | notFound _ _ => 404
  | badRequest _ _ => 400
  | hashMismatch _ => 400
  | batchTooLarge _ _ => 400
  | storage _ => 500
  | settings _ => 500
  | genesis _ => 500
  | files _ => 500
  | internal _ => 500

/-- The body of a response to an error. -/
def body (error : ServerError) : Json := .object [("error", .text error.message)]

end ServerError

end DeviceLedger
