import DeviceLedger.CommandLine.Level
import DeviceLedger.Server.Error

/-!
Failures of the program with their causes, and the report of them. The report names the failure
and then lists what caused it, numbered if there is more than one cause.
-/

namespace DeviceLedger

/-- The wording of an error of the server, followed by that of its causes. -/
def ServerError.causes (error : ServerError) : List String :=
  match error with
  | .files cause => [error.message, cause.message]
  | .storage (.state cause) => [error.message, (StorageError.state cause).message, cause.message]
  | .storage cause => [error.message, cause.message]
  | _ => [error.message]

namespace CommandLine

/-- Why a command that was understood failed. -/
inductive Failure where
  | identifier (field written : String) (error : WidthError)
  | notHexadecimal (fault : Hex.Fault)
  | storage (error : StorageError)
  | settings (path : String) (error : ServerError)
  | bindAddress (written : String)
  | server (error : ServerError)
  deriving DecidableEq

namespace Failure

/-- The wording of a failure, followed by that of its causes. -/
def causes : Failure → List String
  | identifier field written error => ["invalid " ++ field ++ ": " ++ written, error.message]
  | notHexadecimal fault => ["value is not valid hex", fault.message]
  | storage error => [error.message]
  | settings path error => ("loading config " ++ path) :: error.causes
  | bindAddress written => ["invalid bind address: " ++ written, "invalid socket address syntax"]
  | server error => error.causes

/-- The causes under the failure: one by itself, several with numbers. -/
def listed : List String → String
  | [] => ""
  | [cause] => "\n\nCaused by:\n    " ++ cause
  | causes =>
    "\n\nCaused by:" ++ String.join (causes.zipIdx.map fun (cause, index) =>
      "\n    " ++ toString index ++ ": " ++ cause)

def report (failure : Failure) : String :=
  match failure.causes with
  | [] => ""
  | first :: causes => "Error: " ++ first ++ listed causes ++ "\n"

end Failure

end CommandLine

end DeviceLedger
