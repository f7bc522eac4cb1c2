import DeviceLedger.CommandLine.Decode
import DeviceLedger.CommandLine.Key
import DeviceLedger.Server

/-!
What the program prints and how it ends, for the words of its command line and a host.
-/

namespace DeviceLedger.CommandLine

/-- What was printed and how the program ended. A program that serves does not end. -/
structure Result where
  exit : Option Nat
  output : String
  errors : String
  deriving DecidableEq, Repr

namespace Result

/-- A program that did its work. -/
def success (output : String) : Result := ⟨some 0, output, ""⟩

/-- A program that failed after it had printed something. -/
def failed (output : String) (failure : Failure) : Result := ⟨some 1, output, failure.report⟩

end Result

/-- The line that the program shows for its version. -/
def versionLine : String := "hupd " ++ programVersion ++ "\n"

def usage : String :=
  "Usage: hupd [--verbose] [--format text|json] key|decode|serve|version ...\n"

def showVersion : OutputFormat → String
  | .text => versionLine
  | .json =>
    (Json.object [("name", .text "hupd"), ("version", .text programVersion)]).compact ++ "\n"

def runKey (kind : EntityKind) (identifiers : List String) (format : OutputFormat) : Result :=
  match entityOf? kind identifiers with
  | none => ⟨some 2, "", usage⟩
  | some (.error failure) => .failed "" failure
  | some (.ok entity) => .success (showKey entity format)

def runDecode (kind : ValueKind) (value : String) (format : OutputFormat) : Result :=
  match decoded kind value with
  | .error failure => .failed "" failure
  | .ok object => .success (showDecoded object format)

/-- The settings in a file, or the standard ones, with another address if one was written. -/
def serverSettings (host : Host) (path bind : Option String) : Except Failure ServerSettings := do
  let settings ←
    match path with
    | none => .ok default
    | some path => (ServerSettings.load host path).mapError (.settings path)
  match bind with
  | none => return settings
  | some written =>
    match SocketAddress.parse? written with
    | some address => return { settings with bindAddress := address }
    | none => throw (.bindAddress written)

def startServer (host : Host) (settings : ServerSettings) : Except ServerError Unit := do
  let server ← Server.ofSettings host settings
  server.listen host

/-- Say where the server listens, and start it. -/
def runServe (host : Host) (path bind : Option String) : Result :=
  match serverSettings host path bind with
  | .error failure => .failed "" failure
  | .ok settings =>
    let line := "hupd server on " ++ settings.bindAddress.render ++ "\n"
    match startServer host settings with
    | .error error => .failed line (.server error)
    | .ok () => ⟨none, line, ""⟩

def Invocation.run (host : Host) (invocation : Invocation) : Result :=
  match invocation.command with
  | .key kind identifiers => runKey kind identifiers invocation.format
  | .decode kind value => runDecode kind value invocation.format
  | .serve path bind => runServe host path bind
  | .version => .success (showVersion invocation.format)

/-- What happens when the command line is not carried out. -/
def Stop.result : Stop → Result
  | .misuse => ⟨some 2, "", usage⟩
  | .help => .success usage
  | .version => .success versionLine

/-- Carry out the words of the command line. -/
def run (host : Host) (words : List String) : Result :=
  match Invocation.ofWords words with
  | .error stop => stop.result
  | .ok invocation => invocation.run host

end DeviceLedger.CommandLine
