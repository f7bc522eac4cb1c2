import DeviceLedger.CommandLine.Run

/-!
The program. The files that its work needs are read first: the settings that the command line
names, and the first balances that the settings name.
-/

namespace DeviceLedger

/-- A path that was tried, and what came of it. -/
abbrev Attempt := String × Except IoError Bytes

/-- The refusal behind an error of the operating system. -/
def refusalOf : IO.Error → IoError
  | .permissionDenied .. => .permissionDenied
  | .inappropriateType .. => .isADirectory
  | _ => .notFound

def attempt (path : String) : IO Attempt := do
  try
    let content ← IO.FS.readBinFile path
    return (path, .ok content.toList)
  catch error =>
    return (path, .error (refusalOf error))

/-- The host that has only the files that were tried. -/
def hostOf (attempts : List Attempt) : Host :=
  ⟨fun path => (attempts.lookup path).getD (.error .notFound), Host.bindIsolated⟩

/-- The path of the settings that the command line names. -/
def settingsPath? (words : List String) : Option String :=
  match CommandLine.Invocation.ofWords words with
  | .ok ⟨.serve path _, _, _⟩ => path
  | _ => none

/-- The path of the first balances that the settings name. -/
def genesisPath? (host : Host) (words : List String) : Option String :=
  match CommandLine.serverSettings host (settingsPath? words) none with
  | .ok settings => settings.genesis
  | .error _ => none

/-- The host with the files that the command line needs. -/
def gather (words : List String) : IO Host := do
  let settings ← (settingsPath? words).toList.mapM attempt
  let balances ← (genesisPath? (hostOf settings) words).toList.mapM attempt
  return hostOf (settings ++ balances)

end DeviceLedger

def main (words : List String) : IO UInt32 := do
  let host ← DeviceLedger.gather words
  let result := DeviceLedger.CommandLine.run host words
  IO.print result.output
  IO.eprint result.errors
  return UInt32.ofNat (result.exit.getD 0)
