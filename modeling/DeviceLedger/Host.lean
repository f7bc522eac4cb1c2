import DeviceLedger.Net.SocketAddress
import DeviceLedger.Text.Utf8

/-!
What the program finds around it: files and the network. A host may refuse to read a file or to
bind an address, and the refusals are worded as the operating system words them. A path is walked
part by part through the directories, and its first part that leads nowhere decides.
-/

namespace DeviceLedger

/-- A refusal by the operating system, or a file that is no text. -/
inductive IoError where
  | notFound
  | permissionDenied
  | notADirectory
  | isADirectory
  | nameTooLong
  | addressNotAvailable
  | zeroInName
  | notText
  deriving DecidableEq, Repr

def IoError.message : IoError → String
  | .notFound => "No such file or directory (os error 2)"
  | .permissionDenied => "Permission denied (os error 13)"
  | .notADirectory => "Not a directory (os error 20)"
  | .isADirectory => "Is a directory (os error 21)"
  | .nameTooLong => "File name too long (os error 36)"
  | .addressNotAvailable => "Cannot assign requested address (os error 99)"
  | .zeroInName => "file name contained an unexpected NUL byte"
  | .notText => "stream did not contain valid UTF-8"

/-- The files and the network around the program. -/
structure Host where
  readFile : String → Except IoError Bytes
  bind : SocketAddress → Except IoError Unit

namespace Host

def readText (host : Host) (path : String) : Except IoError String := do
  match Utf8.strict? (← host.readFile path) with
  | some text => return text
  | none => throw .notText

/-- Where something lies: the names from the root down. -/
abbrev Location := List String

/-- The files that can be read, each with its location, and the directories that are there even if
nothing lies in them. -/
structure Files where
  contents : List (Location × Bytes)
  directories : List Location

namespace Files

/-- The content of the file at a location. -/
def content? (files : Files) (location : Location) : Option Bytes := files.contents.lookup location

/-- Whether a directory lies at a location: one that is listed, or one above something. -/
def isDirectory (files : Files) (location : Location) : Bool :=
  files.directories.any (location.isPrefixOf ·) ||
    files.contents.any fun (stored, _) =>
      location.isPrefixOf stored && location.length < stored.length

/-- Walk from a location along the parts of a path. Every part has to start from a directory; an
empty part and a dot stay there, two dots go up, and the root lies above itself. -/
def walk (files : Files) (location : Location) : List String → Except IoError Location
  | [] => .ok location
  | part :: parts =>
    if (files.content? location).isSome then .error .notADirectory
    else if part = "" ∨ part = "." then walk files location parts
    else if part = ".." then walk files location.dropLast parts
    else if 255 < part.utf8ByteSize then .error .nameTooLong
    else
      let next := location ++ [part]
      if (files.content? next).isSome ∨ files.isDirectory next then walk files next parts
      else .error .notFound

/-- Read a path, which starts at the root if it begins with a slash and otherwise at the working
directory. A whole path has at most 4095 bytes. -/
def read (files : Files) (working : Location) (path : String) : Except IoError Bytes := do
  if path.toList.any (· == '\x00') then throw .zeroInName
  if 4095 < path.utf8ByteSize then throw .nameTooLong
  if path = "" then throw .notFound
  let start := if path.startsWith "/" then [] else working
  match files.content? (← files.walk start (path.splitOn "/")) with
  | some content => return content
  | none => throw .isADirectory

end Files

/-- The directories below the root of a system. -/
def systemDirectories : List String :=
  ["bin", "boot", "dev", "etc", "home", "lib", "lib64", "media", "mnt", "opt", "proc", "root",
    "run", "sbin", "srv", "sys", "tmp", "usr", "var"]

/-- The device that is always empty. -/
def emptyDevice : Location × Bytes := (["dev", "null"], [])

/-- The working directory, which has no name that could be written. -/
def workingDirectory : Location := ["tmp", ""]

/-- The location of a file of the working directory, whose name may have several parts. -/
def locationOf (name : String) : Location :=
  workingDirectory ++ (name.splitOn "/").filter fun part => part ≠ "" ∧ part ≠ "."

/-- The files of a system on which the working directory holds the given files. -/
def filesWith (files : List (String × Bytes)) : Files where
  contents := emptyDevice :: files.map fun (name, content) => (locationOf name, content)
  directories := workingDirectory :: systemDirectories.map fun name => [name]

/-- Bind an address where no network interface is up. Any version 4 address may be bound, of the
version 6 addresses only the unspecified one; ports below 1024 need a privilege. -/
def bindIsolated (address : SocketAddress) : Except IoError Unit :=
  if 0 < address.portNumber ∧ address.portNumber < 1024 then .error .permissionDenied
  else
    match address.host with
    | .v4 _ => .ok ()
    | .v6 groups _ => if groups.all (· == 0) then .ok () else .error .addressNotAvailable

/-- A host with the given files and no network interface. -/
def isolated (files : List (String × Bytes)) : Host :=
  ⟨(filesWith files).read workingDirectory, bindIsolated⟩

end Host

end DeviceLedger
