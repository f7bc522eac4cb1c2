import DeviceLedger.CommandLine.Level
import DeviceLedger.Entity

/-!
What the words of the command line ask for. The switches for the format and for more output may
stand on any level, and the deepest one counts.
-/

namespace DeviceLedger.CommandLine

/-- What a value to be decoded is said to be. -/
inductive ValueKind where
  | transaction
  | balance
  | asset
  | order
  | loan
  | counter
  | project
  | update
  deriving DecidableEq, Repr

namespace ValueKind

def all : List ValueKind := [transaction, balance, asset, order, loan, counter, project, update]

def name : ValueKind → String
  | transaction => "transaction"
  | balance => "balance"
  | asset => "asset"
  | order => "order"
  | loan => "loan"
  | counter => "counter"
  | project => "project"
  | update => "update"

def ofName? (text : String) : Option ValueKind := all.find? fun kind => kind.name == text

end ValueKind

/-- How a result is printed. -/
inductive OutputFormat where
  | text
  | json
  deriving DecidableEq, Repr

/-- What is to be done. Identifiers stand as they were written. -/
inductive Command where
  | key (kind : EntityKind) (identifiers : List String)
  | decode (kind : ValueKind) (value : String)
  | serve (settings bind : Option String)
  | version
  deriving DecidableEq, Repr

/-- What is to be done, and how its result is printed. -/
structure Invocation where
  command : Command
  format : OutputFormat
  verbose : Bool
  deriving DecidableEq, Repr

namespace Invocation

/-- The switches of every level. -/
def commonSwitches : List Switch := [.help, .verbose, .format]

def root : Level :=
  ⟨.version :: commonSwitches, ["key", "decode", "serve", "version", "help"], []⟩

def keys : Level := ⟨commonSwitches, EntityKind.all.map EntityKind.name ++ ["help"], []⟩

/-- The level of the identifiers of one kind of key. -/
def identifiers (kind : EntityKind) : Level :=
  ⟨commonSwitches, [], kind.layout.widths.map fun _ _ => true⟩

/-- The level of a value and its kind. -/
def values : Level :=
  ⟨commonSwitches, [], [fun name => (ValueKind.ofName? name).isSome, fun _ => true]⟩

/-- The level of the settings of a server. -/
def settings : Level := ⟨commonSwitches ++ [.config, .bind], [], []⟩

/-- The level of a command that takes nothing. -/
def nothing : Level := ⟨commonSwitches, [], []⟩

def kindOf? (name : String) : Option EntityKind :=
  EntityKind.all.find? fun kind => kind.name == name

/-- An invocation with the switches that the levels were given, the deepest level first. -/
def ofCommand (command : Command) (given : List (Switch × String)) : Invocation where
  command
  format := if given.lookup .format = some "json" then .json else .text
  verbose := (given.lookup .verbose).isSome

/-- A request for help goes through if the words behind it lead to a command. -/
def help (words : List String) : Stop :=
  match words with
  | [] => .help
  | ["key", name] => if keys.commands.contains name then .help else .misuse
  | [name] => if root.commands.contains name then .help else .misuse
  | _ => .misuse

def ofKeyWords (given : List (Switch × String)) (words : List String) :
    Except Stop Invocation := do
  let reading ← keys.ofWords words
  match reading.next with
  | none => throw .misuse
  | some ("help", rest) => throw (help ("key" :: rest))
  | some (name, rest) =>
    match kindOf? name with
    | none => throw .misuse
    | some kind =>
      let last ← (identifiers kind).ofWords rest
      if last.operands.length = kind.layout.widths.length then
        return ofCommand (.key kind last.operands) (last.given ++ reading.given ++ given)
      else throw .misuse

def ofDecodeWords (given : List (Switch × String)) (words : List String) :
    Except Stop Invocation := do
  let reading ← values.ofWords words
  match reading.operands with
  | [name, value] =>
    match ValueKind.ofName? name with
    | some kind => return ofCommand (.decode kind value) (reading.given ++ given)
    | none => throw .misuse
  | _ => throw .misuse

def ofServeWords (given : List (Switch × String)) (words : List String) :
    Except Stop Invocation := do
  let reading ← settings.ofWords words
  let command := .serve (reading.given.lookup .config) (reading.given.lookup .bind)
  return ofCommand command (reading.given ++ given)

def ofVersionWords (given : List (Switch × String)) (words : List String) :
    Except Stop Invocation := do
  let reading ← nothing.ofWords words
  return ofCommand .version (reading.given ++ given)

/-- What the words of the command line ask for. -/
def ofWords (words : List String) : Except Stop Invocation := do
  let reading ← root.ofWords words
  match reading.next with
  | some ("key", rest) => ofKeyWords reading.given rest
  | some ("decode", rest) => ofDecodeWords reading.given rest
  | some ("serve", rest) => ofServeWords reading.given rest
  | some ("version", rest) => ofVersionWords reading.given rest
  | some ("help", rest) => throw (help rest)
  | _ => throw .misuse

end Invocation

end DeviceLedger.CommandLine
