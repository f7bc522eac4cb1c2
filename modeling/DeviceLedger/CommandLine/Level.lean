import DeviceLedger.Bytes

/-!
How a level of the command line is read. A level takes switches, and either one command that opens
the next level or operands up to a number. A switch may be given once on each level. A word that
begins with a hyphen and has more than that is never a value; behind a lone pair of hyphens every
word is an operand.
-/

namespace DeviceLedger.CommandLine

/-- What may be switched on or set. -/
inductive Switch where
  | help
  | version
  | verbose
  | format
  | config
  | bind
  deriving DecidableEq, Repr

namespace Switch

/-- The name behind two hyphens. -/
def longName : Switch → String
  | help => "help"
  | version => "version"
  | verbose => "verbose"
  | format => "format"
  | config => "config"
  | bind => "bind"

/-- The letter behind one hyphen. -/
def letter? : Switch → Option Char
  | help => some 'h'
  | version => some 'V'
  | verbose => some 'v'
  | format => none
  | config => some 'c'
  | bind => none

/-- Whether a value follows. -/
def takesValue : Switch → Bool
  | help | version | verbose => false
  | format | config | bind => true

/-- Whether a value is one that the switch takes: a known format, or a path that is not empty. -/
def accepts : Switch → String → Bool
  | format, value => value == "text" || value == "json"
  | config, value => value != ""
  | _, _ => true

end Switch

/-- A word of the command line. -/
inductive Word where
  | separator
  | long (name : String) (value : Option String)
  | letters (letters : List Char)
  | plain
  deriving DecidableEq, Repr

namespace Word

/-- The name and the value on the two sides of the first equals sign. -/
def splitAtEquals (written : List Char) : String × Option String :=
  let name := written.takeWhile (· != '=')
  match written.drop name.length with
  | _ :: value => (String.ofList name, some (String.ofList value))
  | [] => (String.ofList name, none)

/-- What a word is by its hyphens. A single hyphen is a plain word. -/
def ofString (written : String) : Word :=
  match written.toList with
  | ['-', '-'] => separator
  | '-' :: '-' :: rest => long (splitAtEquals rest).1 (splitAtEquals rest).2
  | '-' :: c :: rest => letters (c :: rest)
  | _ => plain

end Word

/-- Why the command line is not carried out. -/
inductive Stop where
  | misuse
  | help
  | version
  deriving DecidableEq, Repr

/-- What a level takes: its switches, its commands, and a condition on each of its operands. -/
structure Level where
  switches : List Switch
  commands : List String
  operands : List (String → Bool)

/-- What was read of a level: the switches with their values and the operands, the latest first. -/
structure Progress where
  given : List (Switch × String)
  operands : List String

/-- What a level was given, and the command that follows with its words. -/
structure Reading where
  given : List (Switch × String)
  operands : List String
  next : Option (String × List String)

namespace Level

def give (progress : Progress) (switch : Switch) (value : String) : Except Stop Progress :=
  if progress.given.any fun earlier => earlier.1 == switch then .error .misuse
  else if switch.accepts value then
    .ok { progress with given := (switch, value) :: progress.given }
  else .error .misuse

def flip (progress : Progress) : Switch → Except Stop Progress
  | .help => .error .help
  | .version => .error .version
  | switch => give progress switch ""

def long (level : Level) (progress : Progress) (name : String) (value : Option String) :
    Except Stop (Progress × Option Switch) :=
  match level.switches.find? fun switch => switch.longName == name with
  | none => .error .misuse
  | some switch =>
    match switch.takesValue, value with
    | true, some value => (give progress switch value).map fun progress => (progress, none)
    | true, none => .ok (progress, some switch)
    | false, some _ => .error .misuse
    | false, none => (flip progress switch).map fun progress => (progress, none)

/-- Switches by their letters. What follows the letter of a switch with a value is its value, an
equals sign apart; if nothing follows, the value is the next word. -/
def letters (level : Level) (progress : Progress) :
    List Char → Except Stop (Progress × Option Switch)
  | [] => .ok (progress, none)
  | letter :: rest =>
    match level.switches.find? fun switch => switch.letter? == some letter with
    | none => .error .misuse
    | some switch =>
      if switch.takesValue then
        match rest with
        | [] => .ok (progress, some switch)
        | '=' :: value =>
          (give progress switch (String.ofList value)).map fun progress => (progress, none)
        | value => (give progress switch (String.ofList value)).map fun progress => (progress, none)
      else do
        let progress ← flip progress switch
        level.letters progress rest

def operand (level : Level) (progress : Progress) (written : String) : Except Stop Progress :=
  match level.operands[progress.operands.length]? with
  | some accepts =>
    if accepts written then
      .ok { progress with operands := written :: progress.operands }
    else .error .misuse
  | none => .error .misuse

/-- The words behind the separator. -/
def plainWords (level : Level) (progress : Progress) (words : List String) :
    Except Stop Progress :=
  words.foldlM level.operand progress

/-- What was read, at the end of the level. -/
def finish (progress : Progress) (next : Option (String × List String)) : Reading :=
  ⟨progress.given, progress.operands.reverse, next⟩

/-- Read the words of a level, behind the switch whose value the first of them is, if there is
one. -/
def read (level : Level) (progress : Progress) (pending : Option Switch) :
    List String → Except Stop Reading
  | [] => if pending.isSome then .error .misuse else .ok (finish progress none)
  | written :: rest =>
    match pending, Word.ofString written with
    | some switch, .plain => do
      let progress ← give progress switch written
      level.read progress none rest
    | some _, _ => .error .misuse
    | none, .separator => do
      let progress ← level.plainWords progress rest
      return finish progress none
    | none, .long name value => do
      let (progress, pending) ← level.long progress name value
      level.read progress pending rest
    | none, .letters written => do
      let (progress, pending) ← level.letters progress written
      level.read progress pending rest
    | none, .plain =>
      if level.commands.contains written then .ok (finish progress (some (written, rest)))
      else do
        let progress ← level.operand progress written
        level.read progress none rest

/-- Read the words of a level from its start. -/
def ofWords (level : Level) (words : List String) : Except Stop Reading :=
  level.read ⟨[], []⟩ none words

end Level

end DeviceLedger.CommandLine
