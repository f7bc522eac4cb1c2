/-!
TOML documents as trees, and the rules by which keys and headers build them. A table may be spelled
out once: by a header, by dotted keys, or inline. A table that only lies on the way of a longer
header may get its own header later.
-/

namespace DeviceLedger

/-- How a table came to be: from its own header, on the way of a longer header, or from dotted
keys. -/
inductive TableForm where
  | header
  | implied
  | dotted
  deriving DecidableEq, Repr

/-- A value of a document. Floats and times are only told apart from all else. -/
inductive Toml where
  | text (value : String)
  | integer (value : Int)
  | float
  | flag (value : Bool)
  | dateTime
  | array (items : List Toml)
  | inline (entries : List (String × Toml))
  | table (form : TableForm) (entries : List (String × Toml))
  | tables (items : List Toml)
  deriving Inhabited

namespace Toml

/-- The entries of a table. -/
abbrev Entries := List (String × Toml)

/-- The entries with a value for a key, in the place of an earlier one if there is one. -/
def put (entries : Entries) (key : String) (value : Toml) : Entries :=
  if (entries.lookup key).isSome then
    entries.map fun entry => if entry.1 = key then (key, value) else entry
  else entries ++ [(key, value)]

/-- Change the last table of an array of tables. -/
def changeLast (change : Entries → Option Entries) (items : List Toml) : Option Toml := do
  match items.getLast? with
  | some (.table form entries) =>
    return .tables (items.dropLast ++ [.table form (← change entries)])
  | _ => none

/-- Give a key a value at a path of dotted keys. The tables on the path must not have a header of
their own, and the last of them must come from dotted keys. A key has one value. -/
def addPair (key : String) (value : Toml) : List String → Entries → Option Entries
  | [], entries =>
    if (entries.lookup key).isSome then none else some (entries ++ [(key, value)])
  | step :: path, entries => do
    match entries.lookup step with
    | none => return put entries step (.table .dotted (← addPair key value path []))
    | some (.table .dotted inner) =>
      return put entries step (.table .dotted (← addPair key value path inner))
    | some (.table .implied inner) =>
      if path.isEmpty then none
      else return put entries step (.table .implied (← addPair key value path inner))
    | some (.tables items) =>
      if path.isEmpty then none
      else return put entries step (← changeLast (addPair key value path) items)
    | _ => none

/-- Change the table at a path of headers, of whatever form. Of an array of tables, the last one is
meant; a table that is not there is implied. -/
def changeAt (change : Entries → Option Entries) : List String → Entries → Option Entries
  | [], entries => change entries
  | step :: path, entries => do
    match entries.lookup step with
    | none => return put entries step (.table .implied (← changeAt change path []))
    | some (.table form inner) =>
      return put entries step (.table form (← changeAt change path inner))
    | some (.tables items) =>
      return put entries step (← changeLast (changeAt change path) items)
    | _ => none

def openTable (key : String) (entries : Entries) : Option Entries :=
  match entries.lookup key with
  | none => some (put entries key (.table .header []))
  | some (.table .implied inner) => some (put entries key (.table .header inner))
  | _ => none

/-- Open one more table of an array of tables. -/
def openElement (key : String) (entries : Entries) : Option Entries :=
  match entries.lookup key with
  | none => some (put entries key (.tables [.table .header []]))
  | some (.tables items) => some (put entries key (.tables (items ++ [.table .header []])))
  | _ => none

/-- A line of a document that says something. -/
inductive Statement where
  | pair (path : List String) (key : String) (value : Toml)
  | header (path : List String) (key : String)
  | element (path : List String) (key : String)

/-- A document that is being built: its entries, and the path of the last header. -/
structure Builder where
  entries : Entries
  current : List String

def Builder.add (builder : Builder) : Statement → Option Builder
  | .pair path key value => do
    return { builder with
      entries := ← changeAt (addPair key value path) builder.current builder.entries }
  | .header path key => do
    return ⟨← changeAt (openTable key) path builder.entries, path ++ [key]⟩
  | .element path key => do
    return ⟨← changeAt (openElement key) path builder.entries, path ++ [key]⟩

/-- The entries of a document of the given statements. -/
def build (statements : List Statement) : Option Entries :=
  (statements.foldlM Builder.add ⟨[], []⟩).map Builder.entries

def buildInline (pairs : List (List String × String × Toml)) : Option Entries :=
  pairs.foldlM (fun entries (path, key, value) => addPair key value path entries) []

end Toml

end DeviceLedger
