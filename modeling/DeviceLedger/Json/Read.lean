import DeviceLedger.Json.Value
import DeviceLedger.Json.Token

/-!
Reading JSON of a known shape, from left to right. The first fault in the text decides: a `grammar`
fault where the text is not JSON, a `shape` fault where it is JSON of another shape. What is read
comes out in normal form: an object has exactly the fields of its shape, in their order.

Members that the shape does not name are passed over. Most readers only look at their grammar;
the reader of a merged object takes them as values, and so refuses numbers out of range, strings
that are no text, and nesting beyond 127 levels.
-/

namespace DeviceLedger.Json

/-- Why a text has no value of the shape that is asked for. -/
inductive Fault where
  | grammar
  | shape
  deriving DecidableEq, Repr

/-- A reader of a value at the start of tokens. -/
abbrev Read (α : Type) := List Token → Except Fault (α × List Token)

/-- The fault of a token that begins no value of the shape that is asked for. -/
def mismatch : List Token → Fault
  | .text written :: _ => if (unescape written).isSome then .shape else .grammar
  | .number numeral :: _ => if numeral.isTooLarge then .grammar else .shape
  | .openObject :: _ => .shape
  | .openList :: _ => .shape
  | .null :: _ => .shape
  | .flag _ :: _ => .shape
  | _ => .grammar

/-- A container that is open while a value is passed over. -/
inductive Container where
  | object
  | list
  deriving DecidableEq

/-- What may come next while a value is passed over. -/
inductive Expect where
  | value
  | firstItem
  | firstName
  | name
  | colon
  | more
  deriving DecidableEq

/-- What is asked of the values that are passed over. -/
structure Strictness where
  accepts : Token → Bool
  depth : Option Nat

namespace Strictness

/-- Nothing beyond the grammar. -/
def lax : Strictness := ⟨fun _ => true, none⟩

/-- Numbers in range, strings that are text, and at most `depth` levels of nesting. -/
def strict (depth : Nat) : Strictness where
  accepts
    | .text written => (unescape written).isSome
    | .number numeral => !numeral.isTooLarge
    | _ => true
  depth := some depth

/-- Whether one more container may be opened inside the open ones. -/
def opens (strictness : Strictness) (inside : List Container) : Bool :=
  match strictness.depth with
  | none => true
  | some depth => decide (inside.length < depth)

end Strictness

/-- Pass over one value: the tokens behind it. -/
def skip (strictness : Strictness) :
    List Container → Expect → List Token → Except Fault (List Token)
  | _, _, [] => .error .grammar
  | inside, expect, token :: rest =>
    if strictness.accepts token = false then .error .grammar
    else
      match expect, token, inside with
      | .value, .openObject, inside | .firstItem, .openObject, inside =>
        if strictness.opens inside then skip strictness (.object :: inside) .firstName rest
        else .error .grammar
      | .value, .openList, inside | .firstItem, .openList, inside =>
        if strictness.opens inside then skip strictness (.list :: inside) .firstItem rest
        else .error .grammar
      | .value, .null, [] | .value, .flag _, [] | .value, .number _, [] | .value, .text _, [] =>
        .ok rest
      | .value, .null, inside | .value, .flag _, inside | .value, .number _, inside
      | .value, .text _, inside | .firstItem, .null, inside | .firstItem, .flag _, inside
      | .firstItem, .number _, inside | .firstItem, .text _, inside =>
        skip strictness inside .more rest
      | .firstItem, .closeList, _ :: [] => .ok rest
      | .firstItem, .closeList, _ :: outside => skip strictness outside .more rest
      | .firstName, .closeObject, _ :: [] => .ok rest
      | .firstName, .closeObject, _ :: outside => skip strictness outside .more rest
      | .firstName, .text _, inside | .name, .text _, inside =>
        skip strictness inside .colon rest
      | .colon, .colon, inside => skip strictness inside .value rest
      | .more, .comma, .list :: outside => skip strictness (.list :: outside) .value rest
      | .more, .comma, .object :: outside => skip strictness (.object :: outside) .name rest
      | .more, .closeList, .list :: [] => .ok rest
      | .more, .closeList, .list :: outside => skip strictness outside .more rest
      | .more, .closeObject, .object :: [] => .ok rest
      | .more, .closeObject, .object :: outside => skip strictness outside .more rest
      | _, _, _ => .error .grammar

namespace Read

def text : Read Json
  | .text written :: rest =>
    match unescape written with
    | some value => .ok (.text value, rest)
    | none => .error .grammar
  | tokens => .error (mismatch tokens)

/-- An integer between two bounds. -/
def integer (low high : Int) : Read Json
  | .number numeral :: rest =>
    match numeral.integer? with
    | some value =>
      if low ≤ value ∧ value ≤ high then .ok (.number value, rest)
      else .error (mismatch [.number numeral])
    | none => .error (mismatch [.number numeral])
  | tokens => .error (mismatch tokens)

def flag : Read Json
  | .flag value :: rest => .ok (.flag value, rest)
  | tokens => .error (mismatch tokens)

/-- The items of a list behind those found already, the latest first. The fuel is the number of
tokens. -/
def itemsAfter (item : Read Json) : Nat → List Json → List Token → Except Fault (Json × List Token)
  | 0, _, _ => .error .grammar
  | fuel + 1, found, tokens =>
    match tokens with
    | .closeList :: rest => .ok (.list found.reverse, rest)
    | .comma :: .closeList :: _ => .error .grammar
    | .comma :: rest =>
      if found.isEmpty then .error .grammar
      else do
        let (value, rest) ← item rest
        itemsAfter item fuel (value :: found) rest
    | tokens =>
      if found.isEmpty then do
        let (value, rest) ← item tokens
        itemsAfter item fuel (value :: found) rest
      else .error .grammar

def list (item : Read Json) : Read Json
  | .openList :: rest => itemsAfter item (rest.length + 1) [] rest
  | tokens => .error (mismatch tokens)

/-- The end of a list all of whose items are read. -/
def endOfList {α : Type} (value : α) : Read α
  | .closeList :: rest => .ok (value, rest)
  | _ => .error .grammar

/-- Step to the next item of a list: its tokens, or `none` at the closing bracket, which stays. -/
def nextItem (first : Bool) : List Token → Except Fault (Option (List Token))
  | .closeList :: _ => .ok none
  | .comma :: .closeList :: _ => .error .grammar
  | .comma :: rest => if first then .error .grammar else .ok (some rest)
  | [] => .error .grammar
  | tokens => if first then .ok (some tokens) else .error .grammar

/-- The next `count` items of a row behind those found already, the latest first. -/
def rowAfter (item : Read Json) : Nat → List Json → Read Json
  | 0, found, tokens => endOfList (.list found.reverse) tokens
  | count + 1, found, tokens => do
    match ← nextItem found.isEmpty tokens with
    | none => .error .shape
    | some tokens =>
      let (value, rest) ← item tokens
      rowAfter item count (value :: found) rest

/-- A list of exactly `count` items. -/
def row (count : Nat) (item : Read Json) : Read Json
  | .openList :: rest => rowAfter item count [] rest
  | tokens => .error (mismatch tokens)

/-- A field of an object: its name, how it is read, and its value where it is left out. -/
structure Field where
  name : String
  read : Read Json
  default : Option Json

/-- A field that may not be left out. -/
def required (name : String) (read : Read Json) : Field := ⟨name, read, none⟩

/-- The fields of an object in their order, from the members found in any order. -/
def complete (found : List (String × Json)) : List Field → Except Fault (List (String × Json))
  | [] => .ok []
  | field :: fields =>
    match (found.lookup field.name).or field.default with
    | none => .error .shape
    | some value => (complete found fields).map ((field.name, value) :: ·)

/-- The members of an object behind those found already. A field may be named only once. The fuel
is the number of tokens. -/
def membersAfter (fields : List Field) (strictness : Strictness) :
    Nat → Bool → List (String × Json) → List Token → Except Fault (Json × List Token)
  | 0, _, _, _ => .error .grammar
  | fuel + 1, first, found, tokens =>
    let member (written : Bytes) (rest : List Token) : Except Fault (Json × List Token) := do
      let some name := unescape written | .error .grammar
      match fields.find? fun field => field.name == name with
      | none =>
        let .colon :: rest := rest | .error .grammar
        let rest ← skip strictness [] .value rest
        membersAfter fields strictness fuel false found rest
      | some field =>
        if (found.lookup name).isSome then .error .shape
        else
          let .colon :: rest := rest | .error .grammar
          let (value, rest) ← field.read rest
          membersAfter fields strictness fuel false ((name, value) :: found) rest
    match tokens with
    | .closeObject :: rest => (complete found fields).map fun members => (.object members, rest)
    | .comma :: .text written :: rest => if first then .error .grammar else member written rest
    | .text written :: rest => if first then member written rest else .error .grammar
    | _ => .error .grammar

/-- The fields of an object written as a list, in their order. Fields at the end may be left out if
they have a value then. -/
def fieldsAfter (found : List (String × Json)) : List Field → Read Json
  | [], tokens => endOfList (.object found.reverse) tokens
  | field :: fields, tokens => do
    match ← nextItem found.isEmpty tokens with
    | none =>
      match field.default with
      | none => .error .shape
      | some value => fieldsAfter ((field.name, value) :: found) fields tokens
    | some tokens =>
      let (value, rest) ← field.read tokens
      fieldsAfter ((field.name, value) :: found) fields rest

/-- An object with the given fields, which may also be written as the list of their values. -/
def record (fields : List Field) : Read Json
  | .openObject :: rest => membersAfter fields .lax (rest.length + 1) true [] rest
  | .openList :: rest => fieldsAfter [] fields rest
  | tokens => .error (mismatch tokens)

/-- An object with the given fields that are merged from several parts. It is written as an object
only, and the members that are passed over are taken as values. -/
def merged (fields : List Field) : Read Json
  | .openObject :: rest =>
    membersAfter fields (.strict 126) (rest.length + 1) true [] rest
  | tokens => .error (mismatch tokens)

/-- One of several names, written as a string or as an object that gives the name no value. -/
def choice (names : List String) : Read Json
  | .openObject :: rest => do
    let (value, rest) ← text rest
    let .colon :: rest := rest | .error .grammar
    if (value.text?.map names.contains).getD false then
      match rest with
      | .null :: .closeObject :: rest => .ok (value, rest)
      | .null :: _ => .error .grammar
      | tokens => .error (mismatch tokens)
    else .error .shape
  | .text written :: rest =>
    match unescape written with
    | none => .error .grammar
    | some name => if names.contains name then .ok (.text name, rest) else .error .shape
  | tokens => .error (mismatch tokens)

/-- A value at the start of a text, whatever follows it. -/
def atStart {α : Type} (read : Read α) (source : Bytes) : Except Fault α :=
  (read (tokens source)).map Prod.fst

/-- A value that is the whole text. -/
def whole {α : Type} (read : Read α) (source : Bytes) : Except Fault α :=
  match read (tokens source) with
  | .error fault => .error fault
  | .ok (value, []) => .ok value
  | .ok (_, _ :: _) => .error .grammar

end Read

end DeviceLedger.Json
