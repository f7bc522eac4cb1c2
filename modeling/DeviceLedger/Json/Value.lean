import DeviceLedger.Bytes.Hex

/-!
JSON values and their text. There are no fractional numbers. `compact` writes a value without
blanks, `pretty` over several lines with two blanks of indentation for each level.
-/

namespace DeviceLedger

/-- A JSON value whose numbers are integers. An object keeps its members in order. -/
inductive Json where
  | null
  | flag (value : Bool)
  | number (value : Int)
  | text (value : String)
  | list (items : List Json)
  | object (members : List (String × Json))
  deriving Inhabited

namespace Json

def nat (value : Nat) : Json := number value

/-- A list of bytes as numbers. -/
def bytes (value : Bytes) : Json := list (value.map fun byte => nat byte.toNat)

/-- An object with its members in the order of their names. -/
def sortedObject (members : List (String × Json)) : Json :=
  object (members.mergeSort fun first second => decide (¬ second.1 < first.1))

/-- A character inside a string. Quotes, backslashes and control characters are escaped, all else
is written as it is. -/
def escapeChar (c : Char) : List Char :=
  if c = '"' then ['\\', '"']
  else if c = '\\' then ['\\', '\\']
  else if c.toNat = 0x8 then ['\\', 'b']
  else if c.toNat = 0xC then ['\\', 'f']
  else if c = '\n' then ['\\', 'n']
  else if c = '\r' then ['\\', 'r']
  else if c = '\t' then ['\\', 't']
  else if c.toNat < 0x20 then
    ['\\', 'u', '0', '0', Hex.digit (c.toNat / 16), Hex.digit (c.toNat % 16)]
  else [c]

def quote (text : String) : List Char :=
  '"' :: (text.toList.flatMap escapeChar ++ ['"'])

def digits (number : Int) : List Char :=
  match number with
  | .ofNat value => Nat.toDigits 10 value
  | .negSucc value => '-' :: Nat.toDigits 10 (value + 1)

mutual

def render : Json → List Char
  | null => ['n', 'u', 'l', 'l']
  | flag true => ['t', 'r', 'u', 'e']
  | flag false => ['f', 'a', 'l', 's', 'e']
  | number value => digits value
  | text value => quote value
  | list [] => ['[', ']']
  | list (item :: items) => '[' :: (render item ++ renderItems items)
  | object [] => ['{', '}']
  | object ((name, value) :: members) =>
    '{' :: (quote name ++ ':' :: (render value ++ renderMembers members))

/-- The items of a list behind its first, and the closing bracket. -/
def renderItems : List Json → List Char
  | [] => [']']
  | item :: items => ',' :: (render item ++ renderItems items)

/-- The members of an object behind its first, and the closing brace. -/
def renderMembers : List (String × Json) → List Char
  | [] => ['}']
  | (name, value) :: members =>
    ',' :: (quote name ++ ':' :: (render value ++ renderMembers members))

end

def compact (value : Json) : String := String.ofList value.render

/-- A line break and the indentation of a level. -/
def newLine (level : Nat) : List Char := '\n' :: List.replicate (2 * level) ' '

mutual

/-- The text of a value over several lines, at a level of indentation. -/
def renderAt : Json → Nat → List Char
  | list [], _ => ['[', ']']
  | list (item :: items), level =>
    '[' :: (newLine (level + 1) ++ renderAt item (level + 1) ++ renderItemsAt items level)
  | object [], _ => ['{', '}']
  | object ((name, value) :: members), level =>
    '{' :: (newLine (level + 1) ++ quote name ++ ':' :: ' ' :: renderAt value (level + 1) ++
      renderMembersAt members level)
  | null, _ => render null
  | flag value, _ => render (flag value)
  | number value, _ => render (number value)
  | text value, _ => render (text value)

/-- The items of a list behind its first, and the closing bracket, each on a line. -/
def renderItemsAt : List Json → Nat → List Char
  | [], level => newLine level ++ [']']
  | item :: items, level =>
    ',' :: (newLine (level + 1) ++ renderAt item (level + 1) ++ renderItemsAt items level)

/-- The members of an object behind its first, and the closing brace, each on a line. -/
def renderMembersAt : List (String × Json) → Nat → List Char
  | [], level => newLine level ++ ['}']
  | (name, value) :: members, level =>
    ',' :: (newLine (level + 1) ++ quote name ++ ':' :: ' ' :: renderAt value (level + 1) ++
      renderMembersAt members level)

end

/-- The text of a value over several lines. -/
def pretty (value : Json) : String := String.ofList (renderAt value 0)

def text? : Json → Option String
  | text value => some value
  | _ => none

def integer? : Json → Option Int
  | number value => some value
  | _ => none

def nat? : Json → Option Nat
  | number (.ofNat value) => some value
  | _ => none

def flag? : Json → Option Bool
  | flag value => some value
  | _ => none

def list? : Json → Option (List Json)
  | list items => some items
  | _ => none

end Json

end DeviceLedger
