/-!
Media types: a type and a subtype, an optional suffix of the subtype, and parameters, whose values
are tokens or stand in quotes. Letters count as lower case.
-/

namespace DeviceLedger.Http

/-- A media type without its parameters. -/
structure MediaType where
  type : String
  subtype : String
  suffix : Option String

namespace MediaType

/-- The characters of names. -/
def isToken (c : Char) : Bool :=
  ('a' ≤ c && c ≤ 'z') || ('A' ≤ c && c ≤ 'Z') || ('0' ≤ c && c ≤ '9') ||
    "!#$%&'*+-.^_`|~".toList.contains c

/-- The characters that may stand in quotes. -/
def isQuotable (c : Char) : Bool :=
  0x20 ≤ c.toNat && c.toNat < 0x7F

/-- What follows a value in quotes, behind its opening quote. The value has at least one character,
and a quote that comes first belongs to it. -/
def behindQuoted? : List Char → Option (List Char)
  | [] => none
  | first :: rest =>
    if isQuotable first then
      match rest.dropWhile fun c => isQuotable c && c != '"' with
      | '"' :: rest => some rest
      | _ => none
    else none

/-- The parameters behind a semicolon are well formed. A semicolon may end the text, and blanks may
stand in front of a name. The fuel is the length of the text. -/
def parametersOk : Nat → List Char → Bool
  | _, [] => true
  | 0, _ => false
  | fuel + 1, ' ' :: rest => parametersOk fuel rest
  | fuel + 1, text =>
    let name := text.takeWhile isToken
    match text.drop name.length with
    | '=' :: '"' :: rest =>
      match behindQuoted? rest with
      | some rest =>
        !name.isEmpty &&
          match rest.dropWhile (· == ' ') with
          | [] => true
          | ';' :: rest => parametersOk fuel rest
          | _ => false
      | none => false
    | '=' :: rest =>
      let value := rest.takeWhile isToken
      !name.isEmpty &&
        match rest.drop value.length with
        | [] => true
        | ';' :: rest => !value.isEmpty && parametersOk fuel rest
        | _ => false
    | _ => false

/-- The parts of a subtype in front of and behind its last plus sign. -/
def splitSuffix (subtype : List Char) : List Char × Option (List Char) :=
  let suffix := (subtype.reverse.takeWhile (· != '+')).reverse
  let front := subtype.take (subtype.length - suffix.length - 1)
  if suffix.length < subtype.length ∧ front ≠ [] then (front, some suffix) else (subtype, none)

def parse? (header : String) : Option MediaType :=
  let text := header.toList
  let type := text.takeWhile isToken
  match text.drop type.length with
  | '/' :: rest =>
    let subtype := rest.takeWhile isToken
    let parameters :=
      match rest.drop subtype.length with
      | [] => true
      | ';' :: rest => !subtype.isEmpty && parametersOk rest.length rest
      | _ => false
    if type.isEmpty ∨ parameters = false then none
    else
      let (front, suffix) := splitSuffix (subtype.map Char.toLower)
      some ⟨String.ofList (type.map Char.toLower), String.ofList front, suffix.map String.ofList⟩
  | _ => none

/-- Whether a media type is one of JSON. -/
def isJson (media : MediaType) : Bool :=
  media.type == "application" && (media.subtype == "json" || media.suffix == some "json")

end MediaType

end DeviceLedger.Http
