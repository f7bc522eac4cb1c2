import DeviceLedger.Bytes.Hex

/-!
The target of a request: a path and, behind a question mark, a query. A scheme and an authority may
stand in front of them. In path and query, a percent sign with two hexadecimal digits stands for a
byte; any other percent sign stands for itself. A query is a form, whose fields are joined by
ampersands and in which a plus sign stands for a blank.
-/

namespace DeviceLedger.Http

/-- The bytes of a text in which a percent sign with two digits stands for a byte, behind those
found already, the latest first. -/
def percentDecodeAfter (found : Bytes) : Bytes → Bytes
  | [] => found.reverse
  | 0x25 :: high :: low :: rest =>
    match Hex.digitValue? high, Hex.digitValue? low with
    | some upper, some lower => percentDecodeAfter (UInt8.ofNat (upper * 16 + lower) :: found) rest
    | _, _ => percentDecodeAfter (0x25 :: found) (high :: low :: rest)
  | byte :: rest => percentDecodeAfter (byte :: found) rest
termination_by bytes => bytes.length

/-- The bytes of a text in which a percent sign with two digits stands for a byte. -/
def percentDecode (bytes : Bytes) : Bytes := percentDecodeAfter [] bytes

/-- A part of a path as text, unless its bytes are not UTF-8. -/
def pathText? (part : String) : Option String :=
  Utf8.strict? (percentDecode (Utf8.encode part))

/-- A name or value of a form as text. -/
def formText (written : String) : String :=
  let spaced := written.toList.map fun c => if c = '+' then ' ' else c
  Utf8.lossy (percentDecode (Utf8.encode (String.ofList spaced)))

/-- The fields of a form in order. A field without an equals sign has an empty value, and an empty
field is none. -/
def formFields (query : String) : List (String × String) :=
  let fields := (query.toList.splitOn '&').filter fun field => field ≠ []
  fields.map fun field =>
    let name := field.takeWhile (· != '=')
    (formText (String.ofList name), formText (String.ofList (field.drop (name.length + 1))))

/-- The path and the query of a target. What follows a number sign belongs to neither. -/
structure Target where
  path : String
  query : String

/-- A target without the scheme and the authority in front of it. The authority ends at the path or
at the query. -/
def behindAuthority (written : List Char) : List Char :=
  let scheme := written.takeWhile fun c => c != ':' && c != '/'
  match written.drop scheme.length with
  | ':' :: '/' :: '/' :: rest => rest.dropWhile fun c => c != '/' && c != '?'
  | _ => written

/-- The path and the query of a written target. -/
def Target.parse (written : String) : Target :=
  let characters := behindAuthority (written.toList.takeWhile (· != '#'))
  let path := characters.takeWhile (· != '?')
  ⟨String.ofList path, String.ofList (characters.drop (path.length + 1))⟩

/-- The parts of a path between its slashes, if it begins with one. -/
def Target.parts? (target : Target) : Option (List String) :=
  match target.path.toList.splitOn '/' with
  | [] :: parts => some (parts.map String.ofList)
  | _ => none

end DeviceLedger.Http
