import DeviceLedger.Server.Route
import DeviceLedger.Proofs.HexText
import Mathlib.Data.List.TakeWhile

/-! How requests come to queries. The parts of a path are found between its slashes, and a
part without percent signs stands for itself. What a part has to stand for is a value of a
fixed width, in any spelling that the service reads; hexadecimal text is one. What comes back is
known by its status, its type and its body. -/

namespace DeviceLedger

namespace Http

/-- Nothing is decoded where there is no percent sign. -/
theorem percentDecodeAfter_of_no_percent {bytes : Bytes} (hPercent : 0x25 ∉ bytes)
    (found : Bytes) : percentDecodeAfter found bytes = found.reverse ++ bytes := by
  induction bytes generalizing found with
  | nil => simp [percentDecodeAfter]
  | cons byte bytes ih =>
      rw [List.mem_cons, not_or] at hPercent
      rw [percentDecodeAfter]
      · simp [ih hPercent.2]
      · rintro high low rest rfl
        exact absurd rfl hPercent.1

/-- A text without percent signs has nothing to decode. -/
theorem percentDecode_of_no_percent {text : String} (hPercent : '%' ∉ text.toList) :
    percentDecode (Utf8.encode text) = Utf8.encode text := by
  have hBytes : 0x25 ∉ Utf8.encode text := Utf8.not_mem_encode (by decide) hPercent
  rw [percentDecode, percentDecodeAfter_of_no_percent hBytes, List.reverse_nil, List.nil_append]

/-- A part without percent signs stands for itself. -/
theorem pathText?_of_no_percent {part : String} (hPercent : '%' ∉ part.toList) :
    pathText? part = some part := by
  rw [pathText?, percentDecode_of_no_percent hPercent, Utf8.strict?_encode]

/-- A text that is one part of a path where it stands in a target. -/
def IsPart (text : String) : Prop :=
  ∀ c ∈ text.toList, c ≠ '/' ∧ c ≠ '?' ∧ c ≠ '#'

/-- The part that every path of the service begins with. -/
@[simp] theorem isPart_version : IsPart "v1" := by simp [IsPart]

/-- The target that is a path of the given parts. -/
def pathOf (parts : List String) : String :=
  String.ofList (parts.flatMap fun part => '/' :: part.toList)

theorem splitOn_parts {front : List Char} (hFront : '/' ∉ front) {parts : List String}
    (hParts : ∀ part ∈ parts, IsPart part) :
    (front ++ parts.flatMap fun part => '/' :: part.toList).splitOn '/' =
      front :: parts.map String.toList := by
  induction parts generalizing front with
  | nil => simpa using List.splitOn_eq_singleton hFront
  | cons part parts ih =>
      obtain ⟨hPart, hRest⟩ := List.forall_mem_cons.mp hParts
      have hSlash : '/' ∉ part.toList := fun hMem => (hPart _ hMem).1 rfl
      rw [List.flatMap_cons, List.cons_append, List.splitOn_append_cons_self_of_not_mem hFront,
        ih hSlash hRest, List.map_cons]

/-- A target that begins with a slash and has neither a query nor a fragment is a path. -/
theorem Target.parse_of_slash {rest : List Char} (hEnd : ∀ c ∈ rest, c ≠ '?' ∧ c ≠ '#') :
    Target.parse (String.ofList ('/' :: rest)) = ⟨String.ofList ('/' :: rest), ""⟩ := by
  have hFragment : ('/' :: rest).takeWhile (· != '#') = '/' :: rest := by
    refine List.takeWhile_eq_self_iff.mpr (List.forall_mem_cons.mpr ⟨rfl, fun c hMem => ?_⟩)
    simpa using (hEnd c hMem).2
  have hQuery : ('/' :: rest).takeWhile (· != '?') = '/' :: rest := by
    refine List.takeWhile_eq_self_iff.mpr (List.forall_mem_cons.mpr ⟨rfl, fun c hMem => ?_⟩)
    simpa using (hEnd c hMem).1
  have hAuthority : behindAuthority ('/' :: rest) = '/' :: rest := by simp [behindAuthority]
  simp [Target.parse, hFragment, hAuthority, hQuery]

/-- What stands behind a question mark is the query, up to a fragment. -/
theorem Target.parse_of_slash_query {rest : List Char} (hEnd : ∀ c ∈ rest, c ≠ '?' ∧ c ≠ '#')
    {query : String} (hFragment : '#' ∉ query.toList) :
    Target.parse (String.ofList ('/' :: rest) ++ "?" ++ query) =
      ⟨String.ofList ('/' :: rest), query⟩ := by
  have hWhole : ('/' :: (rest ++ '?' :: query.toList)).takeWhile (· != '#') =
      '/' :: (rest ++ '?' :: query.toList) := by
    refine List.takeWhile_eq_self_iff.mpr fun c hMem => bne_iff_ne.mpr ?_
    rintro rfl
    have hNotPath : '#' ∉ rest := fun hRest => (hEnd _ hRest).2 rfl
    simp [hNotPath, hFragment] at hMem
  have hPath : ('/' :: (rest ++ '?' :: query.toList)).takeWhile (· != '?') = '/' :: rest := by
    rw [List.takeWhile_cons_of_pos rfl,
      List.takeWhile_append_of_pos fun c hMem => bne_iff_ne.mpr (hEnd c hMem).1]
    simp
  have hAuthority : behindAuthority ('/' :: (rest ++ '?' :: query.toList)) =
      '/' :: (rest ++ '?' :: query.toList) := by simp [behindAuthority]
  simp [Target.parse, hWhole, hAuthority, hPath]

/-- Neither a query nor a fragment begins within a path. -/
theorem ordinary_of_mem_parts {parts : List String} (hParts : ∀ part ∈ parts, IsPart part)
    {c : Char} (hMem : c ∈ parts.flatMap fun part => '/' :: part.toList) : c ≠ '?' ∧ c ≠ '#' := by
  obtain ⟨part, hPart, hChar⟩ := List.mem_flatMap.mp hMem
  rcases List.mem_cons.mp hChar with rfl | hChar
  · decide
  · exact (hParts part hPart c hChar).2

/-- A path of parts is a target without a query. -/
theorem Target.parse_pathOf {part : String} {parts : List String}
    (hParts : ∀ other ∈ part :: parts, IsPart other) :
    Target.parse (pathOf (part :: parts)) = ⟨pathOf (part :: parts), ""⟩ :=
  Target.parse_of_slash fun _ hMem => ordinary_of_mem_parts hParts (List.mem_cons_of_mem _ hMem)

/-- A path of parts, a question mark and a form. -/
theorem Target.parse_pathOf_query {part : String} {parts : List String}
    (hParts : ∀ other ∈ part :: parts, IsPart other) {query : String}
    (hFragment : '#' ∉ query.toList) :
    Target.parse (pathOf (part :: parts) ++ "?" ++ query) = ⟨pathOf (part :: parts), query⟩ :=
  Target.parse_of_slash_query
    (fun _ hMem => ordinary_of_mem_parts hParts (List.mem_cons_of_mem _ hMem)) hFragment

/-- The parts of a path are found between its slashes. -/
theorem parts?_parse_pathOf {part : String} {parts : List String}
    (hParts : ∀ other ∈ part :: parts, IsPart other) :
    (Target.parse (pathOf (part :: parts))).parts? = some (part :: parts) := by
  have hSplit : (pathOf (part :: parts)).toList.splitOn '/' =
      [] :: (part :: parts).map String.toList := by
    rw [pathOf, String.toList_ofList]
    exact splitOn_parts List.not_mem_nil hParts
  rw [Target.parse_pathOf hParts, Target.parts?]
  simp only [hSplit]
  simp [Function.comp_def]

/-- The digits of a hexadecimal text have no other meaning in a target. -/
theorem ordinary_of_mem_hex {c : Char} {bytes : Bytes} (hMem : c ∈ (Hex.encode bytes).toList) :
    c ≠ '%' ∧ c ≠ '/' ∧ c ≠ '?' ∧ c ≠ '#' := by
  obtain ⟨number, hNumber, rfl⟩ := Hex.exists_digit_of_mem_encode hMem
  interval_cases number <;> decide

/-- A text as a part of a path, with every byte as a percent sign and two digits. -/
def escape (text : String) : String :=
  String.ofList ((Utf8.encode text).flatMap fun byte => '%' :: Hex.encodeByte byte)

theorem percentDecodeAfter_escaped (found bytes : Bytes) :
    percentDecodeAfter found
        (bytes.flatMap fun byte => 0x25 :: (Hex.encodeByte byte).flatMap Utf8.encodeChar) =
      found.reverse ++ bytes := by
  induction bytes generalizing found with
  | nil => simp [percentDecodeAfter]
  | cons byte bytes ih =>
      obtain ⟨high, low, hDigits, hHigh, hLow⟩ := Hex.exists_bytes_of_encodeByte byte
      rw [List.flatMap_cons, hDigits, List.cons_append, List.cons_append, List.cons_append,
        List.nil_append, percentDecodeAfter, hHigh, hLow]
      simp only [Hex.ofNat_digits]
      simp [ih]

/-- Escaping is undone. -/
theorem percentDecode_escape (text : String) :
    percentDecode (Utf8.encode (escape text)) = Utf8.encode text := by
  have hBytes : Utf8.encode (escape text) = (Utf8.encode text).flatMap fun byte =>
      0x25 :: (Hex.encodeByte byte).flatMap Utf8.encodeChar := by
    rw [Utf8.encode, escape, String.toList_ofList, List.flatMap_assoc]
    rfl
  rw [percentDecode, hBytes, percentDecodeAfter_escaped, List.reverse_nil, List.nil_append]

/-- Every text is that of a part. -/
theorem parameter_escape (text : String) : parameter (escape text) = .ok text := by
  rw [parameter, pathText?, percentDecode_escape, Utf8.strict?_encode]

theorem isPart_escape (text : String) : IsPart (escape text) := by
  intro c hMem
  rw [escape, String.toList_ofList, List.mem_flatMap] at hMem
  obtain ⟨byte, -, hChar⟩ := hMem
  rcases List.mem_cons.mp hChar with rfl | hDigit
  · decide
  · have hHex : c ∈ (Hex.encode [byte]).toList := by simpa [Hex.encode] using hDigit
    exact (ordinary_of_mem_hex hHex).2

/-- The characters of an escaped text are percent signs and digits. -/
theorem not_mem_escape {c : Char} (hChar : c ≠ '%' ∧ ∀ number < 16, Hex.digit number ≠ c)
    (text : String) : c ∉ (escape text).toList := by
  intro hMem
  rw [escape, String.toList_ofList, List.mem_flatMap] at hMem
  obtain ⟨byte, -, hEscaped⟩ := hMem
  rcases List.mem_cons.mp hEscaped with hPercent | hDigit
  · exact hChar.1 hPercent
  · have hHex : c ∈ (Hex.encode [byte]).toList := by simpa [Hex.encode] using hDigit
    obtain ⟨number, hNumber, hSame⟩ := Hex.exists_digit_of_mem_encode hHex
    exact hChar.2 number hNumber hSame

/-- In a form a plus sign is a space; all else is decoded as in a path, and need not be UTF-8. -/
theorem formText_of_no_plus {written : String} (hPlus : '+' ∉ written.toList) :
    formText written = Utf8.lossy (percentDecode (Utf8.encode written)) := by
  have hSpaced : (written.toList.map fun c => if c = '+' then ' ' else c) = written.toList := by
    have hSame : ∀ c ∈ written.toList, (if c = '+' then ' ' else c) = c := by
      intro c hMem
      apply if_neg
      rintro rfl
      exact hPlus hMem
    rw [List.map_congr_left hSame, List.map_id']
  rw [formText, hSpaced, String.ofList_toList]

/-- Every text is that of a value in a form. -/
theorem formText_escape (text : String) : formText (escape text) = text := by
  rw [formText_of_no_plus (not_mem_escape (by decide) text), percentDecode_escape,
    Utf8.lossy_encode]

/-- A form of one field gives its name the value that is written behind the equals sign. -/
theorem onlyValue?_escape {name : String} (hName : ∀ c ∈ name.toList, c ∉ ['&', '=', '+', '%'])
    (text : String) : onlyValue? name (name ++ "=" ++ escape text) = .ok (some text) := by
  have hAbsent {c : Char} (hChar : c ∈ ['&', '=', '+', '%']) : c ∉ name.toList :=
    fun hMem => hName c hMem hChar
  have hText : formText name = name := by
    rw [formText_of_no_plus (hAbsent (by simp)), percentDecode_of_no_percent (hAbsent (by simp)),
      Utf8.lossy_encode]
  have hField : (name.toList ++ '=' :: (escape text).toList).splitOn '&' =
      [name.toList ++ '=' :: (escape text).toList] := by
    apply List.splitOn_eq_singleton
    have hEscaped : '&' ∉ (escape text).toList := not_mem_escape (by decide) text
    simp [hAbsent, hEscaped]
  have hStop : (name.toList ++ '=' :: (escape text).toList).takeWhile (· != '=') =
      name.toList := by
    rw [List.takeWhile_append_of_pos fun c hMem => ?_]
    · simp
    · have hChar := hName c hMem
      simp only [List.mem_cons, not_or] at hChar
      exact bne_iff_ne.mpr hChar.2.1
  have hFields : formFields (name ++ "=" ++ escape text) = [(name, text)] := by
    simp [formFields, hField, hStop, hText, formText_escape]
  simp [onlyValue?, hFields]

/-- Several values are no value. -/
theorem onlyValue?_eq_error {name query : String} {status : Nat}
    (hValue : onlyValue? name query = .error status) : status = 400 := by
  rw [onlyValue?] at hValue
  split at hValue <;> cases hValue
  rfl

/-- All routes but that of batches are read. -/
theorem Route.allows_get {route : Route} (hRoute : route ≠ .balances) :
    route.allows "GET" = true := by
  rw [Route.allows, if_neg hRoute]
  rfl

/-- A part of a path that stands for a value of a fixed width. -/
structure Spells {width : Nat} (written : String) (fixed : Fixed width) : Prop where
  isPart : IsPart written
  found : ∃ text, parameter written = .ok text ∧ Fixed.ofHex width (Blank.trim text) = .ok fixed

theorem parameter_toHex {width : Nat} (fixed : Fixed width) :
    parameter fixed.toHex = .ok fixed.toHex := by
  have hPercent : '%' ∉ fixed.toHex.toList := fun hMem => (ordinary_of_mem_hex hMem).1 rfl
  rw [parameter, pathText?_of_no_percent hPercent]

/-- Every value is spelled by its hexadecimal text. -/
theorem Spells.of_toHex {width : Nat} (fixed : Fixed width) : Spells fixed.toHex fixed where
  isPart _ hMem := (ordinary_of_mem_hex hMem).2
  found := ⟨fixed.toHex, parameter_toHex fixed, Fixed.ofHex_trim_toHex fixed⟩

/-- The empty part stands for nothing. -/
theorem Spells.ne_empty {width : Nat} {written : String} {fixed : Fixed (width + 1)}
    (hSpells : Spells written fixed) : written ≠ "" := by
  rintro rfl
  obtain ⟨text, hText, hFixed⟩ := hSpells.found
  have hEmpty : parameter "" = .ok "" := by rw [parameter, pathText?_of_no_percent (by simp)]
  cases hEmpty.symm.trans hText
  cases hFixed

/-- A request that reads the path of the given parts. -/
structure Request.Gets (request : Request) (parts : List String) : Prop where
  method_eq : request.method = "GET"
  parts?_eq : (Target.parse request.target).parts? = some parts

theorem Request.gets_pathOf {part : String} {parts : List String}
    (hParts : ∀ other ∈ part :: parts, IsPart other) (contentType : Option String)
    (body : Bytes) :
    Request.Gets ⟨"GET", pathOf (part :: parts), contentType, body⟩ (part :: parts) :=
  ⟨rfl, parts?_parse_pathOf hParts⟩

/-- A form behind a path is no part of it. -/
theorem Request.gets_pathOf_query {part : String} {parts : List String}
    (hParts : ∀ other ∈ part :: parts, IsPart other) {query : String}
    (hFragment : '#' ∉ query.toList) (contentType : Option String) (body : Bytes) :
    Request.Gets ⟨"GET", pathOf (part :: parts) ++ "?" ++ query, contentType, body⟩
      (part :: parts) where
  method_eq := rfl
  parts?_eq := by
    have hPath := parts?_parse_pathOf hParts
    rw [Target.parse_pathOf hParts] at hPath
    rw [Target.parse_pathOf_query hParts hFragment]
    exact hPath

/-- A request that reads what belongs to an identifier in a collection, in any spelling of the
identifier: the record itself, or what the rest of the path names. -/
def Request.Fetches (request : Request) (collection : String) (id : Identifier)
    (rest : List String) : Prop :=
  ∃ written, Spells written id ∧ request.Gets ("v1" :: collection :: written :: rest)

namespace Response

/-- A response carries a JSON value. -/
structure Carries (response : Response) (status : Nat) (value : Json) : Prop where
  status_eq : response.status = status
  contentType_eq : response.contentType = some "application/json"
  body_eq : response.body = value.compact

/-- A response reports an error by its message. -/
def Reports (response : Response) (status : Nat) (message : String) : Prop :=
  response.Carries status (.object [("error", .text message)])

/-- A response confirms a hash. -/
structure Confirms (response : Response) : Prop where
  status_eq : response.status = 200
  contentType_eq : response.contentType = some "text/plain; charset=utf-8"
  body_eq : response.body = "VALID"

theorem carries_ofAnswer (value : Json) : (ofAnswer (.ok (.json value))).Carries 200 value :=
  ⟨rfl, rfl, rfl⟩

theorem confirms_ofAnswer : (ofAnswer (.ok .valid)).Confirms :=
  ⟨rfl, rfl, rfl⟩

theorem reports_ofAnswer (error : ServerError) :
    (ofAnswer (.error error)).Reports error.status error.message :=
  ⟨rfl, rfl, rfl⟩

end Response

end Http

namespace Service

open Http

theorem parseFixed_eq_ok {width : Nat} {text : String} {fixed : Fixed width}
    (hText : Fixed.ofHex width (Blank.trim text) = .ok fixed) (field : String) :
    parseFixed width field text = .ok fixed := by
  rw [parseFixed, hText]

theorem parseFixed_eq_error {width : Nat} {text : String} {error : WidthError}
    (hText : Fixed.ofHex width (Blank.trim text) = .error error) (field : String) :
    parseFixed width field text = .error (.badRequest field error.message) := by
  rw [parseFixed, hText]

/-- A request on whose route a query is found is answered. -/
theorem respond_of_route (service : Service) {request : Request} {parts : List String}
    {route : Route} {query : Query} (hMethod : request.method ∉ ["OPTIONS", "HEAD"])
    (hParts : (Target.parse request.target).parts? = some parts)
    (hRoute : Route.ofParts? parts = some route) (hAllows : route.allows request.method = true)
    (hQuery : queryOf request (Target.parse request.target) route = .ok query) :
    service.respond request = .ofAnswer (service.answer query) := by
  simp only [List.mem_cons, List.not_mem_nil, or_false, not_or] at hMethod
  rw [respond]
  simp [hMethod, hParts, hRoute, hAllows, hQuery]

theorem respond_of_gets (service : Service) {request : Request} {parts : List String}
    {route : Route} {query : Query} (hGets : request.Gets parts)
    (hRoute : Route.ofParts? parts = some route) (hAllows : route ≠ .balances)
    (hQuery : queryOf request (Target.parse request.target) route = .ok query) :
    service.respond request = .ofAnswer (service.answer query) := by
  apply service.respond_of_route _ hGets.parts?_eq hRoute _ hQuery
  · simp [hGets.method_eq]
  · rw [hGets.method_eq]
    exact Route.allows_get hAllows

/-- A request whose query cannot be made out is refused. -/
theorem respond_of_unreadable (service : Service) {request : Request} {parts : List String}
    {route : Route} {status : Nat} (hGets : request.Gets parts)
    (hRoute : Route.ofParts? parts = some route) (hAllows : route ≠ .balances)
    (hQuery : queryOf request (Target.parse request.target) route = .error status) :
    service.respond request = .refusal status := by
  rw [respond]
  simp [hGets.method_eq, hGets.parts?_eq, hRoute, Route.allows_get hAllows, hQuery]

variable (service : Service) (contentType : Option String) (body : Bytes) {name : String}
  {route : Route}

/-- A path that ends with an identifier is answered as the query for it. -/
theorem respond_one {width : Nat} {written : String} {fixed : Fixed width}
    (hWritten : Spells written fixed) {query : String → Query} (hName : IsPart name)
    (hRoute : Route.ofParts? ["v1", name, written] = some route) (hAllows : route ≠ .balances)
    (hQuery : ∀ request target, queryOf request target route = (parameter written).map query) :
    ∃ text, Fixed.ofHex width (Blank.trim text) = .ok fixed ∧
      service.respond ⟨"GET", pathOf ["v1", name, written], contentType, body⟩ =
        .ofAnswer (service.answer (query text)) := by
  obtain ⟨text, hText, hFixed⟩ := hWritten.found
  have hParts : ∀ part ∈ ["v1", name, written], IsPart part := by simp [hName, hWritten.isPart]
  refine ⟨text, hFixed, ?_⟩
  apply service.respond_of_gets (Request.gets_pathOf hParts contentType body) hRoute hAllows
  rw [hQuery, hText]
  rfl

/-- A path that ends with two identifiers is answered as the query for them. -/
theorem respond_two {width width' : Nat} {written written' : String} {fixed : Fixed width}
    {fixed' : Fixed width'} (hWritten : Spells written fixed) (hWritten' : Spells written' fixed')
    {query : String → String → Query} (hName : IsPart name)
    (hRoute : Route.ofParts? ["v1", name, written, written'] = some route)
    (hAllows : route ≠ .balances)
    (hQuery : ∀ request target, queryOf request target route = do
      let first ← parameter written
      let second ← parameter written'
      return query first second) :
    ∃ first second, Fixed.ofHex width (Blank.trim first) = .ok fixed ∧
      Fixed.ofHex width' (Blank.trim second) = .ok fixed' ∧
      service.respond ⟨"GET", pathOf ["v1", name, written, written'], contentType, body⟩ =
        .ofAnswer (service.answer (query first second)) := by
  obtain ⟨first, hFirst, hFixed⟩ := hWritten.found
  obtain ⟨second, hSecond, hFixed'⟩ := hWritten'.found
  have hParts : ∀ part ∈ ["v1", name, written, written'], IsPart part := by
    simp [hName, hWritten.isPart, hWritten'.isPart]
  refine ⟨first, second, hFixed, hFixed', ?_⟩
  apply service.respond_of_gets (Request.gets_pathOf hParts contentType body) hRoute hAllows
  rw [hQuery, hFirst, hSecond]
  rfl

end Service

end DeviceLedger
