import DeviceLedger.Proofs.JsonFormats
import DeviceLedger.Proofs.RecordCodec
import DeviceLedger.Proofs.RecordResponses
import DeviceLedger.Proofs.ShownRecords

/-! The hash that the service shows of an update and the one that it accepts. It shows a text in
which ill-formed parts are replaced, and accepts the bytes as they are. The two agree exactly for
UTF-8. -/

namespace DeviceLedger

open Http

namespace Http.Response

/-- A response shows a value: its body is read as that value. -/
structure Shows {α : Type} [JsonFormat α] (response : Response) (shown : α) : Prop where
  status_eq : response.status = 200
  contentType_eq : response.contentType = some "application/json"
  parse_eq : JsonFormat.parse α (Utf8.encode response.body) = .ok shown

/-- What a response carries is shown by it. -/
theorem shows_of_carries {α : Type} [JsonFormat α] [LawfulJsonFormat α] {response : Response}
    {shown : α} (hCarries : response.Carries 200 (JsonFormat.toJson shown)) :
    response.Shows shown where
  status_eq := hCarries.status_eq
  contentType_eq := hCarries.contentType_eq
  parse_eq := by
    rw [hCarries.body_eq]
    exact (JsonFormat.faithful α).parse_write shown

end Http.Response

/-- One key is answered with what lies at it. -/
theorem Reader.ofStore_single {store : Store} {key value : Bytes}
    (hStored : store[key]? = some value) : ofStore store [key] = [.ok (some value)] := by
  simp [ofStore, hStored]

namespace Service

variable {service : Service} {request : Request} {id : Identifier} {value : Bytes}

section

variable (hFetches : request.Fetches "updates" id ["verify"])
include hFetches

/-- A check against an update that is there compares the bytes. -/
theorem respond_check {record : UpdateRecord} {candidate : String}
    (hHash : onlyValue? "hash" (Target.parse request.target).query = .ok (some candidate))
    (hReply : service.reader [Update.key id] = [.ok (some value)])
    (hDecode : UpdateRecord.decode value = .ok record) :
    if Slot.trim record.executableHash = Utf8.encode candidate then
      (service.respond request).Confirms
    else (service.respond request).Reports 400
      ("executable hash does not match update " ++ id.toHex) := by
  obtain ⟨written, hWritten, hGets⟩ := hFetches
  obtain ⟨text, hText, hFixed⟩ := hWritten.found
  have hClassified : (service.respond request).Requires 32 "update id" text _ :=
    verify_classified hGets hText hHash
  exact ((hClassified.accepted id hFixed).2 candidate rfl).present value record hReply hDecode

/-- A check without exactly one hash is refused, whatever there is. -/
theorem respond_check_without_hash
    (hHash : ∀ candidate,
      onlyValue? "hash" (Target.parse request.target).query ≠ .ok (some candidate)) :
    (service.respond request).status = 400 := by
  obtain ⟨written, hWritten, hGets⟩ := hFetches
  obtain ⟨text, hText, hFixed⟩ := hWritten.found
  cases hValue : onlyValue? "hash" (Target.parse request.target).query with
  | error status =>
      have hQuery : queryOf request (Target.parse request.target) (.verify written) =
          .error status := by
        rw [queryOf, hText, hValue]
        rfl
      have hRefused : service.respond request = .refusal status :=
        service.respond_of_unreadable hGets rfl (by simp) hQuery
      rw [hRefused]
      exact onlyValue?_eq_error hValue
  | ok hash =>
      cases hash with
      | none =>
          have hClassified : (service.respond request).Requires 32 "update id" text _ :=
            verify_classified hGets hText hValue
          exact ((hClassified.accepted id hFixed).1 rfl).status_eq
      | some candidate => exact absurd hValue (hHash candidate)

end

/-- For every text there is a check that asks whether it is the hash. -/
theorem exists_check (id : Identifier) (text : String) :
    ∃ request : Request, request.Fetches "updates" id ["verify"] ∧
      onlyValue? "hash" (Target.parse request.target).query = .ok (some text) := by
  have hParts : ∀ part ∈ ["v1", "updates", id.toHex, "verify"], IsPart part := by
    have hCollection : IsPart "updates" := by simp [IsPart]
    have hCheck : IsPart "verify" := by simp [IsPart]
    simp [hCollection, hCheck, (Spells.of_toHex id).isPart]
  have hFragment : '#' ∉ ("hash" ++ "=" ++ escape text).toList := by
    have hEscaped : '#' ∉ (escape text).toList := not_mem_escape (by decide) text
    simp [hEscaped]
  refine ⟨⟨"GET", pathOf ["v1", "updates", id.toHex, "verify"] ++ "?" ++
    ("hash" ++ "=" ++ escape text), none, []⟩, ⟨id.toHex, Spells.of_toHex id, ?_⟩, ?_⟩
  · exact Request.gets_pathOf_query hParts hFragment none []
  · rw [Target.parse_pathOf_query hParts hFragment]
    exact onlyValue?_escape (by simp) text

end Service

/-- The hash that the service shows of an update is the hash that it accepts exactly if it is
well-formed UTF-8. Take any store and any update in it whose bytes are decoded, and let `shown`
be the view in the answer to the request for it. A check whose only hash is the text shown there
is confirmed if what is left of the slot is well-formed, and is refused as a mismatch if it is
not. In that case no check of any sort is confirmed. Every text can be asked for as a hash. -/
theorem shown_hash_accepted_iff_valid (store : Store) (maxBatchKeys : Nat) (id : Identifier)
    (value : Bytes) (record : UpdateRecord) (hStored : store[Update.key id]? = some value)
    (hDecode : UpdateRecord.decode value = .ok record) :
    let service : Service := ⟨Reader.ofStore store, maxBatchKeys⟩
    let hash := Slot.trim record.executableHash
    ∃ shown : UpdateView,
      (∀ request : Request, request.Fetches "updates" id [] →
        (service.respond request).Shows shown) ∧
      (∀ request : Request, request.Fetches "updates" id ["verify"] →
        onlyValue? "hash" (Target.parse request.target).query = .ok (some shown.executableHash) →
        (hash.toByteArray.IsValidUTF8 → (service.respond request).Confirms) ∧
        (¬hash.toByteArray.IsValidUTF8 → (service.respond request).Reports 400
          ("executable hash does not match update " ++ id.toHex))) ∧
      (¬hash.toByteArray.IsValidUTF8 → ∀ request : Request,
        request.Fetches "updates" id ["verify"] → (service.respond request).status = 400) ∧
      ∀ text, ∃ request : Request, request.Fetches "updates" id ["verify"] ∧
        onlyValue? "hash" (Target.parse request.target).query = .ok (some text) := by
  intro service hash
  have hReply : service.reader [Update.key id] = [.ok (some value)] :=
    Reader.ofStore_single hStored
  -- a text whose bytes are those of the slot makes them well-formed
  have hMismatch (hInvalid : ¬hash.toByteArray.IsValidUTF8) (candidate : String) :
      ¬hash = Utf8.encode candidate := fun hSame =>
    hInvalid (Utf8.isValidUTF8_iff_exists_encode.mpr ⟨candidate, hSame.symm⟩)
  refine ⟨UpdateView.ofRecord id record, ?_, ?_, ?_, Service.exists_check id⟩
  · intro request hFetches
    exact Response.shows_of_carries
      (Presentation.update.respond_of_stored maxBatchKeys hFetches hStored hDecode)
  · intro request hFetches hHash
    have hChecked := Service.respond_check hFetches hHash hReply hDecode
    constructor
    · intro hValid
      exact (if_pos (Utf8.encode_lossy_eq_self_iff.mpr hValid).symm).mp hChecked
    · intro hInvalid
      exact (if_neg (hMismatch hInvalid _)).mp hChecked
  · intro hInvalid request hFetches
    by_cases hHash : ∃ candidate,
        onlyValue? "hash" (Target.parse request.target).query = .ok (some candidate)
    · obtain ⟨candidate, hHash⟩ := hHash
      have hChecked := Service.respond_check hFetches hHash hReply hDecode
      rw [if_neg (hMismatch hInvalid _)] at hChecked
      exact hChecked.status_eq
    · exact Service.respond_check_without_hash hFetches (not_exists.mp hHash)

/-- A hash that its slot cuts inside a character is shown and never accepted. -/
theorem hash_cut_inside_character_refused :
    let id : Identifier := default
    let record := UpdateRecord.ofTexts [80] (List.replicate 99 0x61 ++ Utf8.encode "é") [] [] 1 0
    let service : Service :=
      ⟨Reader.ofStore (Store.put ∅ (Update.key id) (some record.encode)), 100⟩
    (∃ shown : UpdateView, ∀ request : Request, request.Fetches "updates" id [] →
      (service.respond request).Shows shown) ∧
    ∀ request : Request, request.Fetches "updates" id ["verify"] →
      (service.respond request).status = 400 := by
  intro id record service
  have hDecode : UpdateRecord.decode record.encode = .ok record :=
    UpdateRecord.decode_encode (UpdateRecord.ofTexts_fillsSlots _ _ _ _ _ _)
  have hInvalid : ¬(Slot.trim record.executableHash).toByteArray.IsValidUTF8 := by
    rw [← Utf8.encode_lossy_eq_self_iff]
    decide +kernel
  obtain ⟨shown, hShown, -, hRefused, -⟩ :=
    shown_hash_accepted_iff_valid (Store.put ∅ (Update.key id) (some record.encode)) 100 id
      record.encode record (Store.getElem?_put_self _ _ _) hDecode
  exact ⟨⟨shown, hShown⟩, hRefused hInvalid⟩

end DeviceLedger
