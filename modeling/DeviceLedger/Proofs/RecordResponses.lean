import DeviceLedger.Proofs.Effects
import DeviceLedger.Proofs.Requests

/-! How the service answers for a single record. Texts that are no identifiers are refused
without a look at the store. Then all depends on what the reader replies to the one key of the
record, whatever it replies. -/

namespace DeviceLedger

namespace Reader

/-- A single key needs exactly one reply. -/
theorem one_of_length_ne {reader : Reader} {key : Bytes} (hLength : (reader [key]).length ≠ 1) :
    reader.one key = .error (.backend
      ("expected 1 result for 1 key, got " ++ toString (reader [key]).length)) := by
  rw [one]
  cases hReplies : reader [key] with
  | nil => rfl
  | cons reply replies =>
      cases replies with
      | nil => exact absurd (by rw [hReplies]; rfl) hLength
      | cons reply replies => rfl

theorem one_of_reply {reader : Reader} {key : Bytes} {reply : Reply}
    (hReply : reader [key] = [reply]) : reader.one key = reply := by
  rw [one, hReply]

end Reader

namespace Http.Response

/-- A response that needs a text to stand for a value of a fixed width. White space around the
text does not count. Another text is refused with the reason why it is none. -/
structure Requires (response : Response) (width : Nat) (field text : String)
    (outcome : Fixed width → Prop) : Prop where
  refused : ∀ error, Fixed.ofHex width (Blank.trim text) = .error error →
    response.Reports 400 ("invalid " ++ field ++ ": " ++ error.message)
  accepted : ∀ fixed, Fixed.ofHex width (Blank.trim text) = .ok fixed → outcome fixed

/-- A response that the replies to a single key decide: there has to be exactly one, it has to
be no failure, and what lies at the key is decoded. It is `missing` where nothing lies there, and
otherwise what is decoded is `shown`. -/
structure DecidedBy {α : Type} (response : Response) (replies : List Reply)
    (decode : Bytes → Except StorageError α) (missing : Prop) (shown : α → Prop) : Prop where
  miscounted : replies.length ≠ 1 → response.Reports 500
    ("storage error: state error: backend failure: expected 1 result for 1 key, got " ++
      toString replies.length)
  failed : ∀ failure, replies = [.error failure] →
    response.Reports 500 ("storage error: state error: " ++ failure.message)
  malformed : ∀ value error, replies = [.ok (some value)] → decode value = .error error →
    response.Reports 500 ("storage error: " ++ error.message)
  absent : replies = [.ok none] → missing
  present : ∀ value record, replies = [.ok (some value)] → decode value = .ok record →
    shown record

end Http.Response

open Http

namespace Service

section

variable {width : Nat} {field text : String} {response : Response}

/-- An answer that begins with an identifier needs it. -/
theorem requires_of_parse {next : Fixed width → Except ServerError Answer}
    {outcome : Fixed width → Prop}
    (hResponse : response = .ofAnswer (parseFixed width field text >>= next))
    (hNext : ∀ fixed, response = .ofAnswer (next fixed) → outcome fixed) :
    response.Requires width field text outcome := by
  constructor
  case refused =>
    intro error hError
    rw [hResponse, parseFixed_eq_error hError]
    exact Response.reports_ofAnswer (.badRequest field error.message)
  case accepted =>
    intro fixed hFixed
    apply hNext
    rw [hResponse, parseFixed_eq_ok hFixed]
    rfl

/-- An answer that goes on with what is found at a key is decided by the replies to it. -/
theorem decidedBy_of_decoded {α : Type} {reader : Reader} {decode : Bytes → Except StorageError α}
    {key : Bytes} {next : Option α → Except ServerError Answer} {missing : Prop}
    {shown : α → Prop}
    (hResponse : response = .ofAnswer (ofStorage (reader.decoded decode key) >>= next))
    (hAbsent : response = .ofAnswer (next none) → missing)
    (hPresent : ∀ record, response = .ofAnswer (next (some record)) → shown record) :
    response.DecidedBy (reader [key]) decode missing shown := by
  rw [Reader.decoded] at hResponse
  constructor
  case miscounted =>
    intro hLength
    rw [hResponse, Reader.one_of_length_ne hLength]
    exact Response.reports_ofAnswer (.storage (.state (.backend _)))
  case failed =>
    intro failure hReply
    rw [hResponse, Reader.one_of_reply hReply]
    exact Response.reports_ofAnswer (.storage (.state failure))
  case malformed =>
    intro value error hReply hError
    rw [hResponse, Reader.one_of_reply hReply, Reply.decoded, hError]
    exact Response.reports_ofAnswer (.storage error)
  case absent =>
    intro hReply
    rw [Reader.one_of_reply hReply] at hResponse
    exact hAbsent hResponse
  case present =>
    intro value record hReply hRecord
    rw [Reader.one_of_reply hReply, Reply.decoded, hRecord] at hResponse
    exact hPresent record hResponse

end

/-- Only the last of several steps is mapped. -/
theorem map_bound {α β γ : Type} (outcome : β → γ) (result : Except ServerError α)
    (next : α → Except ServerError β) :
    (result >>= next).map outcome = result >>= fun found => (next found).map outcome :=
  map_bind outcome result next

theorem ofStorage_map_bind {α β γ : Type} (result : Except StorageError α) (outcome : α → β)
    (next : β → Except ServerError γ) :
    ofStorage (result.map outcome) >>= next = ofStorage result >>= next ∘ outcome := by
  cases result <;> rfl

variable {service : Service} {request : Request}

section

variable {parts : List String} {route : Route} (hGets : request.Gets parts)
  (hRoute : Route.ofParts? parts = some route) (hAllows : route ≠ .balances)

include hGets hRoute hAllows

/-- A record that has to be there needs its identifier, and the replies to its key decide. -/
theorem record_classified {α β : Type} [JsonFormat β] (decode : Bytes → Except StorageError α)
    (key : Identifier → Bytes) (view : Identifier → α → β) (field entity : String)
    {query : String → Query} {written text : String} (hText : parameter written = .ok text)
    (hQuery : queryOf request (Target.parse request.target) route =
      (parameter written).map query)
    (hAnswer : service.answer (query text) = shown do
      let id ← parseIdentifier field text
      let record ← present entity id (← ofStorage (service.reader.decoded decode (key id)))
      return view id record) :
    (service.respond request).Requires 32 field text fun id =>
      (service.respond request).DecidedBy (service.reader [key id]) decode
        ((service.respond request).Reports 404 (entity ++ " not found: " ++ id.toHex))
        fun record =>
          (service.respond request).Carries 200 (JsonFormat.toJson (view id record)) := by
  rw [hText] at hQuery
  have hResponse := service.respond_of_gets hGets hRoute hAllows hQuery
  rw [hAnswer, shown, map_bound] at hResponse
  apply requires_of_parse hResponse
  intro id hDecoded
  rw [map_bound] at hDecoded
  apply decidedBy_of_decoded hDecoded
  · intro hMissing
    rw [hMissing]
    exact Response.reports_ofAnswer (.notFound entity id.toHex)
  · intro record hShown
    rw [hShown]
    exact Response.carries_ofAnswer _

/-- An amount that is kept for two identifiers needs both, and the replies to its key decide.
Where there is no record it is zero. -/
theorem amount_classified {width : Nat} {β : Type} [JsonFormat β]
    (decode : Bytes → Except StorageError UInt64) (key : Fixed width → Identifier → Bytes)
    (view : Fixed width → Identifier → UInt64 → β) (field field' : String)
    {query : String → String → Query} {first second text text' : String}
    (hText : parameter first = .ok text) (hText' : parameter second = .ok text')
    (hQuery : queryOf request (Target.parse request.target) route = do
      let first ← parameter first
      let second ← parameter second
      return query first second)
    (hAnswer : service.answer (query text text') = shown do
      let owner ← parseFixed width field text
      let object ← parseIdentifier field' text'
      let found ← ofStorage (service.reader.decoded decode (key owner object))
      return view owner object (found.getD 0)) :
    (service.respond request).Requires width field text fun owner =>
      (service.respond request).Requires 32 field' text' fun object =>
        let shown (amount : UInt64) : Prop :=
          (service.respond request).Carries 200 (JsonFormat.toJson (view owner object amount))
        (service.respond request).DecidedBy (service.reader [key owner object]) decode
          (shown 0) shown := by
  rw [hText, hText'] at hQuery
  have hResponse := service.respond_of_gets hGets hRoute hAllows hQuery
  rw [hAnswer, shown, map_bound] at hResponse
  apply requires_of_parse hResponse
  intro owner hNext
  rw [map_bound] at hNext
  apply requires_of_parse hNext
  intro object hDecoded
  rw [map_bound] at hDecoded
  apply decidedBy_of_decoded hDecoded
  · intro hZero
    rw [hZero]
    exact Response.carries_ofAnswer _
  · intro amount hShown
    rw [hShown]
    exact Response.carries_ofAnswer _

end

/-- What is answered when two hashes have been compared. -/
theorem compared_ofAnswer (id : String) (hash candidate : Bytes) :
    let response := Response.ofAnswer ((if (hash == candidate) = true then Except.ok ()
      else Except.error (ServerError.hashMismatch id)).map fun _ => Answer.valid)
    if hash = candidate then response.Confirms
    else response.Reports 400 ("executable hash does not match update " ++ id) := by
  by_cases hEqual : hash = candidate
  · rw [if_pos (beq_iff_eq.mpr hEqual), if_pos hEqual]
    exact Response.confirms_ofAnswer
  · rw [if_neg (beq_iff_eq.not.mpr hEqual), if_neg hEqual]
    exact Response.reports_ofAnswer (.hashMismatch id)

/-- A check of a hash needs the identifier of an update and a hash. Then the replies to the
update's key decide. -/
theorem verify_classified {written text : String} {hash : Option String}
    (hGets : request.Gets ["v1", "updates", written, "verify"])
    (hText : parameter written = .ok text)
    (hHash : onlyValue? "hash" (Target.parse request.target).query = .ok hash) :
    let response := service.respond request
    response.Requires 32 "update id" text fun id =>
      (hash = none → response.Reports 400 "invalid hash: missing query parameter") ∧
      ∀ candidate, hash = some candidate →
        response.DecidedBy (service.reader [Update.key id]) UpdateRecord.decode
          (response.Reports 404 ("update not found: " ++ id.toHex))
          fun record =>
            if Slot.trim record.executableHash = Utf8.encode candidate then response.Confirms
            else response.Reports 400
              ("executable hash does not match update " ++ id.toHex) := by
  have hQuery : queryOf request (Target.parse request.target) (.verify written) =
      .ok (.verify text hash) := by
    rw [queryOf, hText, hHash]
    rfl
  have hResponse := service.respond_of_gets hGets rfl nofun hQuery
  rw [answer, verify, map_bound] at hResponse
  apply requires_of_parse hResponse
  intro id hNext
  constructor
  · rintro rfl
    rw [hNext]
    exact Response.reports_ofAnswer (.badRequest "hash" "missing query parameter")
  · rintro candidate rfl
    dsimp only at hNext
    rw [map_bound, Update.hashMatches_eq, ofStorage_map_bind] at hNext
    apply decidedBy_of_decoded hNext
    · intro hMissing
      rw [hMissing]
      exact Response.reports_ofAnswer (.notFound "update" id.toHex)
    · intro record hCompared
      rw [hCompared]
      exact compared_ofAnswer id.toHex (Slot.trim record.executableHash) (Utf8.encode candidate)

/-- How the service answers for a single record, completely, whatever its reader replies. A text
that is no identifier is refused with the reason, the first one in the path first, and so is a
check without a hash; no reply matters there. Then the replies to the one key decide: unless
there is exactly one, the answer is an error of the storage, as it is for a failure and for a
value that is no record. A record that is not there is not found, but a balance or a loan is
zero. A record that is there is shown, or its hash is compared. -/
theorem single_records_classified (service : Service) (request : Request) :
    let response := service.respond request
    (∀ written text, request.Gets ["v1", "projects", written] → written ≠ "" →
      parameter written = .ok text →
      response.Requires 32 "project id" text fun id =>
        response.DecidedBy (service.reader [Project.key id]) ProjectRecord.decode
          (response.Reports 404 ("project not found: " ++ id.toHex))
          fun record =>
            response.Carries 200 (JsonFormat.toJson (ProjectView.ofRecord id record))) ∧
    (∀ written text, request.Gets ["v1", "updates", written] → written ≠ "" →
      parameter written = .ok text →
      response.Requires 32 "update id" text fun id =>
        response.DecidedBy (service.reader [Update.key id]) UpdateRecord.decode
          (response.Reports 404 ("update not found: " ++ id.toHex))
          fun record =>
            response.Carries 200 (JsonFormat.toJson (UpdateView.ofRecord id record))) ∧
    (∀ written text hash, request.Gets ["v1", "updates", written, "verify"] →
      parameter written = .ok text →
      onlyValue? "hash" (Target.parse request.target).query = .ok hash →
      response.Requires 32 "update id" text fun id =>
        (hash = none → response.Reports 400 "invalid hash: missing query parameter") ∧
        ∀ candidate, hash = some candidate →
          response.DecidedBy (service.reader [Update.key id]) UpdateRecord.decode
            (response.Reports 404 ("update not found: " ++ id.toHex))
            fun record =>
              if Slot.trim record.executableHash = Utf8.encode candidate then response.Confirms
              else response.Reports 400
                ("executable hash does not match update " ++ id.toHex)) ∧
    (∀ first second address asset, request.Gets ["v1", "balances", first, second] → second ≠ "" →
      parameter first = .ok address → parameter second = .ok asset →
      response.Requires 33 "address" address fun address =>
        response.Requires 32 "asset" asset fun asset =>
          let shown (balance : UInt64) : Prop :=
            response.Carries 200 (JsonFormat.toJson (⟨address, asset, balance⟩ : BalanceView))
          response.DecidedBy (service.reader [Balance.key address asset]) Balance.decode
            (shown 0) shown) ∧
    (∀ written text, request.Gets ["v1", "assets", written] → written ≠ "" →
      parameter written = .ok text →
      response.Requires 32 "asset id" text fun id =>
        response.DecidedBy (service.reader [Asset.key id]) AssetRecord.decode
          (response.Reports 404 ("asset not found: " ++ id.toHex))
          fun record =>
            response.Carries 200 (JsonFormat.toJson (AssetView.ofRecord id record))) ∧
    (∀ written text, request.Gets ["v1", "orders", written] → written ≠ "" →
      parameter written = .ok text →
      response.Requires 32 "order id" text fun id =>
        response.DecidedBy (service.reader [Order.key id]) OrderRecord.decode
          (response.Reports 404 ("order not found: " ++ id.toHex))
          fun record =>
            response.Carries 200 (JsonFormat.toJson (⟨id, record⟩ : OrderView))) ∧
    (∀ first second asset destination, request.Gets ["v1", "loans", first, second] → second ≠ "" →
      parameter first = .ok asset → parameter second = .ok destination →
      response.Requires 32 "asset" asset fun asset =>
        response.Requires 32 "destination" destination fun destination =>
          let shown (amount : UInt64) : Prop :=
            response.Carries 200 (JsonFormat.toJson (⟨asset, destination, amount⟩ : LoanView))
          response.DecidedBy (service.reader [Loan.key asset destination]) Loan.decode
            (shown 0) shown) := by
  refine ⟨?_, ?_, ?_, ?_, ?_, ?_, ?_⟩
  · intro written text hGets hWritten hText
    exact record_classified hGets (if_neg hWritten) nofun ProjectRecord.decode Project.key
      ProjectView.ofRecord "project id" "project" hText rfl rfl
  · intro written text hGets hWritten hText
    exact record_classified hGets (if_neg hWritten) nofun UpdateRecord.decode Update.key
      UpdateView.ofRecord "update id" "update" hText rfl rfl
  · intro written text hash hGets hText hHash
    exact verify_classified hGets hText hHash
  · intro first second address asset hGets hSecond hAddress hAsset
    exact amount_classified hGets (if_neg hSecond) nofun Balance.decode Balance.key
      BalanceView.mk "address" "asset" hAddress hAsset rfl rfl
  · intro written text hGets hWritten hText
    exact record_classified hGets (if_neg hWritten) nofun AssetRecord.decode Asset.key
      AssetView.ofRecord "asset id" "asset" hText rfl rfl
  · intro written text hGets hWritten hText
    exact record_classified hGets (if_neg hWritten) nofun OrderRecord.decode Order.key
      OrderView.mk "order id" "order" hText rfl rfl
  · intro first second asset destination hGets hSecond hAsset hDestination
    apply amount_classified hGets (if_neg hSecond) nofun Loan.decode Loan.key LoanView.mk
      "asset" "destination" hAsset hDestination rfl
    -- a loan is read as its amount, so that zero comes in before the error is passed on
    simp only [answer, loan, Loan.read_eq, ofStorage_map_bind]
    rfl

/-- A reader that fails is reported, and a project that is not there is not found. To check a
hash takes one, whatever the reader replies. -/
theorem replies_decide_project :
    let id : Identifier := default
    let respond (parts : List String) (replies : List Reply) : Response :=
      (⟨fun _ => replies, 100⟩ : Service).respond ⟨"GET", pathOf parts, none, []⟩
    (respond ["v1", "projects", id.toHex] [.error .poisoned]).Reports 500
      "storage error: state error: state lock poisoned" ∧
    (respond ["v1", "projects", id.toHex] [.ok none]).Reports 404
      ("project not found: " ++ id.toHex) ∧
    (respond ["v1", "updates", id.toHex, "verify"] []).Reports 400
      "invalid hash: missing query parameter" := by
  intro id
  -- nothing below depends on which identifier it is
  clear_value id
  intro respond
  have hId : IsPart id.toHex := (Spells.of_toHex id).isPart
  have hProject : ∀ part ∈ ["v1", "projects", id.toHex], IsPart part := by
    have hCollection : IsPart "projects" := by simp [IsPart]
    simp [hCollection, hId]
  have hVerify : ∀ part ∈ ["v1", "updates", id.toHex, "verify"], IsPart part := by
    have hCollection : IsPart "updates" := by simp [IsPart]
    have hCheck : IsPart "verify" := by simp [IsPart]
    simp [hCollection, hId, hCheck]
  obtain ⟨hFailing, -⟩ := single_records_classified ⟨fun _ => [.error .poisoned], 100⟩
    ⟨"GET", pathOf ["v1", "projects", id.toHex], none, []⟩
  obtain ⟨hMissing, -⟩ := single_records_classified ⟨fun _ => [.ok none], 100⟩
    ⟨"GET", pathOf ["v1", "projects", id.toHex], none, []⟩
  obtain ⟨-, -, hCheck, -⟩ := single_records_classified ⟨fun _ => [], 100⟩
    ⟨"GET", pathOf ["v1", "updates", id.toHex, "verify"], none, []⟩
  have hText := parameter_toHex id
  have hFixed := Fixed.ofHex_trim_toHex id
  have hGets := Request.gets_pathOf hProject none []
  have hNonempty := (Spells.of_toHex id).ne_empty
  refine ⟨?_, ?_, ?_⟩
  · have hFailed := ((hFailing _ _ hGets hNonempty hText).accepted id hFixed).failed _ rfl
    have hMessage : "storage error: state error: " ++ StateError.message .poisoned =
        "storage error: state error: state lock poisoned" := by decide
    rwa [hMessage] at hFailed
  · exact ((hMissing _ _ hGets hNonempty hText).accepted id hFixed).absent rfl
  · have hHash :
        onlyValue? "hash" (Target.parse (pathOf ["v1", "updates", id.toHex, "verify"])).query =
          .ok none := by
      rw [Target.parse_pathOf hVerify]
      rfl
    have hGets := Request.gets_pathOf hVerify none []
    exact ((hCheck _ _ none hGets hText hHash).accepted id hFixed).1 rfl

end Service

end DeviceLedger
