import DeviceLedger.CommandLine.Decode
import DeviceLedger.Proofs.Effects
import DeviceLedger.Proofs.Requests

/-! The service and the command that decodes show the same of a stored value. Both decode
the value and show the same members of what they find; the service puts the identifiers
beside them. Where decoding fails both name the same reason. -/

namespace DeviceLedger

open CommandLine (Failure ValueKind decoded)
open Http

/-- The text of a value is decoded as its bytes are. -/
theorem CommandLine.decoded_encode (kind : ValueKind) (value : Bytes) :
    decoded kind (Hex.encode value) =
      ((kind.members value).mapError Failure.storage).map Json.sortedObject := by
  rw [decoded, Blank.trim_hex, Hex.decode_encode]

/-- A response shows what was decoded: of an object the same members, with identifiers beside
them and each under its own name, and of an error the same reason. -/
inductive ShowsDecoded (identifiers : List (String × Json)) : Except Failure Json → Response → Prop
  | object {members shown : List (String × Json)} {response : Response}
      (hMembers : shown.Perm (identifiers ++ members)) (hNames : (shown.map Prod.fst).Nodup)
      (hCarries : response.Carries 200 (.object shown)) :
      ShowsDecoded identifiers (.ok (.object members)) response
  | error {error : StorageError} {response : Response}
      (hReports : response.Reports 500 ("storage error: " ++ error.message)) :
      ShowsDecoded identifiers (.error (.storage error)) response

/-- An answer with the members of a record beside identifiers shows what is decoded. -/
theorem showsDecoded_of_answer {α : Type} {decode : Bytes → Except StorageError α}
    {kind : ValueKind} {members : α → List (String × Json)} {identifiers : List (String × Json)}
    {value : Bytes} {answer : Except ServerError Answer}
    (hMembers : kind.members value = (decode value).map members)
    (hNames : ∀ record, ((identifiers ++ members record).map Prod.fst).Nodup)
    (hAnswer : answer = ((decode value).mapError .storage).map fun record =>
      .json (.object (identifiers ++ members record))) :
    ShowsDecoded identifiers (decoded kind (Hex.encode value)) (.ofAnswer answer) := by
  rw [CommandLine.decoded_encode, hMembers, hAnswer]
  cases decode value with
  | ok record =>
      -- the command sorts the members by name, the service leaves them in their order
      have hPerm := List.mergeSort_perm (members record) fun first second =>
        decide (¬second.1 < first.1)
      exact .object (hPerm.symm.append_left identifiers) (hNames record)
        (Response.carries_ofAnswer _)
  | error error => exact .error (Response.reports_ofAnswer (.storage error))

theorem Reader.decoded_of_stored {α : Type} {store : Store} {key value : Bytes}
    (hStored : store[key]? = some value) (decode : Bytes → Except StorageError α) :
    (ofStore store).decoded decode key = (decode value).map some := by
  change Reply.decoded decode (.ok store[key]?) = _
  rw [hStored]
  rfl

namespace Service

variable {store : Store} {value : Bytes} {maxBatchKeys : Nat}

/-- A value that lies at a key is decoded when its record is asked for. -/
theorem shown_of_stored {α β : Type} [JsonFormat β] (decode : Bytes → Except StorageError α)
    (key : Identifier → Bytes) (view : Identifier → α → β) (field entity : String) {text : String}
    {id : Identifier} (hText : Fixed.ofHex 32 (Blank.trim text) = .ok id)
    (hStored : store[key id]? = some value) :
    (shown do
      let id ← parseIdentifier field text
      let record ← present entity id
        (← ofStorage ((Reader.ofStore store).decoded decode (key id)))
      return view id record) =
    ((decode value).mapError .storage).map fun record =>
      .json (JsonFormat.toJson (view id record)) := by
  rw [parseIdentifier, parseFixed_eq_ok hText]
  change (shown do
    let record ← present entity id (← ofStorage ((Reader.ofStore store).decoded decode (key id)))
    return view id record) = _
  rw [Reader.decoded_of_stored hStored]
  cases decode value <;> rfl

section

variable {first second : String} {asset : Identifier}

/-- A balance that lies at its key is decoded when it is asked for. -/
theorem answer_balance {address : Address}
    (hFirst : Fixed.ofHex 33 (Blank.trim first) = .ok address)
    (hSecond : Fixed.ofHex 32 (Blank.trim second) = .ok asset)
    (hStored : store[Balance.key address asset]? = some value) :
    (⟨Reader.ofStore store, maxBatchKeys⟩ : Service).answer (.balance first second) =
      ((Balance.decode value).mapError .storage).map fun amount =>
        .json (JsonFormat.toJson (⟨address, asset, amount⟩ : BalanceView)) := by
  have hRead : Balance.read (Reader.ofStore store) address asset =
      (Balance.decode value).map some := Reader.decoded_of_stored hStored Balance.decode
  rw [answer, balance, parseAddress, parseIdentifier, parseFixed_eq_ok hFirst,
    parseFixed_eq_ok hSecond]
  change (shown do
    let found ← ofStorage (Balance.read (Reader.ofStore store) address asset)
    return (⟨address, asset, found.getD 0⟩ : BalanceView)) = _
  rw [hRead]
  cases Balance.decode value <;> rfl

/-- A loan that lies at its key is decoded when it is asked for. -/
theorem answer_loan {destination : Identifier}
    (hFirst : Fixed.ofHex 32 (Blank.trim first) = .ok asset)
    (hSecond : Fixed.ofHex 32 (Blank.trim second) = .ok destination)
    (hStored : store[Loan.key asset destination]? = some value) :
    (⟨Reader.ofStore store, maxBatchKeys⟩ : Service).answer (.loan first second) =
      ((Loan.decode value).mapError .storage).map fun amount =>
        .json (JsonFormat.toJson (⟨asset, destination, amount⟩ : LoanView)) := by
  have hRead : Loan.read (Reader.ofStore store) asset destination = Loan.decode value := by
    rw [Loan.read_ofStore, hStored, Reply.map_getD_decoded]
  rw [answer, loan, parseIdentifier, parseIdentifier, parseFixed_eq_ok hFirst,
    parseFixed_eq_ok hSecond]
  change (shown do
    let amount ← ofStorage (Loan.read (Reader.ofStore store) asset destination)
    return (⟨asset, destination, amount⟩ : LoanView)) = _
  rw [hRead]
  cases Loan.decode value <;> rfl

end

end Service

/-- A kind of record that is asked for by its identifier: where the service finds it and what
it is shown with, as both the service and the command that decodes have it. -/
structure Presentation (α : Type) where
  collection : String
  route : String → Route
  query : String → Query
  kind : ValueKind
  decode : Bytes → Except StorageError α
  key : Identifier → Bytes
  members : α → List (String × Json)
  isPart : IsPart collection
  ofParts?_eq : ∀ written, written ≠ "" →
    Route.ofParts? ["v1", collection, written] = some (route written)
  route_ne : ∀ written, route written ≠ .balances
  queryOf_eq : ∀ request target written,
    queryOf request target (route written) = (parameter written).map query
  members_eq : ∀ value, kind.members value = (decode value).map members
  names_nodup : ∀ record, ("id" :: (members record).map Prod.fst).Nodup
  answer_eq : ∀ {store : Store} (maxBatchKeys : Nat) {text : String} {id : Identifier}
    {value : Bytes}, Fixed.ofHex 32 (Blank.trim text) = .ok id → store[key id]? = some value →
    (⟨Reader.ofStore store, maxBatchKeys⟩ : Service).answer (query text) =
      ((decode value).mapError .storage).map fun record =>
        .json (.object (("id", .text id.toHex) :: members record))

namespace Presentation

def project : Presentation ProjectRecord where
  collection := "projects"
  route := .project
  query := .project
  kind := .project
  decode := ProjectRecord.decode
  key := Project.key
  members record := [
    ("name", .text record.nameText),
    ("description", .text record.descriptionText),
    ("owner", .text record.ownerText),
    ("logo", .text record.logoText)]
  isPart := by simp [IsPart]
  ofParts?_eq _ hWritten := if_neg hWritten
  route_ne := nofun
  queryOf_eq _ _ _ := rfl
  members_eq value := by
    rw [ValueKind.members]
    cases ProjectRecord.decode value <;> rfl
  names_nodup record := by simp
  answer_eq _ := Service.shown_of_stored ProjectRecord.decode Project.key ProjectView.ofRecord
    "project id" "project"

def update : Presentation UpdateRecord where
  collection := "updates"
  route := .update
  query := .update
  kind := .update
  decode := UpdateRecord.decode
  key := Update.key
  members record := [
    ("project_id", .text record.projectIdText),
    ("executable_hash", .text record.executableHashText),
    ("ipfs_url", .text record.ipfsUrlText),
    ("device_name", .text record.deviceNameText),
    ("version", .nat record.version.toNat),
    ("success_count", .nat record.successCount.toNat)]
  isPart := by simp [IsPart]
  ofParts?_eq _ hWritten := if_neg hWritten
  route_ne := nofun
  queryOf_eq _ _ _ := rfl
  members_eq value := by
    rw [ValueKind.members]
    cases UpdateRecord.decode value <;> rfl
  names_nodup record := by simp
  answer_eq _ := Service.shown_of_stored UpdateRecord.decode Update.key UpdateView.ofRecord
    "update id" "update"

def asset : Presentation AssetRecord where
  collection := "assets"
  route := .asset
  query := .asset
  kind := .asset
  decode := AssetRecord.decode
  key := Asset.key
  members record := [
    ("symbol", .text (Utf8.lossy record.symbol)),
    ("decimals", .nat record.decimals.toNat),
    ("metadata", .text (Utf8.lossy record.metadata)),
    ("supply", .nat record.supply.toNat),
    ("owner", JsonFormat.toJson record.owner),
    ("warp", .flag record.warp)]
  isPart := by simp [IsPart]
  ofParts?_eq _ hWritten := if_neg hWritten
  route_ne := nofun
  queryOf_eq _ _ _ := rfl
  members_eq value := by
    rw [ValueKind.members]
    cases AssetRecord.decode value <;> rfl
  names_nodup record := by simp
  answer_eq _ := Service.shown_of_stored AssetRecord.decode Asset.key AssetView.ofRecord
    "asset id" "asset"

def order : Presentation OrderRecord where
  collection := "orders"
  route := .order
  query := .order
  kind := .order
  decode := OrderRecord.decode
  key := Order.key
  members := OrderRecord.members
  isPart := by simp [IsPart]
  ofParts?_eq _ hWritten := if_neg hWritten
  route_ne := nofun
  queryOf_eq _ _ _ := rfl
  members_eq value := rfl
  names_nodup record := by simp [OrderRecord.members]
  answer_eq _ := Service.shown_of_stored OrderRecord.decode Order.key OrderView.mk
    "order id" "order"

/-- Whoever asks for a record that is there is shown its members. -/
theorem respond_of_stored {α : Type} (presentation : Presentation α) {store : Store}
    (maxBatchKeys : Nat) {request : Request} {id : Identifier} {value : Bytes} {record : α}
    (hFetches : request.Fetches presentation.collection id [])
    (hStored : store[presentation.key id]? = some value)
    (hDecode : presentation.decode value = .ok record) :
    ((⟨Reader.ofStore store, maxBatchKeys⟩ : Service).respond request).Carries 200
      (.object (("id", .text id.toHex) :: presentation.members record)) := by
  obtain ⟨written, hWritten, hGets⟩ := hFetches
  obtain ⟨text, hText, hFixed⟩ := hWritten.found
  have hQuery : queryOf request (Target.parse request.target) (presentation.route written) =
      .ok (presentation.query text) := by
    rw [presentation.queryOf_eq, hText]
    rfl
  rw [Service.respond_of_gets _ hGets (presentation.ofParts?_eq written hWritten.ne_empty)
    (presentation.route_ne written) hQuery, presentation.answer_eq maxBatchKeys hFixed hStored,
    hDecode]
  exact Response.carries_ofAnswer _

/-- A record that is asked for by its identifier, in any spelling, is shown as it is decoded. -/
theorem showsDecoded {α : Type} (presentation : Presentation α) {store : Store}
    (maxBatchKeys : Nat) (contentType : Option String) (body : Bytes) {id : Identifier}
    {written target : String} {value : Bytes}
    (hTarget : target = pathOf ["v1", presentation.collection, written])
    (hWritten : Spells written id) (hStored : store[presentation.key id]? = some value) :
    ShowsDecoded [("id", .text id.toHex)] (decoded presentation.kind (Hex.encode value))
      ((⟨Reader.ofStore store, maxBatchKeys⟩ : Service).respond
        ⟨"GET", target, contentType, body⟩) := by
  subst hTarget
  obtain ⟨text, hText, hResponse⟩ := Service.respond_one ⟨Reader.ofStore store, maxBatchKeys⟩
    contentType body hWritten presentation.isPart
    (presentation.ofParts?_eq written hWritten.ne_empty) (presentation.route_ne written)
    fun request target => presentation.queryOf_eq request target written
  rw [hResponse]
  exact showsDecoded_of_answer (presentation.members_eq value) presentation.names_nodup
    (presentation.answer_eq maxBatchKeys hText hStored)

end Presentation

section

variable {store : Store} (maxBatchKeys : Nat) (contentType : Option String) (body : Bytes)
  {value : Bytes} {first second : String} {asset : Identifier}

theorem showsDecoded_balance {address : Address} {target : String}
    (hTarget : target = pathOf ["v1", "balances", first, second]) (hFirst : Spells first address)
    (hSecond : Spells second asset) (hStored : store[Balance.key address asset]? = some value) :
    ShowsDecoded [("address", .text address.toHex), ("asset", .text asset.toHex)]
      (decoded .balance (Hex.encode value))
      ((⟨Reader.ofStore store, maxBatchKeys⟩ : Service).respond
        ⟨"GET", target, contentType, body⟩) := by
  subst hTarget
  have hRoute : Route.ofParts? ["v1", "balances", first, second] = some (.balance first second) :=
    if_neg hSecond.ne_empty
  obtain ⟨account, held, hAccount, hHeld, hResponse⟩ :=
    Service.respond_two ⟨Reader.ofStore store, maxBatchKeys⟩ contentType body hFirst hSecond
      (by simp [IsPart]) hRoute nofun fun _ _ => rfl
  rw [hResponse]
  exact showsDecoded_of_answer rfl (fun _ => by simp)
    (Service.answer_balance hAccount hHeld hStored)

theorem showsDecoded_loan {destination : Identifier} {target : String}
    (hTarget : target = pathOf ["v1", "loans", first, second]) (hFirst : Spells first asset)
    (hSecond : Spells second destination)
    (hStored : store[Loan.key asset destination]? = some value) :
    ShowsDecoded [("asset", .text asset.toHex), ("destination", .text destination.toHex)]
      (decoded .loan (Hex.encode value))
      ((⟨Reader.ofStore store, maxBatchKeys⟩ : Service).respond
        ⟨"GET", target, contentType, body⟩) := by
  subst hTarget
  have hRoute : Route.ofParts? ["v1", "loans", first, second] = some (.loan first second) :=
    if_neg hSecond.ne_empty
  obtain ⟨lent, place, hLent, hPlace, hResponse⟩ :=
    Service.respond_two ⟨Reader.ofStore store, maxBatchKeys⟩ contentType body hFirst hSecond
      (by simp [IsPart]) hRoute nofun fun _ _ => rfl
  rw [hResponse]
  exact showsDecoded_of_answer rfl (fun _ => by simp) (Service.answer_loan hLent hPlace hStored)

end

/-- The service and the command that decodes show the same record. Take any store and any
value at the key of a project, an update, an asset or an order, and ask for it by its
identifier, in hexadecimal or in any other spelling that the service reads. If the value is
decoded to an object, the answer is an object with the same members and the identifier in
lower-case hexadecimal; if it is no record, the answer names the same reason. The same holds
of a value at the key of a balance or a loan, with both identifiers. -/
theorem service_shows_what_is_decoded (store : Store) (maxBatchKeys : Nat)
    (contentType : Option String) (body value : Bytes) :
    let service : Service := ⟨Reader.ofStore store, maxBatchKeys⟩
    let get (target : String) : Response := service.respond ⟨"GET", target, contentType, body⟩
    let decoded (kind : ValueKind) := CommandLine.decoded kind (Hex.encode value)
    (∀ (width : Nat) (fixed : Fixed width), Spells fixed.toHex fixed) ∧
    (∀ (id : Identifier) (written : String), Spells written id →
      let identifiers := [("id", Json.text id.toHex)]
      (store[Project.key id]? = some value →
        ShowsDecoded identifiers (decoded .project) (get ("/v1/projects/" ++ written))) ∧
      (store[Update.key id]? = some value →
        ShowsDecoded identifiers (decoded .update) (get ("/v1/updates/" ++ written))) ∧
      (store[Asset.key id]? = some value →
        ShowsDecoded identifiers (decoded .asset) (get ("/v1/assets/" ++ written))) ∧
      (store[Order.key id]? = some value →
        ShowsDecoded identifiers (decoded .order) (get ("/v1/orders/" ++ written)))) ∧
    (∀ (address : Address) (asset : Identifier) (first second : String),
      Spells first address → Spells second asset →
      store[Balance.key address asset]? = some value →
      ShowsDecoded [("address", .text address.toHex), ("asset", .text asset.toHex)]
        (decoded .balance) (get ("/v1/balances/" ++ first ++ "/" ++ second))) ∧
    (∀ (asset destination : Identifier) (first second : String),
      Spells first asset → Spells second destination →
      store[Loan.key asset destination]? = some value →
      ShowsDecoded [("asset", .text asset.toHex), ("destination", .text destination.toHex)]
        (decoded .loan) (get ("/v1/loans/" ++ first ++ "/" ++ second))) := by
  have hOne (collection written : String) :
      "/v1/" ++ collection ++ "/" ++ written = pathOf ["v1", collection, written] := by
    simp [← String.toList_inj, pathOf]
  have hTwo (collection first second : String) :
      "/v1/" ++ collection ++ "/" ++ first ++ "/" ++ second =
        pathOf ["v1", collection, first, second] := by
    simp [← String.toList_inj, pathOf]
  dsimp only
  refine ⟨fun _ => Spells.of_toHex, fun id written hWritten => ⟨?_, ?_, ?_, ?_⟩, ?_, ?_⟩
  · exact Presentation.project.showsDecoded maxBatchKeys contentType body
      (hOne "projects" written) hWritten
  · exact Presentation.update.showsDecoded maxBatchKeys contentType body
      (hOne "updates" written) hWritten
  · exact Presentation.asset.showsDecoded maxBatchKeys contentType body
      (hOne "assets" written) hWritten
  · exact Presentation.order.showsDecoded maxBatchKeys contentType body
      (hOne "orders" written) hWritten
  · intro address asset first second
    exact showsDecoded_balance maxBatchKeys contentType body (hTwo "balances" first second)
  · intro asset destination first second
    exact showsDecoded_loan maxBatchKeys contentType body (hTwo "loans" first second)

/-- A balance of seven is shown, and an order of a single byte is reported. -/
theorem balance_shown_and_order_reported :
    let id : Identifier := default
    let address : Address := default
    let store : Store := (Store.put ∅ (Balance.key address id) (some [0, 0, 0, 0, 0, 0, 0, 7])).put
      (Order.key id) (some [1])
    let get (target : String) : Response :=
      (⟨Reader.ofStore store, 100⟩ : Service).respond ⟨"GET", target, none, []⟩
    ShowsDecoded [("address", .text address.toHex), ("asset", .text id.toHex)]
      (.ok (.object [("balance", .number 7)]))
      (get ("/v1/balances/" ++ address.toHex ++ "/" ++ id.toHex)) ∧
    ShowsDecoded [("id", .text id.toHex)] (.error (.storage (.malformed "order" (.short 32 0 1))))
      (get ("/v1/orders/" ++ id.toHex)) := by
  intro id address store get
  have hBalance : store[Balance.key address id]? = some [0, 0, 0, 0, 0, 0, 0, 7] := by
    rw [Store.getElem?_put_of_ne _ _ (by decide), Store.getElem?_put_self]
  have hOrder : store[Order.key id]? = some [1] := Store.getElem?_put_self _ _ _
  obtain ⟨hSpells, -, hBalances, -⟩ := service_shows_what_is_decoded store 100 none []
    [0, 0, 0, 0, 0, 0, 0, 7]
  obtain ⟨-, hRecords, -⟩ := service_shows_what_is_decoded store 100 none [] [1]
  obtain ⟨-, -, -, hOrders⟩ := hRecords id id.toHex (hSpells 32 id)
  constructor
  · have hShown := hBalances address id _ _ (hSpells 33 address) (hSpells 32 id) hBalance
    have hSeven :
        Json.sortedObject [("balance", .number 7)] = .object [("balance", .number 7)] := by
      rw [Json.sortedObject, List.mergeSort_singleton]
    simp only [CommandLine.decoded_encode] at hShown
    rw [← hSeven]
    exact hShown
  · have hShown := hOrders hOrder
    simp only [CommandLine.decoded_encode] at hShown
    exact hShown

end DeviceLedger
