import DeviceLedger.Proofs.JsonFormats
import DeviceLedger.Proofs.Readings
import DeviceLedger.Proofs.RecordResponses

/-! Batches of balances against requests for one account each. Where the texts of a batch are
identifiers and the reader replies to each key by itself, the batch computes what the single
requests compute, one after the other up to the first that fails. -/

namespace DeviceLedger

namespace Json

theorem render_items (item : Json) (items : List Json) :
    render item ++ renderItems items =
      [','].intercalate ((item :: items).map render) ++ [']'] := by
  induction items generalizing item with
  | nil => simp [renderItems]
  | cons next items ih =>
      rw [renderItems, ih next]
      simp

/-- The items of a list stand between commas. -/
theorem compact_list (items : List Json) :
    (list items).compact = "[" ++ ",".intercalate (items.map compact) ++ "]" := by
  rw [← String.toList_inj, compact, String.toList_ofList]
  cases items with
  | nil => simp [render]
  | cons item items =>
      rw [render, render_items]
      simp [compact, Function.comp_def]

end Json

open Http

/-- The texts of a query stand for an account. -/
def AccountQuery.StandsFor (query : AccountQuery) (address : Address) (asset : Identifier) : Prop :=
  Fixed.ofHex 33 (Blank.trim query.address) = .ok address ∧
    Fixed.ofHex 32 (Blank.trim query.asset) = .ok asset

namespace Http

/-- A request for the balance of one account, by the texts of a query. -/
def Request.AsksFor (request : Request) (query : AccountQuery) : Prop :=
  ∃ first second, request.Gets ["v1", "balances", first, second] ∧ second ≠ "" ∧
    parameter first = .ok query.address ∧ parameter second = .ok query.asset

/-- A response to a batch that agrees with the responses to its accounts one by one: it shows
all that they show, in their order, or it is the first of them that fails. -/
structure Response.Joins (response : Response) (singles : List Response) : Prop where
  status_eq_iff : response.status = 200 ↔ ∀ single ∈ singles, single.status = 200
  body_eq : response.status = 200 →
    response.body = "[" ++ ",".intercalate (singles.map Response.body) ++ "]"
  first_failure : response.status ≠ 200 → response.status = 500 ∧
    ∃ earlier later, singles = earlier ++ response :: later ∧
      ∀ single ∈ earlier, single.status = 200

/-- The first response that fails is that to the batch. -/
theorem Response.Joins.eq_first_failure {response failing : Response}
    {earlier later : List Response} (hJoins : response.Joins (earlier ++ failing :: later))
    (hEarlier : ∀ single ∈ earlier, single.status = 200) (hFailing : failing.status ≠ 200) :
    response = failing := by
  have hFails : response.status ≠ 200 := fun hOk =>
    hFailing (hJoins.status_eq_iff.mp hOk failing (by simp))
  obtain ⟨-, front, back, hSplit, hFront⟩ := hJoins.first_failure hFails
  -- neither of the two may stand in front of the other
  rcases List.append_eq_append_iff.mp hSplit with ⟨between, rfl, hRest⟩ | ⟨between, rfl, hRest⟩
  · cases between with
    | nil => exact (List.cons.inj hRest).1.symm
    | cons single between =>
        obtain ⟨rfl, -⟩ := List.cons.inj hRest
        exact absurd (hFront _ (by simp)) hFailing
  · cases between with
    | nil => exact (List.cons.inj hRest).1
    | cons single between =>
        obtain ⟨rfl, -⟩ := List.cons.inj hRest
        exact absurd (hEarlier _ (by simp)) hFails

/-- A batch is sent as it is written, if its text is not too large. -/
theorem batchOf_write {method target : String} {batch : BalanceBatch}
    (hSize : (Utf8.encode (JsonFormat.write batch)).length ≤ bodyLimit) :
    batchOf ⟨method, target, some "application/json", Utf8.encode (JsonFormat.write batch)⟩ =
      .ok batch := by
  have hJson : (((some "application/json").bind MediaType.parse?).map MediaType.isJson).getD false =
      true := by decide +kernel
  rw [batchOf, if_neg (by rw [hJson]; simp), if_neg hSize.not_gt, JsonFormat.parseAtStart_write]

theorem Request.asksFor_pathOf {query : AccountQuery} {first second : String}
    (hFirst : IsPart first) (hSecond : IsPart second) (hNonempty : second ≠ "")
    (hAddress : parameter first = .ok query.address)
    (hAsset : parameter second = .ok query.asset) :
    Request.AsksFor ⟨"GET", pathOf ["v1", "balances", first, second], none, []⟩ query := by
  have hParts : ∀ part ∈ ["v1", "balances", first, second], IsPart part := by
    have hCollection : IsPart "balances" := by simp [IsPart]
    simp [hCollection, hFirst, hSecond]
  exact ⟨first, second, Request.gets_pathOf hParts none [], hNonempty, hAddress, hAsset⟩

/-- Whatever texts a query has, it can be asked on its own, unless that for the asset is
empty. -/
theorem Request.exists_asksFor {query : AccountQuery} (hAsset : query.asset ≠ "") :
    ∃ request : Request, request.AsksFor query := by
  refine ⟨_, Request.asksFor_pathOf (isPart_escape query.address) (isPart_escape query.asset) ?_
    (parameter_escape query.address) (parameter_escape query.asset)⟩
  intro hEmpty
  have hText := parameter_escape query.asset
  rw [hEmpty, parameter, pathText?_of_no_percent (by simp)] at hText
  exact hAsset (Except.ok.inj hText).symm

end Http

theorem AccountQuery.StandsFor.asset_ne {query : AccountQuery} {address : Address}
    {asset : Identifier} (hQuery : query.StandsFor address asset) : query.asset ≠ "" := by
  intro hEmpty
  have hAsset := hQuery.2
  rw [hEmpty] at hAsset
  cases hAsset

namespace Service

variable {service : Service}

theorem parseAccount_eq_ok {query : AccountQuery} {address : Address} {asset : Identifier}
    (hQuery : query.StandsFor address asset) : parseAccount query = .ok (address, asset) := by
  rw [parseAccount, parseAddress, parseIdentifier, parseFixed_eq_ok hQuery.1,
    parseFixed_eq_ok hQuery.2]
  rfl

/-- The balance that is shown for an account. -/
def balanceOf (service : Service) (account : Address × Identifier) :
    Except ServerError BalanceView :=
  (ofStorage (Balance.read service.reader account.1 account.2)).map fun found =>
    ⟨account.1, account.2, found.getD 0⟩

theorem balance_eq (service : Service) (query : AccountQuery) :
    service.balance query.address query.asset = parseAccount query >>= service.balanceOf := by
  rw [balance, parseAccount]
  cases parseAddress "address" query.address with
  | error error => rfl
  | ok address =>
      cases parseIdentifier "asset" query.asset with
      | error error => rfl
      | ok asset =>
          change (do
            let found ← ofStorage (Balance.read service.reader address asset)
            return (⟨address, asset, found.getD 0⟩ : BalanceView)) = _
          rw [bind_pure_comp]
          rfl

theorem respond_single {request : Request} {query : AccountQuery} (hAsks : request.AsksFor query) :
    service.respond request =
      .ofAnswer (shown (service.balance query.address query.asset)) := by
  obtain ⟨first, second, hGets, hSecond, hAddress, hAsset⟩ := hAsks
  have hQuery : queryOf request (Target.parse request.target) (.balance first second) =
      .ok (.balance query.address query.asset) := by
    rw [queryOf, hAddress, hAsset]
    rfl
  rw [service.respond_of_gets hGets (if_neg hSecond) (by simp) hQuery, answer]

/-- The results of a batch of accounts are those of the accounts, put together. -/
theorem map_zipWith_mapM (read : Address × Identifier → Except StorageError (Option UInt64))
    (view : Address × Identifier → Option UInt64 → BalanceView)
    (accounts : List (Address × Identifier)) :
    (ofStorage (accounts.mapM read)).map (List.zipWith view accounts) =
      accounts.mapM fun account => (ofStorage (read account)).map (view account) := by
  induction accounts with
  | nil => rfl
  | cons account accounts ih =>
      rw [List.mapM_cons, List.mapM_cons, ← ih]
      cases read account with
      | error error => rfl
      | ok found => cases accounts.mapM read <;> rfl

theorem exists_accounts {queries : List AccountQuery}
    (hQueries : ∀ query ∈ queries, ∃ address asset, query.StandsFor address asset) :
    ∃ accounts : List (Address × Identifier), queries.map parseAccount = accounts.map .ok := by
  refine exists_map_ok_iff.mpr fun query hMem => ?_
  obtain ⟨address, asset, hQuery⟩ := hQueries query hMem
  exact ⟨(address, asset), parseAccount_eq_ok hQuery⟩

/-- A batch within the limit finds what its accounts find one by one. -/
theorem balances_eq_mapM {batch : BalanceBatch} {reply : Bytes → Reply}
    (hSize : batch.accounts.length ≤ service.maxBatchKeys)
    (hQueries : ∀ query ∈ batch.accounts, ∃ address asset, query.StandsFor address asset)
    (hReader : service.reader = fun keys => keys.map reply) :
    service.balances batch =
      batch.accounts.mapM fun query => service.balance query.address query.asset := by
  obtain ⟨accounts, hAccounts⟩ := exists_accounts hQueries
  have hMany : Balance.readMany service.reader accounts =
      accounts.mapM fun account => Balance.read service.reader account.1 account.2 := by
    rw [hReader]
    exact Balance.readMany_map reply accounts
  calc
    service.balances batch = ofStorage (Balance.readMany service.reader accounts) >>= fun founds =>
        return List.zipWith (fun account found => ⟨account.1, account.2, found.getD 0⟩)
          accounts founds := by
      rw [balances, if_neg (by omega), mapM_eq_ok hAccounts]
      rfl
    _ = accounts.mapM service.balanceOf := by
      rw [bind_pure_comp, hMany]
      exact map_zipWith_mapM _ _ accounts
    _ = batch.accounts.mapM fun query => service.balance query.address query.asset := by
      simp only [balance_eq]
      exact (mapM_bind_eq hAccounts service.balanceOf).symm

/-- The responses to results that are all there. -/
theorem map_ofAnswer_shown {α : Type} {single : α → Except ServerError BalanceView}
    {items : List α} {views : List BalanceView} (hViews : items.map single = views.map .ok) :
    (items.map fun item => Response.ofAnswer (shown (single item))) =
      views.map fun view => .ofAnswer (.ok (.json (JsonFormat.toJson view))) := by
  have hResponses := congrArg (List.map fun result => Response.ofAnswer (shown result)) hViews
  rw [List.map_map, List.map_map] at hResponses
  exact hResponses

/-- The response to results one after the other agrees with the responses to each of them. -/
theorem joins_of_mapM {α : Type} (single : α → Except ServerError BalanceView) (items : List α)
    (hFailure : ∀ item ∈ items, ∀ error, single item = .error error → error.status = 500) :
    (Response.ofAnswer ((items.mapM single).map fun views =>
        .json (.list (views.map JsonFormat.toJson)))).Joins
      (items.map fun item => .ofAnswer (shown (single item))) := by
  have hShown (views : List BalanceView) : ∀ response ∈ views.map fun view =>
      Response.ofAnswer (.ok (.json (JsonFormat.toJson view))), response.status = 200 :=
    List.forall_mem_map.mpr fun view _ => (Response.carries_ofAnswer _).status_eq
  obtain ⟨views, hViews⟩ | ⟨earlier, later, item, views, error, rfl, hViews, hError⟩ :=
    map_ok_or_error single items
  · rw [map_ofAnswer_shown hViews, mapM_eq_ok hViews]
    constructor
    case status_eq_iff => exact ⟨fun _ => hShown views, fun _ => rfl⟩
    case body_eq =>
      intro _
      change (Json.list (views.map JsonFormat.toJson)).compact = _
      rw [Json.compact_list, List.map_map, List.map_map]
      rfl
    case first_failure =>
      intro hStatus
      exact absurd rfl hStatus
  · -- the first failure ends the batch, and its response is that of the batch
    have hStatus : error.status = 500 := hFailure item (by simp) error hError
    have hFails : (Response.ofAnswer (.error error)).status = 500 := hStatus
    have hItem : Response.ofAnswer (shown (single item)) = .ofAnswer (.error error) := by
      rw [hError]
      rfl
    have hResponse : Response.ofAnswer (((earlier ++ item :: later).mapM single).map fun views =>
        .json (.list (views.map JsonFormat.toJson))) = .ofAnswer (.error error) := by
      rw [mapM_eq_error hViews hError]
      rfl
    rw [hResponse, List.map_append, List.map_cons, hItem, map_ofAnswer_shown hViews]
    constructor
    case status_eq_iff =>
      constructor
      · intro hOk
        cases hFails.symm.trans hOk
      · intro hAll
        exact hAll _ (by simp)
    case body_eq =>
      intro hOk
      cases hFails.symm.trans hOk
    case first_failure =>
      intro _
      exact ⟨hFails, _, _, rfl, hShown views⟩

/-- Only the storage fails for an account whose texts stand for it. -/
theorem status_of_error {query : AccountQuery} {address : Address} {asset : Identifier}
    (hQuery : query.StandsFor address asset) {error : ServerError}
    (hError : service.balance query.address query.asset = .error error) : error.status = 500 := by
  rw [balance_eq, parseAccount_eq_ok hQuery] at hError
  change (ofStorage (Balance.read service.reader address asset)).map _ = .error error at hError
  cases hRead : Balance.read service.reader address asset with
  | error failure =>
      rw [hRead] at hError
      cases hError
      rfl
  | ok found =>
      rw [hRead] at hError
      cases hError

/-- A batch is answered as its single requests are. Above the limit it is refused for its size.
Within the limit the first text that is no identifier is reported, the address of an account
before its asset; no reply matters there. Where all texts are identifiers and the reader replies
to each key by itself, the response shows what the single requests for its accounts show, in
their order, or it is the first of their responses that fails. -/
theorem batch_answers_as_singles (service : Service) {post : Request} {batch : BalanceBatch}
    (hMethod : post.method = "POST")
    (hParts : (Target.parse post.target).parts? = some ["v1", "balances"])
    (hBatch : batchOf post = .ok batch) :
    let response := service.respond post
    (service.maxBatchKeys < batch.accounts.length →
      response.Reports 400 ("batch of " ++ toString batch.accounts.length ++
        " keys exceeds the limit of " ++ toString service.maxBatchKeys)) ∧
    (batch.accounts.length ≤ service.maxBatchKeys →
      (∀ earlier query later, batch.accounts = earlier ++ query :: later →
        (∀ other ∈ earlier, ∃ address asset, other.StandsFor address asset) →
        response.Requires 33 "address" query.address fun _ =>
          response.Requires 32 "asset" query.asset fun _ => True) ∧
      ((∀ query ∈ batch.accounts, ∃ address asset, query.StandsFor address asset) →
        (∀ query ∈ batch.accounts, ∃ request : Request, request.AsksFor query) ∧
        ∀ (reply : Bytes → Reply) (get : AccountQuery → Request),
          service.reader = (fun keys => keys.map reply) →
          (∀ query ∈ batch.accounts, (get query).AsksFor query) →
          response.Joins (batch.accounts.map fun query => service.respond (get query)))) := by
  have hResponse : service.respond post = .ofAnswer ((service.balances batch).map fun views =>
      .json (.list (views.map JsonFormat.toJson))) := by
    have hQuery : queryOf post (Target.parse post.target) .balances = .ok (.balances batch) := by
      rw [queryOf, hBatch]
      rfl
    have hAllows : Route.balances.allows post.method = true := by
      rw [hMethod]
      rfl
    rw [service.respond_of_route (by simp [hMethod]) hParts rfl hAllows hQuery, answer]
  dsimp only
  refine ⟨fun hSize => ?_, fun hSize => ⟨?_, fun hQueries => ⟨?_, ?_⟩⟩⟩
  · rw [hResponse, balances, if_pos hSize]
    exact Response.reports_ofAnswer (.batchTooLarge _ _)
  · intro earlier query later hAccounts hEarlier
    obtain ⟨founds, hFounds⟩ := exists_accounts hEarlier
    have hRefused {field reason : String}
        (hError : parseAccount query = .error (.badRequest field reason)) :
        (service.respond post).Reports 400 ("invalid " ++ field ++ ": " ++ reason) := by
      rw [hResponse, balances, if_neg (by omega), hAccounts, mapM_eq_error hFounds hError]
      exact Response.reports_ofAnswer (.badRequest field reason)
    refine ⟨fun error hAddress => hRefused ?_, fun address hAddress =>
      ⟨fun error hAsset => hRefused ?_, fun _ _ => trivial⟩⟩
    · rw [parseAccount, parseAddress, parseFixed_eq_error hAddress]
      rfl
    · rw [parseAccount, parseAddress, parseIdentifier, parseFixed_eq_ok hAddress,
        parseFixed_eq_error hAsset]
      rfl
  · intro query hMem
    obtain ⟨address, asset, hQuery⟩ := hQueries query hMem
    exact Request.exists_asksFor hQuery.asset_ne
  · intro reply get hReader hGet
    have hSingles : (batch.accounts.map fun query => service.respond (get query)) =
        batch.accounts.map fun query =>
          .ofAnswer (shown (service.balance query.address query.asset)) :=
      List.map_congr_left fun query hMem => respond_single (hGet query hMem)
    rw [hResponse, balances_eq_mapM hSize hQueries hReader, hSingles]
    apply joins_of_mapM
    intro query hMem error hError
    obtain ⟨address, asset, hQuery⟩ := hQueries query hMem
    exact status_of_error hQuery hError

/-- Of three accounts the first has seven, and for the others the reader fails, each time in
another way. The batch of them is answered as the second one is, and where two are allowed it is
too large. -/
theorem batch_fails_as_second_account :
    let asset := Identifier.native
    let alice : Address := .ofParts 0 asset
    let bob : Address := .ofParts 1 asset
    let carol : Address := .ofParts 2 asset
    let reply (key : Bytes) : Reply :=
      if key = Balance.key alice asset then .ok (some [0, 0, 0, 0, 0, 0, 0, 7])
      else if key = Balance.key bob asset then .error .poisoned
      else .error (.backend "offline")
    let service (maxBatchKeys : Nat) : Service := ⟨fun keys => keys.map reply, maxBatchKeys⟩
    let query (address : Address) : AccountQuery := ⟨address.toHex, asset.toHex⟩
    let get (query : AccountQuery) : Request :=
      ⟨"GET", pathOf ["v1", "balances", query.address, query.asset], none, []⟩
    let batch : BalanceBatch := ⟨[query alice, query bob, query carol]⟩
    let post : Request := ⟨"POST", pathOf ["v1", "balances"], some "application/json",
      Utf8.encode (JsonFormat.write batch)⟩
    ((service 2).respond post).Reports 400 "batch of 3 keys exceeds the limit of 2" ∧
    ((service 3).respond post).Joins
      (batch.accounts.map fun query => (service 3).respond (get query)) ∧
    ((service 3).respond (get (query alice))).Carries 200
      (JsonFormat.toJson (⟨alice, asset, 7⟩ : BalanceView)) ∧
    (service 3).respond post = (service 3).respond (get (query bob)) ∧
    ((service 3).respond post).Reports 500 "storage error: state error: state lock poisoned" := by
  intro asset alice bob carol reply service query get batch post
  have hSize : (Utf8.encode (JsonFormat.write batch)).length ≤ bodyLimit := by
    rw [Utf8.encode, JsonFormat.write, Json.compact, String.toList_ofList]
    decide +kernel
  have hBatch : batchOf post = .ok batch := batchOf_write hSize
  have hPost : (Target.parse post.target).parts? = some ["v1", "balances"] :=
    parts?_parse_pathOf (by simp [IsPart])
  have hQuery (address : Address) : (query address).StandsFor address asset :=
    ⟨Fixed.ofHex_trim_toHex address, Fixed.ofHex_trim_toHex asset⟩
  have hAsks (address : Address) : (get (query address)).AsksFor (query address) :=
    Request.asksFor_pathOf (Spells.of_toHex address).isPart (Spells.of_toHex asset).isPart
      (hQuery address).asset_ne (parameter_toHex address) (parameter_toHex asset)
  have hSingle (address : Address) : (service 3).respond (get (query address)) =
      .ofAnswer (shown ((service 3).balanceOf (address, asset))) := by
    rw [respond_single (hAsks address), balance_eq, parseAccount_eq_ok (hQuery address)]
    rfl
  have hAlice : ((service 3).respond (get (query alice))).Carries 200
      (JsonFormat.toJson (⟨alice, asset, 7⟩ : BalanceView)) := by
    rw [hSingle]
    exact Response.carries_ofAnswer _
  have hBob : ((service 3).respond (get (query bob))).Reports 500
      "storage error: state error: state lock poisoned" := by
    rw [hSingle]
    exact Response.reports_ofAnswer (.storage (.state .poisoned))
  obtain ⟨hTooMany, -⟩ := batch_answers_as_singles (service 2) rfl hPost hBatch
  obtain ⟨-, hWithin⟩ := batch_answers_as_singles (service 3) rfl hPost hBatch
  obtain ⟨-, hSingles⟩ := hWithin (by decide)
  obtain ⟨-, hJoins⟩ := hSingles (by simpa [batch] using ⟨⟨_, _, hQuery alice⟩, ⟨_, _, hQuery bob⟩,
    ⟨_, _, hQuery carol⟩⟩)
  have hJoined := hJoins reply get rfl (by simp [batch, hAsks])
  have hSplit : ((service 3).respond post).Joins ([(service 3).respond (get (query alice))] ++
      (service 3).respond (get (query bob)) :: [(service 3).respond (get (query carol))]) := hJoined
  have hSecond : (service 3).respond post = (service 3).respond (get (query bob)) := by
    apply hSplit.eq_first_failure
    · simpa using hAlice.status_eq
    · rw [hBob.status_eq]
      decide
  have hMessage : "batch of " ++ toString 3 ++ " keys exceeds the limit of " ++ toString 2 =
      "batch of 3 keys exceeds the limit of 2" := by decide
  refine ⟨?_, hJoined, hAlice, hSecond, ?_⟩
  · rw [← hMessage]
    exact hTooMany (by decide)
  · rw [hSecond]
    exact hBob

end Service

end DeviceLedger
