import DeviceLedger.Proofs.JsonShapes
import DeviceLedger.Proofs.KeyCommand
import DeviceLedger.Proofs.Reordering
import DeviceLedger.Proofs.Requests

/-! The record that an operation reads or writes is where the tools say that it is. An operation
makes all its calls at the key of its target; the command line prints that key, and a client builds
it from what the service announces about the kind. -/

namespace DeviceLedger

open DeviceLedger.Action

/-- Every call of an action on one record is made at its key. -/
theorem Action.Edits.exists_calls {α : Type} {key : Bytes} {Writable : Bytes → Prop}
    {action : Action α} (hEdits : Edits key Writable action) (view : View) :
    ∃ made, (action view).2.calls = made ++ view.calls ∧ ∀ call ∈ made, call.key = key := by
  induction hEdits generalizing view with
  | result result => exact ⟨[], rfl, by simp⟩
  | get next hNext ih =>
      rw [get_bind_apply]
      cases view.nextFailure .get with
      | some failure => exact ⟨[_], rfl, by simp⟩
      | none =>
          obtain ⟨made, hCalls, hKeys⟩ := ih view.store[key]? (view.record .get key)
          refine ⟨made ++ [⟨.get, key, view.nextFailure .get⟩], ?_, ?_⟩
          · rw [List.append_assoc]
            exact hCalls
          · intro call hCall
            rcases List.mem_append.mp hCall with hMade | hFirst
            · exact hKeys call hMade
            · rw [List.mem_singleton.mp hFirst]
  | insert value found hValue =>
      rw [insert_bind_pure_apply]
      cases view.nextFailure .insert <;> exact ⟨[_], rfl, by simp⟩
  | remove found =>
      rw [remove_bind_pure_apply]
      cases view.nextFailure .remove <;> exact ⟨[_], rfl, by simp⟩

namespace Operation

/-- The operations that read. -/
def IsRead : Operation → Prop
  | balanceGet _ _ | balanceAmount _ _ | loanGet _ _ | assetGet _ | orderGet _ | transactionGet _
  | projectGet _ | updateGet _ | counterGet _ => True
  | _ => False

theorem reads_of_isRead {operation : Operation} (hRead : operation.IsRead) :
    Reads operation.target.key operation.run := by
  cases operation with
  | balanceGet address held => exact (Reads.getDecoded Balance.decode).map _
  | balanceAmount address held => exact ((Reads.getDecoded Balance.decode).map _).map _
  | loanGet lent destination => exact (reads_loanGet lent destination).map _
  | assetGet id => exact (Reads.getDecoded AssetRecord.decode).map _
  | orderGet id => exact (Reads.getDecoded OrderRecord.decode).map _
  | transactionGet id => exact (Reads.getDecoded TransactionRecord.decode).map _
  | projectGet id => exact (Reads.getDecoded ProjectRecord.decode).map _
  | updateGet id => exact (Reads.getDecoded UpdateRecord.decode).map _
  | counterGet counter => exact (Reads.getDecoded counter.decode).map _
  | _ => exact hRead.elim

end Operation

namespace Json

/-- The member of an object under a name. -/
def member? (name : String) : Json → Option Json
  | object members => members.lookup name
  | _ => none

/-- In an object whose members stand in the order of their names each is found under its name. -/
theorem member?_sortedObject {members : List (String × Json)}
    (hNames : (members.map Prod.fst).Nodup) {name : String} {value : Json}
    (hMember : (name, value) ∈ members) : (sortedObject members).member? name = some value := by
  have hPerm := List.mergeSort_perm members fun first second => decide (¬ second.1 < first.1)
  exact Read.lookup_of_mem ((hPerm.map Prod.fst).nodup_iff.mpr hNames) (hPerm.mem_iff.mpr hMember)

end Json

namespace Service

/-- What a client reads of the entry of a kind. -/
structure KindEntry where
  tag : Nat
  chunks : Option Nat
  keyLength : Nat

/-- An entry as a client reads it, by the names of its members. -/
def KindEntry.ofJson? (entry : Json) : Option KindEntry := do
  let tag ← (← entry.member? "prefix").nat?
  let chunks ← entry.member? "chunks"
  let keyLength ← (← entry.member? "key_len").nat?
  return ⟨tag, chunks.nat?, keyLength⟩

/-- The entry of the kind with a name, among those that are announced. -/
def announced? (info : Json) (name : String) : Option KindEntry := do
  let entries ← (← info.member? "entities").list?
  let entry ← entries.find? fun entry => (entry.member? "name").bind Json.text? == some name
  KindEntry.ofJson? entry

/-- The key that a client builds: the first byte, the bytes of the identifiers in order and, where
there is a number of chunks, its high and its low byte. -/
def KindEntry.keyOf (entry : KindEntry) (identifiers : List Bytes) : Bytes :=
  UInt8.ofNat entry.tag :: (identifiers.flatten ++
    (entry.chunks.map fun chunks => [UInt8.ofNat (chunks / 256), UInt8.ofNat chunks]).getD [])

/-- An entry has the members that describe its kind. -/
theorem describeKind_members (kind : EntityKind) :
    (describeKind kind).member? "name" = some (.text kind.name) ∧
    KindEntry.ofJson? (describeKind kind) =
      some ⟨kind.tag.toNat, kind.chunks.map UInt16.toNat, kind.keyLength⟩ := by
  have hMember {name : String} {value : Json} (hMember : (name, value) ∈ [
      ("name", .text kind.name),
      ("prefix", .nat kind.tag.toNat),
      ("chunks", (kind.chunks.map fun chunks => Json.nat chunks.toNat).getD .null),
      ("key_len", .nat kind.keyLength)]) : (describeKind kind).member? name = some value :=
    Json.member?_sortedObject (by simp) hMember
  have hName := hMember (.head _)
  have hTag := hMember (.tail _ (.head _))
  have hChunks := hMember (.tail _ (.tail _ (.head _)))
  have hLength := hMember (.tail _ (.tail _ (.tail _ (.head _))))
  refine ⟨hName, ?_⟩
  rw [KindEntry.ofJson?, hTag, hChunks, hLength]
  cases kind.chunks <;> rfl

/-- Every kind is announced once, with its first byte, its chunks and the length of its keys. -/
theorem announced?_info (service : Service) (kind : EntityKind) :
    announced? service.info kind.name =
      some ⟨kind.tag.toNat, kind.chunks.map UInt16.toNat, kind.keyLength⟩ := by
  have hEntities : service.info.member? "entities" =
      some (.list (EntityKind.all.map describeKind)) :=
    Json.member?_sortedObject (by simp) (by simp)
  have hNamed : ((fun entry : Json =>
      (entry.member? "name").bind Json.text? == some kind.name) ∘ describeKind) =
        fun other => other.name == kind.name := by
    funext other
    simp only [Function.comp_apply, (describeKind_members other).1]
    rfl
  have hKind : EntityKind.all.find? (fun other => other.name == kind.name) = some kind := by
    cases kind <;> rfl
  have hEntry : (EntityKind.all.map describeKind).find?
      (fun entry => (entry.member? "name").bind Json.text? == some kind.name) =
        some (describeKind kind) := by
    rw [List.find?_map, hNamed, hKind]
    rfl
  rw [announced?, hEntities]
  change ((EntityKind.all.map describeKind).find? _).bind _ = _
  rw [hEntry]
  exact (describeKind_members kind).2

/-- What a client builds from the entry of a kind is the key of the entity. -/
theorem keyOf_announced (entity : Entity) :
    KindEntry.keyOf ⟨entity.kind.tag.toNat, entity.kind.chunks.map UInt16.toNat,
      entity.kind.keyLength⟩ entity.parts = entity.key := by
  have hChunks : (entity.kind.chunks.map UInt16.toNat).map
      (fun chunks => [UInt8.ofNat (chunks / 256), UInt8.ofNat chunks]) =
        entity.kind.chunks.map Bytes.ofUInt16 := by
    rw [Option.map_map]
    rfl
  rw [KindEntry.keyOf, hChunks, UInt8.ofNat_toNat, entity.key_eq_assembleKey]
  rfl

/-- The announcement is answered to every request for it. -/
theorem respond_info (service : Service) (contentType : Option String) (body : Bytes) :
    (service.respond ⟨"GET", "/v1/info", contentType, body⟩).Carries 200 service.info := by
  have hParts : ∀ part ∈ ["v1", "info"], Http.IsPart part := by simp [Http.IsPart]
  have hTarget : "/v1/info" = Http.pathOf ["v1", "info"] := by decide
  rw [hTarget, service.respond_of_gets (Http.Request.gets_pathOf hParts contentType body) rfl
    nofun rfl]
  exact Http.Response.carries_ofAnswer service.info

end Service

/-- The key at which an operation works is the one that the tools announce, whatever the store holds
and whichever calls fail. Every other key keeps its value or its absence, all calls are made at that
key, and an operation that reads leaves the whole store as it was. A question about one record is
answered from the reply to that key. For the identifiers of the same entity, however they are
written, the command line prints the key in hexadecimal, in either format; and from the entry of the
kind that the service announces a client builds it, and knows its length. -/
theorem operations_touch_announced_key :
    (∀ (operation : Operation) (view : View),
      let after := (operation.run view).2
      (∀ key, key ≠ operation.target.key → after.store[key]? = view.store[key]?) ∧
      (∃ made, after.calls = made ++ view.calls ∧
        ∀ call ∈ made, call.key = operation.target.key) ∧
      (operation.IsRead → after.store = view.store)) ∧
    (∀ (lookup : Lookup) (entity : Entity), lookup.target? = some entity →
      ∀ reader other : Reader, reader [entity.key] = other [entity.key] →
        lookup.run reader = lookup.run other) ∧
    (∀ (entity : Entity) (written : List String) (host : Host),
      CommandLine.Writes written entity →
      (∃ note, CommandLine.run host ("key" :: entity.kind.name :: written) =
        .success (entity.kind.name ++ ": " ++ Hex.encode entity.key ++ "\n  " ++ note)) ∧
      ∃ shown : Json, CommandLine.run host
          ("--format" :: "json" :: "key" :: entity.kind.name :: written) =
          .success (shown.pretty ++ "\n") ∧
        shown.member? "key" = some (.text (Hex.encode entity.key))) ∧
    (∀ (entity : Entity) (service : Service) (contentType : Option String) (body : Bytes),
      (service.respond ⟨"GET", "/v1/info", contentType, body⟩).Carries 200 service.info ∧
      ∃ entry, Service.announced? service.info entity.kind.name = some entry ∧
        entry.keyOf entity.parts = entity.key ∧ entry.keyLength = entity.key.length) := by
  refine ⟨?_, ?_, ?_, ?_⟩
  · intro operation view after
    refine ⟨fun key hKey => operation.edits.getElem?_of_ne hKey.symm view,
      operation.edits.exists_calls view, fun hRead => ?_⟩
    exact (Operation.reads_of_isRead hRead).store_eq view
  · intro lookup entity hTarget reader other hReplies
    apply Lookup.run_congr hTarget
    rw [Reader.one, Reader.one, hReplies]
  · intro entity written host hWritten
    obtain ⟨note, hLines⟩ := CommandLine.exists_keyLines_eq entity
    refine ⟨⟨note, ?_⟩, _, hWritten.run_json host, ?_⟩
    · rw [hWritten.run_text, hLines]
    · exact Json.member?_sortedObject (by simp) (by simp)
  · intro entity service contentType body
    exact ⟨service.respond_info contentType body, _, service.announced?_info entity.kind,
      Service.keyOf_announced entity, entity.length_key.symm⟩

/-- A balance is written at the key that is printed for its address and its asset. -/
theorem balance_written_where_printed :
    let address : Address := .ofParts 1 Identifier.native
    let operation : Operation := .balanceSet address Identifier.native 7
    let view : View := ⟨Store.put ∅ [9] (some [2]), Schedule.faultless, []⟩
    let host : Host := ⟨fun _ => .error .notFound, fun _ => .ok ()⟩
    (operation.run view).2.store[([9] : Bytes)]? = some [2] ∧
    ∃ note, CommandLine.run host
        ["key", "balance", Hex.encode address.bytes, Hex.encode Identifier.native.bytes] =
      .success ("balance: " ++ Hex.encode operation.target.key ++ "\n  " ++ note) := by
  intro address operation view host
  obtain ⟨hOperations, -, hPrinted, -⟩ := operations_touch_announced_key
  constructor
  · rw [(hOperations operation view).1 [9] (by decide)]
    exact Store.getElem?_put_self _ _ _
  · exact (hPrinted operation.target _ host (CommandLine.writes_encode _)).1

end DeviceLedger
