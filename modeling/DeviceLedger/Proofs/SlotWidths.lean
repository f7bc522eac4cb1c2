import DeviceLedger.Proofs.DecodedBytes
import DeviceLedger.Proofs.Effects

/-! Records made of slots, in which nothing says how long a field is. A record is written with
its fields as they are and read by the widths of its slots. It comes back only if every field
has the width of its slot; if the lengths merely add up, another record comes back, in which
the same bytes are divided otherwise. Records that are built from texts or that were decoded
have the right widths. -/

namespace DeviceLedger

/-- How the records of a kind come back whose fields may have any length. `slots` are the
widths of the slots, `total` is their sum, and `behind` are the bytes that follow the fields. -/
structure ReadBySlots {α : Type} (decode : Bytes → Except StorageError α) (encode : α → Bytes)
    (fields : α → List Bytes) (behind : α → Bytes) (slots : List Nat) (total : Nat) : Prop where
  sum_slots : slots.sum = total
  accepts_iff : ∀ record, (∃ found, decode (encode record) = .ok found) ↔
    ((fields record).map List.length).sum = total
  same_iff : ∀ record, decode (encode record) = .ok record ↔
    (fields record).map List.length = slots
  decoded : ∀ value found, decode value = .ok found → (fields found).map List.length = slots
  shifted : ∀ record, ((fields record).map List.length).sum = total →
    (fields record).map List.length ≠ slots →
      ∃ found, decode (encode record) = .ok found ∧ found ≠ record ∧
        (fields found).flatten = (fields record).flatten ∧ behind found = behind record

/-- It suffices that a record is decoded from its own bytes only, if it fills its slots, and
that every value of the right length is a record. -/
theorem ReadBySlots.of_decode_iff {α : Type} {decode : Bytes → Except StorageError α}
    {encode : α → Bytes} {fields : α → List Bytes} {behind : α → Bytes} {slots : List Nat}
    {total more : Nat} (hTotal : slots.sum = total)
    (hEncode : ∀ record, encode record = (fields record).flatten ++ behind record)
    (hBehind : ∀ record, (behind record).length = more)
    (hDecode : ∀ value record, decode value = .ok record ↔
      (fields record).map List.length = slots ∧ value = encode record)
    (hAccepts : ∀ value, (∃ record, decode value = .ok record) ↔ value.length = total + more) :
    ReadBySlots decode encode fields behind slots total := by
  have hAcceptsIff : ∀ record, (∃ found, decode (encode record) = .ok found) ↔
      ((fields record).map List.length).sum = total := by
    intro record
    rw [hAccepts, hEncode, List.length_append, hBehind, List.length_flatten]
    omega
  have hSameIff : ∀ record, decode (encode record) = .ok record ↔
      (fields record).map List.length = slots := by
    intro record
    rw [hDecode, and_iff_left rfl]
  refine ⟨hTotal, hAcceptsIff, hSameIff, fun value found hFound => ((hDecode _ _).mp hFound).1, ?_⟩
  intro record hSum hWidths
  obtain ⟨found, hFound⟩ := (hAcceptsIff record).mpr hSum
  refine ⟨found, hFound, ?_, ?_⟩
  · rintro rfl
    exact hWidths ((hSameIff found).mp hFound)
  · -- both records are written as the same bytes, and equally many of them are behind the fields
    have hBytes : (fields found).flatten ++ behind found =
        (fields record).flatten ++ behind record := by
      rw [← hEncode, ← hEncode]
      exact ((hDecode _ _).mp hFound).2.symm
    exact List.append_inj' hBytes ((hBehind found).trans (hBehind record).symm)

namespace ProjectRecord

def fields (record : ProjectRecord) : List Bytes :=
  [record.name, record.description, record.owner, record.logo]

theorem fillsSlots_iff {record : ProjectRecord} :
    record.FillsSlots ↔ record.fields.map List.length = [32, 100, 500, 100] := by
  simp [FillsSlots, fields]

theorem readBySlots :
    ReadBySlots decode encode fields (fun _ => []) [32, 100, 500, 100] 732 := by
  refine .of_decode_iff rfl ?_ (fun _ => rfl) ?_ accepts_iff
  · intro record
    simp [encode_eq, fields]
  · intro value record
    rw [← fillsSlots_iff]
    exact decode_eq_ok_iff

end ProjectRecord

namespace UpdateRecord

def fields (record : UpdateRecord) : List Bytes :=
  [record.projectId, record.executableHash, record.ipfsUrl, record.deviceName]

theorem fillsSlots_iff {record : UpdateRecord} :
    record.FillsSlots ↔ record.fields.map List.length = [100, 100, 100, 100] := by
  simp [FillsSlots, fields]

theorem readBySlots :
    ReadBySlots decode encode fields (fun record => [record.version, record.successCount])
      [100, 100, 100, 100] 400 := by
  have hTwo : ∀ record : UpdateRecord, [record.version, record.successCount].length = 2 :=
    fun _ => rfl
  refine .of_decode_iff rfl ?_ hTwo ?_ accepts_iff
  · intro record
    simp [encode_eq, fields]
  · intro value record
    rw [← fillsSlots_iff]
    exact decode_eq_ok_iff

end UpdateRecord

/-- A write under a policy succeeds unless the policy forbids it, and the record is found
afterwards. -/
theorem OverwritePolicy.getDecoded_of_insert {α : Type} {decode : Bytes → Except StorageError α}
    {value : Bytes} {record : α} (hDecode : decode value = .ok record) (policy : OverwritePolicy)
    (key : Bytes) (entity : String) (store : Store) (calls : List Call) :
    let written := (policy.permit key entity >>= fun _ => Action.insert key value)
      ⟨store, Schedule.faultless, calls⟩
    (written.1 = .ok () ↔ policy = .allowCollision ∨ store[key]? = none) ∧
      (written.1 = .ok () → (Action.getDecoded decode key written.2).1 = .ok (some record)) := by
  intro written
  have hPermit := policy.yields_permit key entity store
  by_cases hRefused : policy = .reject ∧ store[key]?.isSome
  · rw [if_pos hRefused] at hPermit
    have hError : written.1 = .error (.alreadyExists entity key) :=
      (hPermit.bind_error (fun _ => Action.insert key value) _ rfl rfl).1
    obtain ⟨hPolicy, hPresent⟩ := hRefused
    rw [hError, hPolicy]
    simpa using Option.isSome_iff_ne_none.mp hPresent
  · rw [if_neg hRefused] at hPermit
    have hWrite : (policy.permit key entity >>= fun _ => Action.insert key value).Yields store
        (.ok ()) (store.put key (some value)) :=
      hPermit.bind (Action.yields_insert key value store)
    obtain ⟨hOk, hQuiet, hStore⟩ := hWrite ⟨store, Schedule.faultless, calls⟩ rfl rfl
    have hFound : Reply.decoded decode (.ok (store.put key (some value))[key]?) =
        .ok (some record) := by
      rw [Store.getElem?_put_self, Reply.decoded, hDecode]
      rfl
    refine ⟨iff_of_true hOk ?_, fun _ => (Action.yields_getDecoded_ok hFound _ hQuiet hStore).1⟩
    cases policy with
    | allowCollision => exact .inl rfl
    | reject => exact .inr (by simpa using hRefused)

/-- Records of projects and updates come back by the widths of their slots. A record with
fields of any lengths is decoded from its bytes if and only if the lengths add up to 732, or
to 400 in front of the two last bytes; it is itself what is decoded if and only if every field
has the width of its slot; and if the lengths only add up, another record is decoded in which
the fields are together the same bytes. Every record that is decoded has these widths, and so
has every record that is built from texts of any lengths, which is therefore found again once
it is written; it is written unless the policy keeps what is there. -/
theorem records_read_by_slots :
    ReadBySlots ProjectRecord.decode ProjectRecord.encode
      (fun record => [record.name, record.description, record.owner, record.logo]) (fun _ => [])
      [32, 100, 500, 100] 732 ∧
    (∀ (name description owner logo : Bytes) (policy : OverwritePolicy) (id : Identifier)
        (store : Store) (calls : List Call),
      let record := ProjectRecord.ofTexts name description owner logo
      let written := Project.set policy id record ⟨store, Schedule.faultless, calls⟩
      (record.name.length = 32 ∧ record.description.length = 100 ∧ record.owner.length = 500 ∧
        record.logo.length = 100) ∧
      (written.1 = .ok () ↔ policy = .allowCollision ∨ store[Project.key id]? = none) ∧
      (written.1 = .ok () → (Project.get id written.2).1 = .ok (some record))) ∧
    ReadBySlots UpdateRecord.decode UpdateRecord.encode
      (fun record => [record.projectId, record.executableHash, record.ipfsUrl, record.deviceName])
      (fun record => [record.version, record.successCount]) [100, 100, 100, 100] 400 ∧
    (∀ (projectId executableHash ipfsUrl deviceName : Bytes) (version successCount : UInt8)
        (policy : OverwritePolicy) (id : Identifier) (store : Store) (calls : List Call),
      let record := UpdateRecord.ofTexts projectId executableHash ipfsUrl deviceName version
        successCount
      let written := Update.set policy id record ⟨store, Schedule.faultless, calls⟩
      (record.projectId.length = 100 ∧ record.executableHash.length = 100 ∧
        record.ipfsUrl.length = 100 ∧ record.deviceName.length = 100) ∧
      (written.1 = .ok () ↔ policy = .allowCollision ∨ store[Update.key id]? = none) ∧
      (written.1 = .ok () → (Update.get id written.2).1 = .ok (some record))) := by
  refine ⟨ProjectRecord.readBySlots, ?_, UpdateRecord.readBySlots, ?_⟩
  · intro name description owner logo policy id store calls
    have hSlots := ProjectRecord.ofTexts_fillsSlots name description owner logo
    exact ⟨hSlots, OverwritePolicy.getDecoded_of_insert (ProjectRecord.decode_encode hSlots) policy
      (Project.key id) "project" store calls⟩
  · intro projectId executableHash ipfsUrl deviceName version successCount policy id store calls
    have hSlots := UpdateRecord.ofTexts_fillsSlots projectId executableHash ipfsUrl deviceName
      version successCount
    exact ⟨hSlots, OverwritePolicy.getDecoded_of_insert (UpdateRecord.decode_encode hSlots) policy
      (Update.key id) "update" store calls⟩

/-- A name that is one byte short takes its last byte from a description that is one byte
long. -/
example :
    (ProjectRecord.decode (ProjectRecord.encode ⟨List.replicate 31 1, List.replicate 101 2,
      List.replicate 500 3, List.replicate 100 4⟩)).map ProjectRecord.name =
        .ok (List.replicate 31 1 ++ [2]) := by
  decide +kernel

end DeviceLedger
