import DeviceLedger.Genesis
import DeviceLedger.Server.View
import DeviceLedger.Proofs.JsonShapes

/-! Every type that has a JSON form is read back from it: the reader of its shape finds what was
shown, and the same value is made of what was found. -/

namespace DeviceLedger

open Json Json.Read

/-- A format whose reader finds what is shown, of which the same value is made. -/
class LawfulJsonFormat (α : Type) [JsonFormat α] : Prop where
  finds_toJson : ∀ value : α, (JsonFormat.read α).Finds (JsonFormat.toJson value)
  ofJson_toJson : ∀ value : α, JsonFormat.ofJson (JsonFormat.toJson value) = some value

open LawfulJsonFormat (finds_toJson ofJson_toJson)

namespace Json

/-! ### Numbers, bytes and lists -/

namespace Read

theorem finds_u64 (word : UInt64) : u64.Finds (.nat word.toNat) := by
  have hWord := word.toNat_lt
  exact finds_integer (by omega) (by omega) hWord

theorem finds_u8 (byte : UInt8) : u8.Finds (.nat byte.toNat) := by
  have hByte := byte.toNat_lt
  exact finds_integer (by omega) (by omega) (Nat.lt_trans hByte (by decide))

theorem finds_i64 (word : Int64) : i64.Finds (.number word.toInt) := by
  have hLow := word.le_toInt
  have hHigh := word.toInt_lt
  refine finds_integer (by omega) (by omega) ?_
  change word.toInt.natAbs < 18446744073709551616
  omega

theorem finds_bytes (bytes : Bytes) : (list u8).Finds (.bytes bytes) :=
  finds_list (List.forall_mem_map.mpr fun byte _ => finds_u8 byte)

/-- A list of values of one format. -/
theorem finds_values {α : Type} [JsonFormat α] [LawfulJsonFormat α] (values : List α) :
    (list (JsonFormat.read α)).Finds (.list (values.map JsonFormat.toJson)) :=
  finds_list (List.forall_mem_map.mpr fun value _ => finds_toJson value)

/-- A field and the value under its name are added in front of others. -/
theorem FindMembers.add {field : Field} {value : Json} (hValue : field.read.Finds value)
    {fields : List Field} {members : List (String × Json)}
    (hFields : FindMembers fields members) :
    FindMembers (field :: fields) ((field.name, value) :: members) :=
  .cons ⟨rfl, hValue⟩ hFields

theorem FindMembers.empty : FindMembers [] [] := .nil

end Read

/-- What is shown of each value of a list is turned back into the list. -/
theorem mapM_map_of_inverse {α : Type} {form : α → Json} {back : Json → Option α}
    (hBack : ∀ value, back (form value) = some value) (values : List α) :
    (values.map form).mapM back = some values := by
  have hInverse : back ∘ form = fun value => pure value := funext hBack
  rw [List.mapM_map, hInverse, List.mapM_pure, List.map_id']
  rfl

@[simp] theorem text?_text (value : String) : (text value).text? = some value := rfl

@[simp] theorem flag?_flag (value : Bool) : (flag value).flag? = some value := rfl

@[simp] theorem integer?_number (value : Int) : (number value).integer? = some value := rfl

@[simp] theorem u64?_nat (word : UInt64) : (nat word.toNat).u64? = some word :=
  congrArg some (UInt64.ofNat_toNat)

@[simp] theorem u8?_nat (byte : UInt8) : (nat byte.toNat).u8? = some byte :=
  congrArg some (UInt8.ofNat_toNat)

@[simp] theorem bytes?_bytes (value : Bytes) : (bytes value).bytes? = some value :=
  mapM_map_of_inverse u8?_nat value

@[simp] theorem mapM_ofJson {α : Type} [JsonFormat α] [LawfulJsonFormat α] (values : List α) :
    (values.map JsonFormat.toJson).mapM JsonFormat.ofJson = some values :=
  mapM_map_of_inverse ofJson_toJson values

@[simp] theorem ofJson?_toHex {width : Nat} (fixed : Fixed width) :
    Fixed.ofJson? (text fixed.toHex) = some fixed := by
  simp [Fixed.ofJson?, Fixed.ofHex_toHex]

end Json

/-! ### The formats -/

instance (width : Nat) : LawfulJsonFormat (Fixed width) where
  finds_toJson fixed := finds_text fixed.toHex
  ofJson_toJson fixed := ofJson?_toHex fixed

@[simp] theorem Units.ofJson?_words (units : Units) :
    Units.ofJson? (.list (units.toList.map fun word => Json.nat word.toNat)) = some units := by
  have hWords : (units.toList.map fun word => Json.nat word.toNat).mapM Json.u64? =
      some units.toList := mapM_map_of_inverse u64?_nat units.toList
  have hUnits : (⟨units.toList.toArray, by simp⟩ : Units) = units := rfl
  simp [Units.ofJson?, Json.list?, hWords, hUnits]

instance : LawfulJsonFormat Units where
  finds_toJson units := by
    have hWords : ∀ value ∈ units.toList.map fun word => Json.nat word.toNat, u64.Finds value :=
      List.forall_mem_map.mpr fun word _ => finds_u64 word
    have hRow := finds_row hWords
    rwa [List.length_map, Vector.length_toList] at hRow
  ofJson_toJson units := Units.ofJson?_words units

instance : LawfulJsonFormat TransactionRecord where
  finds_toJson record := FindMembers.finds_record
    (.add (finds_i64 record.timestamp) <| .add (finds_flag record.success) <|
      .add (finds_toJson record.units) <| .add (finds_u64 record.fee) .empty)
    (by simp [TransactionRecord.members])
  ofJson_toJson record := by simp [JsonFormat.ofJson, JsonFormat.toJson, TransactionRecord.members]

instance : LawfulJsonFormat AssetRecord where
  finds_toJson record := FindMembers.finds_record
    (.add (finds_bytes record.symbol) <| .add (finds_u8 record.decimals) <|
      .add (finds_bytes record.metadata) <| .add (finds_u64 record.supply) <|
      .add (finds_toJson record.owner) <| .add (finds_flag record.warp) .empty)
    (by simp)
  ofJson_toJson record := by simp [JsonFormat.ofJson, JsonFormat.toJson]

namespace OrderRecord

theorem findMembers_members (record : OrderRecord) : FindMembers fields record.members :=
  .add (finds_toJson record.input) <| .add (finds_u64 record.inTick) <|
    .add (finds_toJson record.output) <| .add (finds_u64 record.outTick) <|
    .add (finds_u64 record.remaining) <| .add (finds_toJson record.owner) .empty

@[simp] theorem ofMembers?_members (record : OrderRecord) :
    ofMembers? record.members = some record := by
  simp [ofMembers?, members, JsonFormat.toJson]

end OrderRecord

instance : LawfulJsonFormat OrderRecord where
  finds_toJson record := record.findMembers_members.finds_record (by simp [OrderRecord.members])
  ofJson_toJson record := record.ofMembers?_members

/-- An order's members stand beside an identifier, whose name is none of theirs. -/
instance : LawfulJsonFormat OrderView where
  finds_toJson view := FindMembers.finds_merged
    (.add (finds_toJson view.id) view.order.findMembers_members)
    (by simp [OrderRecord.members])
  ofJson_toJson view := by simp [JsonFormat.ofJson, JsonFormat.toJson]

instance : LawfulJsonFormat OverwritePolicy where
  finds_toJson policy := finds_choice (by cases policy <;> simp [OverwritePolicy.name])
  ofJson_toJson policy := by cases policy <;> rfl

/-- The policy stands in the settings although it may be left out. -/
instance : LawfulJsonFormat StorageSettings where
  finds_toJson settings :=
    FindMembers.finds_record (.add (finds_toJson settings.overwrite) .empty) (by simp)
  ofJson_toJson settings := by
    obtain ⟨policy⟩ := settings
    cases policy <;> rfl

instance : LawfulJsonFormat Counter where
  finds_toJson counter := finds_choice (by cases counter <;> simp [Counter.name])
  ofJson_toJson counter := by cases counter <;> rfl

instance : LawfulJsonFormat Allocation where
  finds_toJson allocation := FindMembers.finds_record
    (.add (finds_toJson allocation.address) <| .add (finds_u64 allocation.balance) .empty)
    (by simp)
  ofJson_toJson allocation := by simp [JsonFormat.ofJson, JsonFormat.toJson]

/-- The allocations stand in a genesis although they may be left out. -/
instance : LawfulJsonFormat Genesis where
  finds_toJson genesis :=
    FindMembers.finds_record (.add (finds_values genesis.allocations) .empty) (by simp)
  ofJson_toJson genesis := by
    change ((genesis.allocations.map JsonFormat.toJson).mapM JsonFormat.ofJson).bind
      (fun allocations => some (Genesis.mk allocations)) = _
    rw [mapM_ofJson]
    rfl

instance : LawfulJsonFormat ProjectView where
  finds_toJson view := FindMembers.finds_record
    (.add (finds_toJson view.id) <| .add (finds_text view.name) <|
      .add (finds_text view.description) <| .add (finds_text view.owner) <|
      .add (finds_text view.logo) .empty)
    (by simp)
  ofJson_toJson view := by simp [JsonFormat.ofJson, JsonFormat.toJson]

instance : LawfulJsonFormat UpdateView where
  finds_toJson view := FindMembers.finds_record
    (.add (finds_toJson view.id) <| .add (finds_text view.projectId) <|
      .add (finds_text view.executableHash) <| .add (finds_text view.ipfsUrl) <|
      .add (finds_text view.deviceName) <| .add (finds_u8 view.version) <|
      .add (finds_u8 view.successCount) .empty)
    (by simp)
  ofJson_toJson view := by simp [JsonFormat.ofJson, JsonFormat.toJson]

instance : LawfulJsonFormat BalanceView where
  finds_toJson view := FindMembers.finds_record
    (.add (finds_toJson view.address) <| .add (finds_toJson view.asset) <|
      .add (finds_u64 view.balance) .empty)
    (by simp)
  ofJson_toJson view := by simp [JsonFormat.ofJson, JsonFormat.toJson]

instance : LawfulJsonFormat AssetView where
  finds_toJson view := FindMembers.finds_record
    (.add (finds_toJson view.id) <| .add (finds_text view.symbol) <|
      .add (finds_u8 view.decimals) <| .add (finds_text view.metadata) <|
      .add (finds_u64 view.supply) <| .add (finds_toJson view.owner) <|
      .add (finds_flag view.warp) .empty)
    (by simp)
  ofJson_toJson view := by simp [JsonFormat.ofJson, JsonFormat.toJson]

instance : LawfulJsonFormat LoanView where
  finds_toJson view := FindMembers.finds_record
    (.add (finds_toJson view.asset) <| .add (finds_toJson view.destination) <|
      .add (finds_u64 view.amount) .empty)
    (by simp)
  ofJson_toJson view := by simp [JsonFormat.ofJson, JsonFormat.toJson]

instance : LawfulJsonFormat AccountQuery where
  finds_toJson query := FindMembers.finds_record
    (.add (finds_text query.address) <| .add (finds_text query.asset) .empty)
    (by simp)
  ofJson_toJson query := by simp [JsonFormat.ofJson, JsonFormat.toJson]

instance : LawfulJsonFormat BalanceBatch where
  finds_toJson batch :=
    FindMembers.finds_record (.add (finds_values batch.accounts) .empty) (by simp)
  ofJson_toJson batch := by
    change ((batch.accounts.map JsonFormat.toJson).mapM JsonFormat.ofJson).bind
      (fun accounts => some (BalanceBatch.mk accounts)) = _
    rw [mapM_ofJson]
    rfl

namespace JsonFormat

/-- The text of every value is read as that value. Hence whatever text a value was read from, the
text that is written of it is read as the same value, of which the same text is written again. -/
structure Faithful (α : Type) [JsonFormat α] : Prop where
  parse_write : ∀ value : α, parse α (Utf8.encode (write value)) = .ok value
  canonical : ∀ (source : Bytes) (value : α), parse α source = .ok value →
    parse α (Utf8.encode (write value)) = .ok value ∧
      (parse α (Utf8.encode (write value))).map write = .ok (write value)

theorem faithful (α : Type) [JsonFormat α] [LawfulJsonFormat α] : Faithful α := by
  have hParse (value : α) : parse α (Utf8.encode (write value)) = .ok value := by
    rw [parse, write, (finds_toJson value).whole_eq, finish, ofJson_toJson]
    rfl
  refine ⟨hParse, fun source value hSource => ⟨hParse value, ?_⟩⟩
  rw [hParse, Except.map]

/-- What is written is also found where more may follow. -/
theorem parseAtStart_write {α : Type} [JsonFormat α] [LawfulJsonFormat α] (value : α) :
    parseAtStart α (Utf8.encode (write value)) = .ok value := by
  rw [parseAtStart, write, (finds_toJson value).atStart_eq, finish, ofJson_toJson]
  rfl

/-- Every type that is written as JSON is read back whole. -/
theorem faithful_all :
    Faithful Identifier ∧ Faithful Address ∧ Faithful Units ∧ Faithful TransactionRecord ∧
      Faithful AssetRecord ∧ Faithful OrderRecord ∧ Faithful OverwritePolicy ∧
      Faithful StorageSettings ∧ Faithful Counter ∧ Faithful Allocation ∧ Faithful Genesis ∧
      Faithful ProjectView ∧ Faithful UpdateView ∧ Faithful BalanceView ∧ Faithful AssetView ∧
      Faithful OrderView ∧ Faithful LoanView ∧ Faithful BalanceBatch :=
  ⟨faithful _, faithful _, faithful _, faithful _, faithful _, faithful _, faithful _, faithful _,
    faithful _, faithful _, faithful _, faithful _, faithful _, faithful _, faithful _, faithful _,
    faithful _, faithful _⟩

/-- A policy that was written as an object is written again as its name. -/
example : (parse OverwritePolicy (Utf8.encode "\x7b\"reject\": null\x7d")).map write =
    .ok "\"reject\"" := by decide +kernel

end JsonFormat

end DeviceLedger
