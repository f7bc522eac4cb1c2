import DeviceLedger.Store
import DeviceLedger.Proofs.HexText
import DeviceLedger.Proofs.KeySpace
import Mathlib.Data.List.Infix
import Mathlib.Data.Set.List
import Mathlib.Data.String.Basic

/-! The order of keys. All keys of a kind have the same first byte and the same end, and their
parts have the widths of the kind, so keys are compared as their identifiers are, one after the
other. The same holds of hexadecimal texts, which have two digits for each byte. In a store, which
keeps its keys in order, the keys that share the first identifier therefore stand together. -/

namespace DeviceLedger

section Lexicographic

variable {α β : Type} [Ord α] [Ord β]

theorem compare_cons (first second : α) (rest rest' : List α) :
    compare (first :: rest) (second :: rest') =
      (compare first second).then (compare rest rest') := by
  simp only [List.compare_eq_compareLex, List.compareLex_cons_cons]

/-- Of lists that begin with equally many members, these are compared first. -/
theorem compare_append {first second : List α} (hLength : first.length = second.length)
    (rest rest' : List α) :
    compare (first ++ rest) (second ++ rest') =
      (compare first second).then (compare rest rest') := by
  induction first generalizing second with
  | nil =>
      obtain rfl := List.length_eq_zero_iff.mp hLength.symm
      rfl
  | cons head first ih =>
      obtain ⟨head', second, rfl⟩ := List.exists_cons_of_length_eq_add_one hLength.symm
      rw [List.cons_append, List.cons_append, compare_cons, compare_cons,
        ih (Nat.succ.inj hLength), Ordering.then_assoc]

/-- Parts of the same lengths are compared one after the other, although nothing divides them. -/
theorem compare_flatten {first second : List (List α)}
    (hLengths : first.map List.length = second.map List.length) :
    compare first.flatten second.flatten = compare first second := by
  induction first generalizing second with
  | nil =>
      obtain rfl := List.map_eq_nil_iff.mp hLengths.symm
      rfl
  | cons part first ih =>
      obtain ⟨part', second, rfl, hPart, hRest⟩ := List.map_eq_cons_iff.mp hLengths.symm
      rw [List.flatten_cons, List.flatten_cons, compare_append hPart.symm, ih hRest.symm,
        compare_cons]

theorem compare_map {present : α → β}
    (hPresent : ∀ first second, compare (present first) (present second) = compare first second)
    (first second : List α) :
    compare (first.map present) (second.map present) = compare first second := by
  induction first generalizing second with
  | nil => cases second <;> rfl
  | cons head first ih =>
      cases second with
      | nil => rfl
      | cons head' second =>
          rw [List.map_cons, List.map_cons, compare_cons, compare_cons, hPresent, ih]

/-- A value that is not above another one and not below it is the same. -/
theorem eq_of_compare_then_lt [Std.TransOrd α] [Std.LawfulEqOrd α] {first second : α}
    {order order' : Ordering} (hUp : (compare first second).then order = .lt)
    (hDown : (compare second first).then order' = .lt) : first = second := by
  rw [Std.OrientedOrd.eq_swap] at hDown
  apply Std.LawfulEqOrd.eq_of_compare
  cases hOrder : compare first second with
  | lt =>
      rw [hOrder] at hDown
      cases hDown
  | eq => rfl
  | gt =>
      rw [hOrder] at hUp
      cases hUp

/-- The comparison of lists decides their order. -/
theorem compare_eq_lt_iff [LT α] [Std.LawfulLTOrd α] [Std.LawfulEqOrd α] {first second : List α} :
    compare first second = .lt ↔ first < second := by
  induction first generalizing second with
  | nil => cases second <;> simp
  | cons head first ih =>
      cases second with
      | nil => simp
      | cons head' second =>
          rw [compare_cons, Ordering.then_eq_lt, ih, List.cons_lt_cons_iff,
            Std.LawfulLTCmp.eq_lt_iff_lt, Std.compare_eq_iff_eq]

/-- Texts are compared character by character. -/
theorem compare_text (first second : String) :
    compare first second = compare first.toList second.toList := by
  have hLess (first second : String) :
      compare first second = .lt ↔ compare first.toList second.toList = .lt := by
    rw [Std.LawfulLTCmp.eq_lt_iff_lt, String.lt_iff_toList_lt, compare_eq_lt_iff]
  cases hOrder : compare first.toList second.toList with
  | lt => exact (hLess first second).mpr hOrder
  | eq =>
      obtain rfl := String.toList_inj.mp (Std.LawfulEqOrd.eq_of_compare hOrder)
      exact Std.compare_self
  | gt =>
      rw [Std.OrientedCmp.gt_iff_lt] at hOrder ⊢
      exact (hLess second first).mpr hOrder

end Lexicographic

namespace Entity

/-- Keys of one kind are compared as their identifiers are. -/
theorem compare_key {first second : Entity} (hKind : first.kind = second.kind) :
    compare first.key second.key = compare first.parts second.parts := by
  have hLengths : first.parts.map List.length = second.parts.map List.length := by
    rw [map_length_parts, map_length_parts, hKind]
  have hFlatten : first.parts.flatten.length = second.parts.flatten.length := by
    rw [List.length_flatten, List.length_flatten, hLengths]
  rw [key_eq, key_eq, hKind, compare_cons, compare_append hFlatten, compare_flatten hLengths,
    Std.compare_self, Std.compare_self, Ordering.eq_then, Ordering.then_eq]

/-- The balances of an address are those with its bytes in front. -/
theorem balance_sort (address : Address) :
    (fun entity => ∃ held, entity = Entity.balance address held) =
      fun entity => entity.kind = .balance ∧ entity.parts.head? = some address.bytes := by
  funext entity
  cases entity <;> simp [kind, parts, Fixed.ext_iff]

theorem loan_sort (lent : Identifier) :
    (fun entity => ∃ destination, entity = Entity.loan lent destination) =
      fun entity => entity.kind = .loan ∧ entity.parts.head? = some lent.bytes := by
  funext entity
  cases entity <;> simp [kind, parts, Fixed.ext_iff]

section Identifiers

variable {width width' : Nat} {first second : Entity} {id id' : Fixed width}
  {other other' : Fixed width'}

theorem compare_key_one (hKind : first.kind = second.kind) (hFirst : first.parts = [id.bytes])
    (hSecond : second.parts = [id'.bytes]) : compare first.key second.key = compare id id' := by
  rw [compare_key hKind, hFirst, hSecond, compare_cons, Std.compare_self, Ordering.then_eq]
  rfl

/-- The second identifier counts only if the first ones are the same. -/
theorem compare_key_two (hKind : first.kind = second.kind)
    (hFirst : first.parts = [id.bytes, other.bytes])
    (hSecond : second.parts = [id'.bytes, other'.bytes]) :
    compare first.key second.key = (compare id id').then (compare other other') := by
  rw [compare_key hKind, hFirst, hSecond, compare_cons, compare_cons, Std.compare_self,
    Ordering.then_eq]
  rfl

end Identifiers

end Entity

namespace Hex

theorem compare_digit {number number' : Nat} (hNumber : number < 16) (hNumber' : number' < 16) :
    compare (digit number) (digit number') = compare number number' := by
  have hTable : ∀ number < 16, ∀ number' < 16,
      compare (digit number) (digit number') = compare number number' := by
    decide
  exact hTable number hNumber number' hNumber'

/-- The high digits are compared first. -/
theorem compare_halves (number number' : Nat) :
    compare number number' =
      (compare (number / 16) (number' / 16)).then (compare (number % 16) (number' % 16)) := by
  rcases Nat.lt_trichotomy (number / 16) (number' / 16) with hHigh | hHigh | hHigh
  · rw [Nat.compare_eq_lt.mpr hHigh, Ordering.lt_then, Nat.compare_eq_lt]
    omega
  · rw [Nat.compare_eq_eq.mpr hHigh, Ordering.eq_then]
    rcases Nat.lt_trichotomy (number % 16) (number' % 16) with hLow | hLow | hLow
    · rw [Nat.compare_eq_lt.mpr hLow, Nat.compare_eq_lt]
      omega
    · rw [Nat.compare_eq_eq.mpr hLow, Nat.compare_eq_eq]
      omega
    · rw [Nat.compare_eq_gt.mpr hLow, Nat.compare_eq_gt]
      omega
  · rw [Nat.compare_eq_gt.mpr hHigh, Ordering.gt_then, Nat.compare_eq_gt]
    omega

theorem compare_encodeByte (byte byte' : UInt8) :
    compare (encodeByte byte) (encodeByte byte') = compare byte byte' := by
  have hByte := byte.toNat_lt
  have hByte' := byte'.toNat_lt
  rw [encodeByte, encodeByte, compare_cons, compare_cons, compare_digit (by omega) (by omega),
    compare_digit (by omega) (by omega), Std.compare_self, Ordering.then_eq,
    UInt8.compare_eq_toNat_compare_toNat, compare_halves byte.toNat]

end Hex

/-- Hexadecimal texts are compared as the values that they stand for. -/
theorem Fixed.compare_toHex {width : Nat} (first second : Fixed width) :
    compare first.toHex second.toHex = compare first second := by
  have hLengths : (first.bytes.map Hex.encodeByte).map List.length =
      (second.bytes.map Hex.encodeByte).map List.length := by
    have hTwo : List.length ∘ Hex.encodeByte = fun _ => 2 := rfl
    rw [List.map_map, List.map_map, hTwo, List.map_const', List.map_const', first.length_eq,
      second.length_eq]
  rw [toHex, toHex, compare_text, Hex.encode, Hex.encode, String.toList_ofList,
    String.toList_ofList, List.flatMap_def, List.flatMap_def, compare_flatten hLengths,
    compare_map Hex.compare_encodeByte]
  rfl

section Contiguous

variable {α : Type} {own : α → Bool}

/-- Members all of which come first are the beginning. -/
theorem filter_isPrefix {members : List α}
    (hFirst : members.Pairwise fun earlier later => own later → own earlier) :
    members.filter own <+: members := by
  induction members with
  | nil => exact List.prefix_rfl
  | cons member members ih =>
      obtain ⟨hMember, hMembers⟩ := List.pairwise_cons.mp hFirst
      cases hOwn : own member with
      | true =>
          rw [List.filter_cons_of_pos hOwn]
          exact List.cons_prefix_cons.mpr ⟨rfl, ih hMembers⟩
      | false =>
          have hNone : members.filter own = [] := by
            refine List.filter_eq_nil_iff.mpr fun later hMem hLater => ?_
            rw [hMember later hMem hLater] at hOwn
            cases hOwn
          rw [List.filter_cons_of_neg (by simp [hOwn]), hNone]
          exact List.nil_prefix

/-- Members stand together if every one between two of them is one of them. -/
theorem filter_isInfix [Ord α] {members : List α}
    (hSorted : members.Pairwise fun earlier later => compare earlier later = .lt)
    (hBetween : ∀ first ∈ members, ∀ middle ∈ members, ∀ last ∈ members,
      compare first middle = .lt → compare middle last = .lt → own first → own last →
        own middle) :
    members.filter own <:+: members := by
  induction members with
  | nil => exact List.infix_rfl
  | cons member members ih =>
      obtain ⟨hMember, hMembers⟩ := List.pairwise_cons.mp hSorted
      cases hOwn : own member with
      | true =>
          -- nothing but such members can stand between this one and a later one
          have hFirst : (member :: members).Pairwise
              fun earlier later => own later → own earlier := by
            refine List.pairwise_cons.mpr ⟨fun _ _ _ => hOwn, ?_⟩
            refine hMembers.imp_of_mem fun {middle last} hMiddle hLast hLess hLater => ?_
            exact hBetween member List.mem_cons_self middle (List.mem_cons_of_mem _ hMiddle) last
              (List.mem_cons_of_mem _ hLast) (hMember middle hMiddle) hLess hOwn hLater
          exact (filter_isPrefix hFirst).isInfix
      | false =>
          rw [List.filter_cons_of_neg (by simp [hOwn])]
          exact List.infix_cons (ih hMembers fun first hFirst middle hMiddle last hLast =>
            hBetween first (List.mem_cons_of_mem _ hFirst) middle (List.mem_cons_of_mem _ hMiddle)
              last (List.mem_cons_of_mem _ hLast))

end Contiguous

namespace Store

open scoped Classical in
/-- The stored keys of the entities of some sort, in the order of the store. -/
noncomputable def keysOf (store : Store) (sort : Entity → Prop) : List Bytes :=
  store.keys.filter fun key => ∃ entity, sort entity ∧ entity.key = key

theorem mem_keysOf {store : Store} {sort : Entity → Prop} {key : Bytes} :
    key ∈ store.keysOf sort ↔ key ∈ store ∧ ∃ entity, sort entity ∧ entity.key = key := by
  simp only [keysOf, List.mem_filter, decide_eq_true_eq, Std.ExtTreeMap.mem_keys]

theorem pairwise_keysOf (store : Store) (sort : Entity → Prop) :
    (store.keysOf sort).Pairwise fun earlier later => compare earlier later = .lt :=
  store.ordered_keys.filter _

/-- The keys of one kind are in the order of the identifiers. -/
theorem exists_map_key_eq_keysOf (store : Store) (kind : EntityKind) :
    ∃ entities : List Entity, (∀ entity ∈ entities, entity.kind = kind) ∧
      entities.map Entity.key = store.keysOf (fun entity => entity.kind = kind) ∧
      entities.Pairwise fun earlier later => compare earlier.parts later.parts = .lt := by
  have hRange : store.keysOf (fun entity => entity.kind = kind) ∈
      Set.range (List.map Entity.key) := by
    rw [Set.range_list_map]
    intro key hKey
    obtain ⟨-, entity, -, hEntity⟩ := mem_keysOf.mp hKey
    exact ⟨entity, hEntity⟩
  obtain ⟨entities, hKeys⟩ := hRange
  have hKind : ∀ entity ∈ entities, entity.kind = kind := by
    intro entity hMem
    have hKey : entity.key ∈ store.keysOf fun entity => entity.kind = kind := by
      rw [← hKeys]
      exact List.mem_map_of_mem hMem
    obtain ⟨-, other, hOther, hSame⟩ := mem_keysOf.mp hKey
    rwa [← Entity.key_injective hSame]
  refine ⟨entities, hKind, hKeys, ?_⟩
  have hSorted := store.pairwise_keysOf fun entity => entity.kind = kind
  rw [← hKeys, List.pairwise_map] at hSorted
  refine hSorted.imp_of_mem fun {earlier later} hEarlier hLater hLess => ?_
  rwa [Entity.compare_key ((hKind earlier hEarlier).trans (hKind later hLater).symm)] at hLess

/-- The keys of some entities stand together among others if every key between two of them
belongs to one of them. -/
theorem keysOf_isInfix (store : Store) {own sort : Entity → Prop}
    (hOwn : ∀ entity, own entity → sort entity)
    (hBetween : ∀ first middle last : Entity, own first → sort middle → own last →
      compare first.key middle.key = .lt → compare middle.key last.key = .lt → own middle) :
    store.keysOf own <:+: store.keysOf sort := by
  classical
  have hFilter : store.keysOf own =
      (store.keysOf sort).filter fun key => ∃ entity, own entity ∧ entity.key = key := by
    rw [keysOf, keysOf, List.filter_filter]
    refine List.filter_congr fun key _ => ?_
    rw [← Bool.decide_and, decide_eq_decide]
    constructor
    · rintro ⟨entity, hEntity, hKey⟩
      exact ⟨⟨entity, hEntity, hKey⟩, entity, hOwn entity hEntity, hKey⟩
    · exact And.left
  rw [hFilter]
  refine filter_isInfix (store.pairwise_keysOf sort) ?_
  intro first _ middle hMiddle last _ hUp hDown hFirst hLast
  rw [decide_eq_true_iff] at hFirst hLast ⊢
  obtain ⟨first, hFirst, rfl⟩ := hFirst
  obtain ⟨last, hLast, rfl⟩ := hLast
  obtain ⟨-, middle, hSort, rfl⟩ := mem_keysOf.mp hMiddle
  exact ⟨middle, hBetween first middle last hFirst hSort hLast hUp hDown, rfl⟩

/-- Keys of one kind stand together if their first identifier is the same. -/
theorem keysOf_first_isInfix (store : Store) (kind : EntityKind) (id : Bytes) :
    store.keysOf (fun entity => entity.kind = kind ∧ entity.parts.head? = some id) <:+:
      store.keysOf fun entity => entity.kind = kind := by
  refine store.keysOf_isInfix (fun _ => And.left) ?_
  rintro first middle last ⟨hFirst, hFirstId⟩ hMiddle ⟨hLast, hLastId⟩ hUp hDown
  rw [Entity.compare_key (hFirst.trans hMiddle.symm)] at hUp
  rw [Entity.compare_key (hMiddle.trans hLast.symm)] at hDown
  obtain ⟨rest, hFirstParts⟩ := List.head?_eq_some_iff.mp hFirstId
  obtain ⟨rest', hLastParts⟩ := List.head?_eq_some_iff.mp hLastId
  have hLengths : middle.parts.map List.length = first.parts.map List.length := by
    rw [Entity.map_length_parts, Entity.map_length_parts, hMiddle, hFirst]
  rw [hFirstParts, List.map_cons] at hLengths
  -- the key in the middle is of the same kind, so it has a first identifier too
  obtain ⟨id', between, hMiddleParts, -, -⟩ := List.map_eq_cons_iff.mp hLengths
  rw [hFirstParts, hMiddleParts, compare_cons] at hUp
  rw [hLastParts, hMiddleParts, compare_cons] at hDown
  refine ⟨hMiddle, ?_⟩
  rw [hMiddleParts, eq_of_compare_then_lt hUp hDown, List.head?_cons]

end Store

/-- The order of the keys is the order of the identifiers. Keys of one kind are compared as the
identifiers that they were derived from, the second ones counting only if the first ones are the
same, and hexadecimal texts as their values. So a store lists the keys of a kind in the order of
their identifiers; the balances of one address stand together among all balances, and the loans of
one asset among all loans. -/
theorem keys_ordered_by_identifiers :
    (∀ make ∈ [Entity.transaction, Entity.asset, Entity.order, Entity.outgoingWarp,
        Entity.project, Entity.update], ∀ id id' : Identifier,
      compare (make id).key (make id').key = compare id id') ∧
    (∀ make ∈ [Entity.loan, Entity.incomingWarp], ∀ first first' second second' : Identifier,
      compare (make first second).key (make first' second').key =
        (compare first first').then (compare second second')) ∧
    (∀ (address address' : Address) (held held' : Identifier),
      compare (Entity.balance address held).key (Entity.balance address' held').key =
        (compare address address').then (compare held held')) ∧
    (∀ (width : Nat) (first second : Fixed width),
      compare first.toHex second.toHex = compare first second) ∧
    ∀ store : Store,
      (∀ kind, ∃ entities : List Entity, (∀ entity ∈ entities, entity.kind = kind) ∧
        entities.map Entity.key = store.keysOf (fun entity => entity.kind = kind) ∧
        entities.Pairwise fun earlier later => compare earlier.parts later.parts = .lt) ∧
      (∀ address, store.keysOf (fun entity => ∃ held, entity = .balance address held) <:+:
        store.keysOf fun entity => entity.kind = .balance) ∧
      (∀ lent, store.keysOf (fun entity => ∃ destination, entity = .loan lent destination) <:+:
        store.keysOf fun entity => entity.kind = .loan) := by
  refine ⟨?_, ?_, ?_, fun _ => Fixed.compare_toHex, fun store =>
    ⟨store.exists_map_key_eq_keysOf, fun address => ?_, fun lent => ?_⟩⟩
  · simp only [List.forall_mem_cons, List.not_mem_nil, false_implies, implies_true, and_true]
    refine ⟨?_, ?_, ?_, ?_, ?_, ?_⟩ <;> intro id id' <;>
      exact Entity.compare_key_one rfl rfl rfl
  · simp only [List.forall_mem_cons, List.not_mem_nil, false_implies, implies_true, and_true]
    refine ⟨?_, ?_⟩ <;> intro first first' second second' <;>
      exact Entity.compare_key_two rfl rfl rfl
  · intro address address' held held'
    exact Entity.compare_key_two rfl rfl rfl
  · rw [Entity.balance_sort address]
    exact store.keysOf_first_isInfix .balance address.bytes
  · rw [Entity.loan_sort lent]
    exact store.keysOf_first_isInfix .loan lent.bytes

end DeviceLedger
