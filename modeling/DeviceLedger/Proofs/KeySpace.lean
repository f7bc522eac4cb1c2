import DeviceLedger.Entity
import DeviceLedger.Proofs.BigEndian
import Mathlib.Data.List.SplitLengths

/-! The recognised keys and the entities are in bijection. Every part of a key has
the width that its kind prescribes, so the concatenation can be taken apart again;
tag and length together tell the kinds apart. -/

namespace DeviceLedger

namespace EntityKind

/-- A byte string has the first byte and the length of the keys of a kind. The
identifiers and the written number of chunks are not looked at. -/
def Matches (kind : EntityKind) (key : Bytes) : Prop :=
  key.head? = some kind.tag ∧ kind.keyLength = key.length

instance (kind : EntityKind) (key : Bytes) : Decidable (kind.Matches key) :=
  inferInstanceAs (Decidable (_ ∧ _))

/-- The end of the keys of a kind: its number of chunks, where it has one. -/
def suffix (kind : EntityKind) : Bytes := (kind.chunks.map Bytes.ofUInt16).getD []

theorem mem_all (kind : EntityKind) : kind ∈ all := by
  cases kind <;> decide

/-- Tag and length belong to one kind only. The tag alone does not suffice, since
transactions and balances share theirs. -/
theorem eq_of_tag_eq_of_keyLength_eq {first second : EntityKind}
    (hTag : first.tag = second.tag) (hLength : first.keyLength = second.keyLength) :
    first = second := by
  have hTable : ∀ first ∈ all, ∀ second ∈ all,
      first.tag = second.tag → first.keyLength = second.keyLength → first = second := by
    decide
  exact hTable first (mem_all first) second (mem_all second) hTag hLength

theorem Matches.unique {first second : EntityKind} {key : Bytes}
    (hFirst : first.Matches key) (hSecond : second.Matches key) : first = second := by
  obtain ⟨hFirstTag, hFirstLength⟩ := hFirst
  obtain ⟨hSecondTag, hSecondLength⟩ := hSecond
  have hTag : some first.tag = some second.tag := hFirstTag.symm.trans hSecondTag
  exact eq_of_tag_eq_of_keyLength_eq (Option.some.inj hTag)
    (hFirstLength.trans hSecondLength.symm)

/-- A search through any list that holds every kind finds the kind that matches. -/
theorem find?_matches_eq_some_iff {kinds : List EntityKind} (hAll : ∀ kind, kind ∈ kinds)
    (key : Bytes) (kind : EntityKind) :
    kinds.find? (fun candidate => decide (candidate.Matches key)) = some kind ↔
      kind.Matches key := by
  constructor
  · intro hFound
    simpa using List.find?_some hFound
  · intro hMatches
    cases hFound : kinds.find? (fun candidate => decide (candidate.Matches key)) with
    | none =>
        have hNone := List.find?_eq_none.mp hFound kind (hAll kind)
        exact absurd hMatches (by simpa using hNone)
    | some found =>
        have hFoundMatches : found.Matches key := by simpa using List.find?_some hFound
        rw [hFoundMatches.unique hMatches]

theorem ofKey?_eq_find? (key : Bytes) :
    ofKey? key = all.find? fun kind => decide (kind.Matches key) := by
  cases key with
  | nil => rfl
  | cons first rest =>
      rw [ofKey?]
      congr 1
      funext kind
      simp [Matches, beq_eq_decide, eq_comm]

theorem ofKey?_eq_some_iff {key : Bytes} {kind : EntityKind} :
    ofKey? key = some kind ↔ kind.Matches key := by
  rw [ofKey?_eq_find?]
  exact find?_matches_eq_some_iff mem_all key kind

/-- The order in which the kinds are tried does not matter. -/
theorem find?_matches_of_perm {kinds : List EntityKind} (hPerm : kinds.Perm all) (key : Bytes) :
    kinds.find? (fun kind => decide (kind.Matches key)) = ofKey? key := by
  have hAll : ∀ kind, kind ∈ kinds := fun kind => hPerm.mem_iff.mpr (mem_all kind)
  ext kind
  exact (find?_matches_eq_some_iff hAll key kind).trans ofKey?_eq_some_iff.symm

theorem keyLength_eq (kind : EntityKind) :
    kind.keyLength = 1 + kind.layout.widths.sum + kind.suffix.length := by
  cases kind <;> rfl

/-- Bytes of the right length that denote the number of chunks of a kind are its suffix. -/
theorem eq_suffix {kind : EntityKind} {rest : Bytes} (hLength : rest.length = kind.suffix.length)
    (hNumber : kind.chunks.map (fun _ => Bytes.toUInt16 rest) = kind.chunks) :
    rest = kind.suffix := by
  rw [suffix] at hLength ⊢
  cases hChunks : kind.chunks with
  | none =>
      rw [hChunks] at hLength
      exact List.length_eq_zero_iff.mp hLength
  | some chunks =>
      rw [hChunks] at hLength hNumber
      have hTwo : rest.length = 2 := by simpa using hLength
      rw [Option.map_some, Option.getD_some, ← Option.some.inj hNumber,
        Bytes.ofUInt16_toUInt16 hTwo]

/-- The slice that holds the number of chunks lies inside a recognised key. -/
theorem two_le_length_of_chunks {key : Bytes} {kind : EntityKind} {chunks : UInt16}
    (hKind : ofKey? key = some kind) (hChunks : kind.chunks = some chunks) : 2 ≤ key.length := by
  obtain ⟨-, hLength⟩ := ofKey?_eq_some_iff.mp hKind
  rw [keyLength_eq, suffix, hChunks] at hLength
  simp at hLength
  omega

end EntityKind

namespace Entity

/-- Every key has the first byte, the parts and the chunks that the table gives its kind. -/
theorem key_eq_assembleKey (entity : Entity) :
    entity.key = assembleKey entity.kind.tag entity.parts entity.kind.chunks := by
  cases entity <;> rfl

theorem key_eq (entity : Entity) :
    entity.key = entity.kind.tag :: (entity.parts.flatten ++ entity.kind.suffix) :=
  entity.key_eq_assembleKey

theorem head?_key (entity : Entity) : entity.key.head? = some entity.kind.tag := by
  rw [key_eq, List.head?_cons]

theorem map_length_parts (entity : Entity) :
    entity.parts.map List.length = entity.kind.layout.widths := by
  cases entity <;> simp [parts, kind, EntityKind.layout, Fixed.length_eq]

/-- An entity is given by its kind and the bytes of its identifiers. -/
theorem eq_of_kind_eq_of_parts_eq {first second : Entity} (hKind : first.kind = second.kind)
    (hParts : first.parts = second.parts) : first = second := by
  cases first <;> cases second <;> simp_all [kind, parts, Fixed.ext_iff]

theorem length_flatten_parts (entity : Entity) :
    entity.parts.flatten.length = entity.kind.layout.widths.sum := by
  rw [List.length_flatten, map_length_parts]

theorem length_key (entity : Entity) : entity.key.length = entity.kind.keyLength := by
  rw [key_eq, List.length_cons, List.length_append, length_flatten_parts,
    EntityKind.keyLength_eq]
  omega

@[simp] theorem ofKey?_key (entity : Entity) : EntityKind.ofKey? entity.key = some entity.kind :=
  EntityKind.ofKey?_eq_some_iff.mpr ⟨entity.head?_key, entity.length_key.symm⟩

/-- Two entities never share a key, whatever the bytes of their identifiers. -/
theorem key_injective : Function.Injective key := by
  intro first second hKey
  have hKind : first.kind = second.kind := by
    have hFound := congrArg EntityKind.ofKey? hKey
    rw [ofKey?_key, ofKey?_key] at hFound
    exact Option.some.inj hFound
  have hFlatten : first.parts.flatten = second.parts.flatten := by
    rw [key_eq, key_eq, hKind] at hKey
    exact List.append_cancel_right (List.cons.inj hKey).2
  have hLengths : first.parts.map List.length = second.parts.map List.length := by
    rw [map_length_parts, map_length_parts, hKind]
  exact eq_of_kind_eq_of_parts_eq hKind (List.eq_iff_flatten_eq.mpr ⟨hFlatten, hLengths⟩)

/-- Fixed identifiers with the given bytes exist for one part of the right width. -/
theorem exists_fixed_of_one {width : Nat} {parts : List Bytes}
    (hLengths : parts.map List.length = [width]) : ∃ id : Fixed width, parts = [id.bytes] := by
  obtain ⟨bytes, rest, rfl, hBytes, hRest⟩ := List.map_eq_cons_iff.mp hLengths
  obtain rfl := List.map_eq_nil_iff.mp hRest
  exact ⟨⟨bytes, hBytes⟩, rfl⟩

theorem exists_fixed_of_two {first second : Nat} {parts : List Bytes}
    (hLengths : parts.map List.length = [first, second]) :
    ∃ (id : Fixed first) (id' : Fixed second), parts = [id.bytes, id'.bytes] := by
  obtain ⟨bytes, rest, rfl, hBytes, hRest⟩ := List.map_eq_cons_iff.mp hLengths
  obtain ⟨id', rfl⟩ := exists_fixed_of_one hRest
  exact ⟨⟨bytes, hBytes⟩, id', rfl⟩

/-- Parts of the widths that a kind prescribes are the parts of an entity of that kind. -/
theorem exists_kind_parts (kind : EntityKind) {parts : List Bytes}
    (hLengths : parts.map List.length = kind.layout.widths) :
    ∃ entity : Entity, entity.kind = kind ∧ entity.parts = parts := by
  cases kind with
  | transaction =>
      obtain ⟨id, rfl⟩ := exists_fixed_of_one hLengths
      exact ⟨.transaction id, rfl, rfl⟩
  | balance =>
      obtain ⟨address, held, rfl⟩ := exists_fixed_of_two hLengths
      exact ⟨.balance address held, rfl, rfl⟩
  | asset =>
      obtain ⟨id, rfl⟩ := exists_fixed_of_one hLengths
      exact ⟨.asset id, rfl, rfl⟩
  | order =>
      obtain ⟨id, rfl⟩ := exists_fixed_of_one hLengths
      exact ⟨.order id, rfl, rfl⟩
  | loan =>
      obtain ⟨lent, destination, rfl⟩ := exists_fixed_of_two hLengths
      exact ⟨.loan lent destination, rfl, rfl⟩
  | height =>
      obtain rfl := List.map_eq_nil_iff.mp hLengths
      exact ⟨.height, rfl, rfl⟩
  | timestamp =>
      obtain rfl := List.map_eq_nil_iff.mp hLengths
      exact ⟨.timestamp, rfl, rfl⟩
  | fee =>
      obtain rfl := List.map_eq_nil_iff.mp hLengths
      exact ⟨.fee, rfl, rfl⟩
  | incomingWarp =>
      obtain ⟨sourceChain, message, rfl⟩ := exists_fixed_of_two hLengths
      exact ⟨.incomingWarp sourceChain message, rfl, rfl⟩
  | outgoingWarp =>
      obtain ⟨id, rfl⟩ := exists_fixed_of_one hLengths
      exact ⟨.outgoingWarp id, rfl, rfl⟩
  | project =>
      obtain ⟨id, rfl⟩ := exists_fixed_of_one hLengths
      exact ⟨.project id, rfl, rfl⟩
  | update =>
      obtain ⟨id, rfl⟩ := exists_fixed_of_one hLengths
      exact ⟨.update id, rfl, rfl⟩

end Entity

/-- In a recognised key, the two bytes that are read as the number of chunks are
what follows the identifiers. -/
theorem writtenChunks_of_ofKey? {tag : UInt8} {body rest : Bytes} {kind : EntityKind}
    (hKind : EntityKind.ofKey? (tag :: (body ++ rest)) = some kind)
    (hRest : rest.length = kind.suffix.length) :
    writtenChunks (tag :: (body ++ rest)) = kind.chunks.map fun _ => Bytes.toUInt16 rest := by
  cases hChunks : kind.chunks with
  | none => simp [writtenChunks, hKind, hChunks]
  | some chunks =>
      have hTwo : rest.length = 2 := by simpa [EntityKind.suffix, hChunks] using hRest
      have hDrop : (tag :: (body ++ rest)).drop ((tag :: (body ++ rest)).length - 2) = rest := by
        have hPosition : (tag :: (body ++ rest)).length - 2 = (tag :: body).length := by
          simp [hTwo]
        rw [hPosition, ← List.cons_append, List.drop_left]
      simp only [writtenChunks, hKind, hChunks, Option.bind_eq_bind, Option.bind_some,
        Option.pure_def, hDrop, Option.map_some]

@[simp] theorem Entity.writtenChunks_key (entity : Entity) :
    writtenChunks entity.key = entity.kind.chunks := by
  have hKind := ofKey?_key entity
  rw [key_eq] at hKind ⊢
  rw [writtenChunks_of_ofKey? hKind rfl, EntityKind.suffix]
  cases entity.kind.chunks with
  | none => rfl
  | some chunks => simp

/-- A recognised key that carries the number of chunks of its kind can be taken apart
into identifiers. -/
theorem exists_key_eq {key : Bytes} {kind : EntityKind}
    (hKind : EntityKind.ofKey? key = some kind) (hChunks : writtenChunks key = kind.chunks) :
    ∃ entity : Entity, entity.kind = kind ∧ entity.key = key := by
  obtain ⟨hTag, hLength⟩ := EntityKind.ofKey?_eq_some_iff.mp hKind
  obtain ⟨rest, rfl⟩ := List.head?_eq_some_iff.mp hTag
  rw [EntityKind.keyLength_eq, List.length_cons] at hLength
  have hTake : (rest.take kind.layout.widths.sum).length = kind.layout.widths.sum := by
    rw [List.length_take]
    omega
  obtain ⟨entity, hEntityKind, hEntityParts⟩ := Entity.exists_kind_parts kind
    (List.map_splitLengths_length _ _ hTake.ge)
  have hFlatten : entity.parts.flatten = rest.take kind.layout.widths.sum := by
    rw [hEntityParts]
    exact List.flatten_splitLengths _ _ hTake.le
  have hRest : (rest.drop kind.layout.widths.sum).length = kind.suffix.length := by
    rw [List.length_drop]
    omega
  have hSuffix : rest.drop kind.layout.widths.sum = kind.suffix := by
    rw [← List.take_append_drop kind.layout.widths.sum rest] at hKind hChunks
    rw [writtenChunks_of_ofKey? hKind hRest] at hChunks
    exact EntityKind.eq_suffix hRest hChunks
  refine ⟨entity, hEntityKind, ?_⟩
  rw [Entity.key_eq, hFlatten, hEntityKind, ← hSuffix, List.take_append_drop]

/-- The slice for the number of chunks is taken inside the byte string or not at all. -/
theorem writtenChunks_cases (key : Bytes) :
    (∃ kind, EntityKind.ofKey? key = some kind ∧ kind.chunks.isSome ∧ 2 ≤ key.length ∧
      writtenChunks key = some (Bytes.toUInt16 (key.drop (key.length - 2)))) ∨
    ((∀ kind, EntityKind.ofKey? key = some kind → kind.chunks = none) ∧
      writtenChunks key = none) := by
  cases hKind : EntityKind.ofKey? key with
  | none =>
      right
      simp [writtenChunks, hKind]
  | some kind =>
      cases hChunks : kind.chunks with
      | none =>
          right
          simp [writtenChunks, hKind, hChunks]
      | some chunks =>
          left
          have hLength := EntityKind.two_le_length_of_chunks hKind hChunks
          exact ⟨kind, rfl, by simp [hChunks], hLength, by simp [writtenChunks, hKind, hChunks]⟩

/-- Key derivation is a bijection onto the recognised keys. A byte string is derived
from an entity of a kind exactly if it is classified as that kind and carries its
number of chunks; the entity is then unique. No byte string matches two kinds, so the
kinds may be tried in any order. -/
theorem key_bijective_onto_recognised :
    (∀ (key : Bytes) (kind : EntityKind),
      (∃ entity : Entity, entity.kind = kind ∧ entity.key = key) ↔
        EntityKind.ofKey? key = some kind ∧ writtenChunks key = kind.chunks) ∧
    (∀ first second : Entity, first.key = second.key → first = second) ∧
    (∀ (key : Bytes) (first second : EntityKind),
      first.Matches key → second.Matches key → first = second) ∧
    (∀ (kinds : List EntityKind) (key : Bytes), kinds.Perm EntityKind.all →
      kinds.find? (fun kind => decide (kind.Matches key)) = EntityKind.ofKey? key) ∧
    (∀ entity : Entity, entity.key.length = entity.kind.keyLength) ∧
    (∀ key : Bytes,
      (∃ kind, EntityKind.ofKey? key = some kind ∧ kind.chunks.isSome ∧ 2 ≤ key.length ∧
        writtenChunks key = some (Bytes.toUInt16 (key.drop (key.length - 2)))) ∨
      ((∀ kind, EntityKind.ofKey? key = some kind → kind.chunks = none) ∧
        writtenChunks key = none)) := by
  refine ⟨?_, fun _ _ hKey => Entity.key_injective hKey,
    fun _ _ _ hFirst hSecond => hFirst.unique hSecond,
    fun _ key hPerm => EntityKind.find?_matches_of_perm hPerm key, Entity.length_key,
    writtenChunks_cases⟩
  intro key kind
  constructor
  · rintro ⟨entity, rfl, rfl⟩
    exact ⟨entity.ofKey?_key, entity.writtenChunks_key⟩
  · rintro ⟨hKind, hChunks⟩
    exact exists_key_eq hKind hChunks

end DeviceLedger
