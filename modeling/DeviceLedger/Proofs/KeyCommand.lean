import DeviceLedger.CommandLine.Run
import DeviceLedger.Proofs.HexText

/-! The command that prints a key, from the words of the command line to what is printed.
Identifiers may be written in any way that is read as their bytes. -/

namespace DeviceLedger.CommandLine

/-- A text that is hexadecimal does not begin with a hyphen, so that it is no switch. -/
theorem ofString_of_decode {written : String} {bytes : Bytes}
    (hWritten : Hex.decode written = .ok bytes) : Word.ofString written = .plain := by
  have hFirst (rest : List Char) : written.toList ≠ '-' :: rest := by
    intro hList
    have hBytes : Utf8.encode written = 0x2D :: rest.flatMap Utf8.encodeChar := by
      rw [Utf8.encode, hList]
      rfl
    have hHyphen : Hex.digitValue? 0x2D = none := rfl
    simp only [Hex.decode, hBytes] at hWritten
    split at hWritten
    · cases hWritten
    · rename_i hEven
      cases hRest : rest.flatMap Utf8.encodeChar with
      | nil =>
          rw [hRest] at hEven
          exact absurd rfl hEven
      | cons low rest =>
          rw [hRest, Hex.decodePairs, hHyphen] at hWritten
          cases hWritten
  rw [Word.ofString]
  split
  · rename_i hList
    exact absurd hList (hFirst _)
  · rename_i hList
    exact absurd hList (hFirst _)
  · rename_i hList
    exact absurd hList (hFirst _)
  · rfl

/-- Plain words are the operands of a level that takes as many and no command. -/
theorem Level.read_operands {level : Level} (hCommands : level.commands = [])
    (hOperands : ∀ accepts ∈ level.operands, ∀ word, accepts word = true) {words : List String}
    (hWords : ∀ word ∈ words, Word.ofString word = .plain) {progress : Progress}
    (hLength : progress.operands.length + words.length ≤ level.operands.length) :
    level.read progress none words =
      .ok ⟨progress.given, progress.operands.reverse ++ words, none⟩ := by
  induction words generalizing progress with
  | nil => simp [read, finish]
  | cons word words ih =>
      obtain ⟨hWord, hWords⟩ := List.forall_mem_cons.mp hWords
      rw [List.length_cons] at hLength
      have hPosition : progress.operands.length < level.operands.length := by omega
      have hOperand : level.operand progress word =
          .ok ⟨progress.given, word :: progress.operands⟩ := by
        rw [operand, List.getElem?_eq_getElem hPosition]
        exact if_pos (hOperands _ (List.getElem_mem hPosition) word)
      have hNext : (word :: progress.operands).length + words.length ≤ level.operands.length := by
        rw [List.length_cons]
        omega
      simp only [read, hWord, hCommands, hOperand]
      refine (ih hWords hNext).trans ?_
      simp

/-- A kind is named, and its identifiers follow. -/
theorem Invocation.ofKeyWords_name (kind : EntityKind) (given : List (Switch × String))
    (written : List String) :
    ofKeyWords given (kind.name :: written) = (do
      let last ← (identifiers kind).ofWords written
      if last.operands.length = kind.layout.widths.length then
        return ofCommand (.key kind last.operands) (last.given ++ [] ++ given)
      else throw .misuse) := by
  cases kind <;> rfl

/-- The lines of a key begin with the name of its kind and the key. -/
theorem exists_keyLines_eq (entity : Entity) : ∃ note,
    keyLines entity = entity.kind.name ++ ": " ++ Hex.encode entity.key ++ "\n  " ++ note :=
  ⟨toString entity.key.length ++ " bytes, chunks " ++
    (entity.kind.chunks.map fun chunks => toString chunks.toNat).getD "-" ++ "\n",
    by simp only [keyLines, String.append_assoc]⟩

/-- Words that are read as the bytes of the identifiers of an entity. -/
def Writes (written : List String) (entity : Entity) : Prop :=
  written.map Hex.decode = entity.parts.map .ok

theorem writes_encode (entity : Entity) : Writes (entity.parts.map Hex.encode) entity := by
  simp [Writes, Hex.decode_encode]

theorem fixed_of_decode {width : Nat} {fixed : Fixed width} {written : String}
    (hWritten : Hex.decode written = .ok fixed.bytes) (field : String) :
    CommandLine.fixed width field written = .ok fixed := by
  rw [CommandLine.fixed, Fixed.ofHex, hWritten]
  simp [Except.mapError]

section

variable {written : List String} {entity : Entity} (hWritten : Writes written entity)
include hWritten

theorem Writes.ofString_eq_plain : ∀ word ∈ written, Word.ofString word = .plain := by
  intro word hMem
  have hDecoded : Hex.decode word ∈ entity.parts.map .ok := hWritten ▸ List.mem_map_of_mem hMem
  obtain ⟨bytes, -, hBytes⟩ := List.mem_map.mp hDecoded
  exact ofString_of_decode hBytes.symm

theorem Writes.length_eq : written.length = entity.kind.layout.widths.length := by
  have hLengths := congrArg List.length hWritten
  rw [List.length_map, List.length_map] at hLengths
  rw [hLengths]
  cases entity <;> rfl

/-- The identifiers that were written give the entity. -/
theorem Writes.entityOf?_eq : entityOf? entity.kind written = some (.ok entity) := by
  have hOne {bytes : Bytes} (hParts : entity.parts = [bytes]) :
      ∃ word, written = [word] ∧ Hex.decode word = .ok bytes := by
    rw [Writes, hParts] at hWritten
    exact List.map_eq_singleton_iff.mp hWritten
  have hTwo {bytes bytes' : Bytes} (hParts : entity.parts = [bytes, bytes']) :
      ∃ word word', written = [word, word'] ∧ Hex.decode word = .ok bytes ∧
        Hex.decode word' = .ok bytes' := by
    rw [Writes, hParts] at hWritten
    obtain ⟨word, rest, rfl, hWord, hRest⟩ := List.map_eq_cons_iff.mp hWritten
    obtain ⟨word', rfl, hWord'⟩ := List.map_eq_singleton_iff.mp hRest
    exact ⟨word, word', rfl, hWord, hWord'⟩
  cases entity with
  | height | timestamp | fee =>
      obtain rfl := List.map_eq_nil_iff.mp hWritten
      rfl
  | transaction id | asset id | order id | outgoingWarp id | project id | update id =>
      obtain ⟨word, rfl, hWord⟩ := hOne rfl
      simp only [Entity.kind, entityOf?, identifier, fixed_of_decode hWord]
      rfl
  | balance id id' | loan id id' | incomingWarp id id' =>
      obtain ⟨word, word', rfl, hWord, hWord'⟩ := hTwo rfl
      simp only [Entity.kind, entityOf?, identifier, fixed_of_decode hWord,
        fixed_of_decode hWord']
      rfl

/-- The command line of a key is read down to the identifiers. -/
theorem Writes.ofKeyWords_eq (given : List (Switch × String)) :
    Invocation.ofKeyWords given (entity.kind.name :: written) =
      .ok (Invocation.ofCommand (.key entity.kind written) given) := by
  have hLast : (Invocation.identifiers entity.kind).ofWords written = .ok ⟨[], written, none⟩ := by
    apply Level.read_operands rfl
    · intro accepts hMem word
      obtain ⟨width, -, rfl⟩ := List.mem_map.mp hMem
      rfl
    · exact hWritten.ofString_eq_plain
    · rw [List.length_nil, Nat.zero_add, hWritten.length_eq]
      exact (List.length_map _).ge
  rw [Invocation.ofKeyWords_name, hLast]
  exact if_pos hWritten.length_eq

/-- What is printed is the key of the entity, in the format that was asked for. -/
theorem Writes.runKey_eq (format : OutputFormat) :
    runKey entity.kind written format = .success (showKey entity format) := by
  rw [runKey, hWritten.entityOf?_eq]

theorem Writes.run_text (host : Host) :
    run host ("key" :: entity.kind.name :: written) = .success (keyLines entity) := by
  have hWords : Invocation.ofWords ("key" :: entity.kind.name :: written) =
      Invocation.ofKeyWords [] (entity.kind.name :: written) := rfl
  rw [run, hWords, hWritten.ofKeyWords_eq]
  exact hWritten.runKey_eq .text

theorem Writes.run_json (host : Host) :
    run host ("--format" :: "json" :: "key" :: entity.kind.name :: written) =
      .success ((keyObject entity).pretty ++ "\n") := by
  have hWords : Invocation.ofWords ("--format" :: "json" :: "key" :: entity.kind.name :: written) =
      Invocation.ofKeyWords [(.format, "json")] (entity.kind.name :: written) := rfl
  rw [run, hWords, hWritten.ofKeyWords_eq]
  exact hWritten.runKey_eq .json

end

end DeviceLedger.CommandLine
