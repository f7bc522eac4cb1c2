import Mathlib.Data.List.Nodup
import DeviceLedger.Json.Read
import DeviceLedger.Proofs.JsonText

/-! Readers of a shape find a value again at the start of its tokens, whatever follows them. There
is one rule for each reader; an object is found by its fields, each of which is found by its own
reader. -/

namespace DeviceLedger.Json

/-- A list neither ends nor goes on with the first token of a value. -/
theorem exists_lexemes_eq (value : Json) :
    ∃ first rest, value.lexemes = first :: rest ∧ first ∉ [.closeList, .comma] := by
  cases value with
  | list items => cases items <;> exact ⟨_, _, rfl, by simp⟩
  | object members => cases members <;> exact ⟨_, _, rfl, by simp⟩
  | _ => exact ⟨_, _, rfl, by simp⟩

theorem lexemes_append_ne (value : Json) {token : Token} (hToken : token ∈ [.closeList, .comma])
    (rest others : List Token) : value.lexemes ++ rest ≠ token :: others := by
  obtain ⟨first, found, hLexemes, hFirst⟩ := exists_lexemes_eq value
  rw [hLexemes]
  intro hEq
  obtain ⟨rfl, -⟩ := List.cons.inj hEq
  exact hFirst hToken

theorem length_lt_itemLexemes (items : List Json) : items.length < (itemLexemes items).length := by
  induction items with
  | nil => exact Nat.one_pos
  | cons item items ih =>
      rw [itemLexemes, List.length_cons, List.length_cons, List.length_append]
      omega

theorem length_lt_memberLexemes (members : List (String × Json)) :
    members.length < (memberLexemes members).length := by
  induction members with
  | nil => exact Nat.one_pos
  | cons member members ih =>
      obtain ⟨name, value⟩ := member
      rw [memberLexemes, List.length_cons, List.length_cons, List.length_cons, List.length_cons,
        List.length_append]
      omega

namespace Read

/-- A reader that finds a value at the start of its tokens. -/
structure Finds (read : Read Json) (value : Json) : Prop where
  lexed : value.Lexed
  read_eq (rest : List Token) : read (value.lexemes ++ rest) = .ok (value, rest)

theorem finds_text (value : String) : Finds text (.text value) where
  lexed := lexed_text value
  read_eq rest := by
    rw [lexemes, List.singleton_append, text, unescape_inside]

theorem finds_flag (value : Bool) : Finds flag (.flag value) where
  lexed := lexed_flag value
  read_eq rest := by
    rw [lexemes, List.singleton_append, flag]

/-- An integer of 64 bits and a sign between its bounds. -/
theorem finds_integer {low high value : Int} (hLow : low ≤ value) (hHigh : value ≤ high)
    (hFits : value.natAbs < UInt64.size) : Finds (integer low high) (.number value) where
  lexed := lexed_number hFits
  read_eq rest := by
    have hInteger : Numeral.integer? ⟨decide (value < 0), value.natAbs, 0, true⟩ = some value := by
      simp only [Numeral.integer?, true_and, ↓reduceIte, decide_eq_true_eq]
      split_ifs <;> first | omega | (congr 1; omega)
    rw [lexemes, List.singleton_append, integer, hInteger]
    exact if_pos ⟨hLow, hHigh⟩

theorem finds_choice {names : List String} {name : String} (hName : name ∈ names) :
    Finds (choice names) (.text name) where
  lexed := lexed_text name
  read_eq rest := by
    rw [lexemes, List.singleton_append, choice, unescape_inside]
    exact if_pos (List.contains_iff_mem.mpr hName)

theorem nextItem_first (value : Json) (rest : List Token) :
    nextItem true (value.lexemes ++ rest) = .ok (some (value.lexemes ++ rest)) := by
  obtain ⟨first, found, hLexemes, hFirst⟩ := exists_lexemes_eq value
  rw [hLexemes, List.cons_append]
  cases first with
  | closeList => exact absurd List.mem_cons_self hFirst
  | comma => exact absurd (List.mem_cons_of_mem _ List.mem_cons_self) hFirst
  | _ => rfl

theorem nextItem_comma (value : Json) (rest : List Token) :
    nextItem false (.comma :: (value.lexemes ++ rest)) = .ok (some (value.lexemes ++ rest)) := by
  rw [nextItem]
  · rfl
  · exact lexemes_append_ne value (by simp) rest

/-- An item that is found is put in front of those found already. -/
theorem rowAfter_of_nextItem {item : Read Json} {count : Nat} (found : List Json)
    {tokens next rest : List Token} {value : Json}
    (hNext : nextItem found.isEmpty tokens = .ok (some next))
    (hValue : item next = .ok (value, rest)) :
    rowAfter item (count + 1) found tokens = rowAfter item count (value :: found) rest := by
  simp only [rowAfter, hNext, bind, Except.bind, hValue]

section

variable {item : Read Json} {items : List Json} (hItems : ∀ value ∈ items, item.Finds value)
include hItems

/-- Behind the items found already, the latest first, come those of the rest. -/
theorem itemsAfter_itemLexemes {fuel : Nat} (hFuel : items.length < fuel) (latest : Json)
    (found : List Json) (rest : List Token) :
    itemsAfter item fuel (latest :: found) (itemLexemes items ++ rest) =
      .ok (.list (found.reverse ++ latest :: items), rest) := by
  induction items generalizing fuel latest found with
  | nil =>
      cases fuel with
      | zero => omega
      | succ fuel =>
          rw [itemLexemes, List.singleton_append, itemsAfter, List.reverse_cons]
  | cons value items ih =>
      obtain ⟨hValue, hItems⟩ := List.forall_mem_cons.mp hItems
      rw [List.length_cons] at hFuel
      cases fuel with
      | zero => omega
      | succ fuel =>
          rw [itemLexemes, List.cons_append, List.append_assoc, itemsAfter,
            if_neg (by simp), hValue.read_eq]
          · change itemsAfter item fuel (value :: latest :: found) (itemLexemes items ++ rest) = _
            rw [ih hItems (by omega)]
            simp
          · exact lexemes_append_ne value (by simp) _

theorem finds_list : Finds (list item) (.list items) where
  lexed := lexed_list fun value hValue => (hItems value hValue).lexed
  read_eq rest := by
    cases items with
    | nil => rfl
    | cons value items =>
        obtain ⟨hValue, hItems⟩ := List.forall_mem_cons.mp hItems
        have hFuel : items.length < (value.lexemes ++ (itemLexemes items ++ rest)).length := by
          have hLength := length_lt_itemLexemes items
          simp only [List.length_append]
          omega
        rw [lexemes, List.cons_append, list, List.append_assoc, itemsAfter, if_pos List.isEmpty_nil,
          hValue.read_eq]
        · exact itemsAfter_itemLexemes hItems hFuel value [] rest
        · exact lexemes_append_ne value (by simp) _
        · exact fun others => lexemes_append_ne value (by simp) _ _
        · exact lexemes_append_ne value (by simp) _

theorem rowAfter_itemLexemes (latest : Json) (found : List Json) (rest : List Token) :
    rowAfter item items.length (latest :: found) (itemLexemes items ++ rest) =
      .ok (.list (found.reverse ++ latest :: items), rest) := by
  induction items generalizing latest found with
  | nil =>
      rw [itemLexemes, List.singleton_append, List.length_nil, rowAfter, endOfList,
        List.reverse_cons]
  | cons value items ih =>
      obtain ⟨hValue, hItems⟩ := List.forall_mem_cons.mp hItems
      rw [itemLexemes, List.cons_append, List.append_assoc, List.length_cons,
        rowAfter_of_nextItem (latest :: found) (nextItem_comma value _) (hValue.read_eq _),
        ih hItems]
      simp

theorem finds_row : Finds (row items.length item) (.list items) where
  lexed := lexed_list fun value hValue => (hItems value hValue).lexed
  read_eq rest := by
    cases items with
    | nil => rfl
    | cons value items =>
        obtain ⟨hValue, hItems⟩ := List.forall_mem_cons.mp hItems
        rw [lexemes, List.cons_append, row, List.append_assoc, List.length_cons,
          rowAfter_of_nextItem [] (nextItem_first value _) (hValue.read_eq _)]
        exact rowAfter_itemLexemes hItems value [] rest

end

/-- In an object whose names all differ, a member is found under its name. -/
theorem lookup_of_mem {members : List (String × Json)} (hNames : (members.map Prod.fst).Nodup)
    {member : String × Json} (hMember : member ∈ members) :
    members.lookup member.1 = some member.2 := by
  induction members with
  | nil => exact absurd hMember List.not_mem_nil
  | cons other members ih =>
      obtain ⟨hOther, hNames⟩ := List.nodup_cons.mp hNames
      rw [List.lookup_cons]
      rcases List.mem_cons.mp hMember with rfl | hMember
      · rw [beq_self_eq_true]
      · have hName : member.1 ≠ other.1 := fun hName =>
          hOther (hName ▸ List.mem_map_of_mem hMember)
        rw [beq_eq_false_iff_ne.mpr hName]
        exact ih hNames hMember

/-- Members that the fields of the same names find, in the order of the fields. -/
def FindMembers (fields : List Field) (members : List (String × Json)) : Prop :=
  List.Forall₂ (fun field member => field.name = member.1 ∧ field.read.Finds member.2)
    fields members

namespace FindMembers

variable {fields : List Field} {members : List (String × Json)}
  (hFields : FindMembers fields members)
include hFields

/-- Fields are completed by the members that were found, in whatever order. -/
theorem complete_eq {found : List (String × Json)}
    (hFound : ∀ member ∈ members, found.lookup member.1 = some member.2) :
    complete found fields = .ok members := by
  induction hFields with
  | nil => rfl
  | @cons field member fields members hField hFields ih =>
      obtain ⟨hMember, hMembers⟩ := List.forall_mem_cons.mp hFound
      rw [complete, hField.1, hMember, ih hMembers]
      rfl

theorem exists_field (hNames : (members.map Prod.fst).Nodup) {member : String × Json}
    (hMember : member ∈ members) :
    ∃ field, fields.find? (fun field => field.name == member.1) = some field ∧
      field.read.Finds member.2 := by
  induction hFields with
  | nil => exact absurd hMember List.not_mem_nil
  | @cons field other fields members hField hFields ih =>
      obtain ⟨hOther, hNames⟩ := List.nodup_cons.mp hNames
      rcases List.mem_cons.mp hMember with rfl | hMember
      · exact ⟨field, by simp [hField.1], hField.2⟩
      · have hName : other.1 ≠ member.1 := fun hName =>
          hOther (hName ▸ List.mem_map_of_mem hMember)
        obtain ⟨found, hFind, hFinds⟩ := ih hNames hMember
        refine ⟨found, ?_, hFinds⟩
        rw [List.find?_cons, hField.1, beq_eq_false_iff_ne.mpr hName]
        exact hFind

theorem lexed_object : (object members).Lexed := by
  apply Json.lexed_object
  induction hFields with
  | nil => simp
  | cons hField hFields ih => exact List.forall_mem_cons.mpr ⟨hField.2.lexed, ih⟩

end FindMembers

section

variable {fields : List Field} (strictness : Strictness) (fuel : Nat)
  {found : List (String × Json)} {name : String} {field : Field} {value : Json}
  (hField : fields.find? (fun field => field.name == name) = some field)
  (hNew : found.lookup name = none) (hValue : field.read.Finds value)
include hField hNew hValue

/-- A member that is named for the first time is read by its field. -/
theorem membersAfter_first (rest : List Token) :
    membersAfter fields strictness (fuel + 1) true found
        (.text (inside name) :: .colon :: (value.lexemes ++ rest)) =
      membersAfter fields strictness fuel false ((name, value) :: found) rest := by
  simp only [membersAfter, unescape_inside, hField, hNew, hValue.read_eq, Option.isSome_none]
  rfl

theorem membersAfter_comma (rest : List Token) :
    membersAfter fields strictness (fuel + 1) false found
        (.comma :: .text (inside name) :: .colon :: (value.lexemes ++ rest)) =
      membersAfter fields strictness fuel false ((name, value) :: found) rest := by
  simp only [membersAfter, unescape_inside, hField, hNew, hValue.read_eq, Option.isSome_none]
  rfl

end

namespace FindMembers

variable {fields : List Field} {members : List (String × Json)}
  (hFields : FindMembers fields members) (hNames : (members.map Prod.fst).Nodup)
include hFields hNames

/-- A member has a field of its own, and is not named among those in front of it. -/
theorem exists_field_of_append {done todo : List (String × Json)} {name : String} {value : Json}
    (hMembers : members = done ++ (name, value) :: todo) :
    ∃ field, fields.find? (fun field => field.name == name) = some field ∧
      field.read.Finds value ∧ done.reverse.lookup name = none := by
  subst hMembers
  have hMember : (name, value) ∈ done ++ (name, value) :: todo := by simp
  obtain ⟨field, hField, hValue⟩ := hFields.exists_field hNames hMember
  refine ⟨field, hField, hValue, List.lookup_eq_none_iff.mpr fun other hOther => ?_⟩
  rw [List.map_append, List.map_cons, List.nodup_middle, List.nodup_cons] at hNames
  apply bne_iff_ne.mpr
  rintro rfl
  have hOther := List.mem_map_of_mem (f := Prod.fst) (List.mem_reverse.mp hOther)
  exact hNames.1 (List.mem_append_left _ hOther)

/-- Behind the members found already, the latest first, come those of the rest. -/
theorem membersAfter_memberLexemes (strictness : Strictness) {fuel : Nat}
    {done todo : List (String × Json)} (hMembers : members = done ++ todo)
    (hFuel : todo.length < fuel) (rest : List Token) :
    membersAfter fields strictness fuel false done.reverse (memberLexemes todo ++ rest) =
      .ok (.object members, rest) := by
  -- what was found is the front of the members, so that a name to come is never among it
  induction todo generalizing fuel done with
  | nil =>
      rw [List.append_nil] at hMembers
      have hFound : ∀ member ∈ members, done.reverse.lookup member.1 = some member.2 := by
        intro member hMember
        apply lookup_of_mem
        · rwa [List.map_reverse, List.nodup_reverse, ← hMembers]
        · rwa [List.mem_reverse, ← hMembers]
      cases fuel with
      | zero => omega
      | succ fuel =>
          rw [memberLexemes, List.singleton_append, membersAfter, hFields.complete_eq hFound]
          rfl
  | cons member todo ih =>
      obtain ⟨name, value⟩ := member
      obtain ⟨field, hField, hValue, hNew⟩ := hFields.exists_field_of_append hNames hMembers
      rw [List.length_cons] at hFuel
      cases fuel with
      | zero => omega
      | succ fuel =>
          rw [memberLexemes, List.cons_append, List.cons_append, List.cons_append,
            List.append_assoc, membersAfter_comma strictness fuel hField hNew hValue,
            ← List.reverse_concat]
          exact ih (by rw [hMembers, List.append_assoc, List.singleton_append]) (by omega)

/-- The members of an object behind its opening brace. -/
theorem membersAfter_eq (strictness : Strictness) (rest : List Token) :
    ∃ others, (object members).lexemes ++ rest = .openObject :: others ∧
      membersAfter fields strictness (others.length + 1) true [] others =
        .ok (.object members, rest) := by
  cases members with
  | nil =>
      refine ⟨.closeObject :: rest, rfl, ?_⟩
      rw [membersAfter, hFields.complete_eq (by simp)]
      rfl
  | cons member todo =>
      obtain ⟨name, value⟩ := member
      obtain ⟨field, hField, hValue⟩ := hFields.exists_field hNames List.mem_cons_self
      have hLength := length_lt_memberLexemes todo
      refine ⟨.text (inside name) :: .colon :: (value.lexemes ++ (memberLexemes todo ++ rest)), ?_,
        ?_⟩
      · simp [lexemes]
      · rw [membersAfter_first strictness _ hField rfl hValue]
        have hFuel : todo.length < (Token.text (inside name) :: .colon ::
            (value.lexemes ++ (memberLexemes todo ++ rest))).length := by
          simp only [List.length_cons, List.length_append]
          omega
        exact hFields.membersAfter_memberLexemes hNames strictness
          (List.singleton_append (x := (name, value))).symm hFuel rest

theorem finds_record : Finds (record fields) (.object members) where
  lexed := hFields.lexed_object
  read_eq rest := by
    obtain ⟨others, hLexemes, hMembers⟩ := hFields.membersAfter_eq hNames .lax rest
    rw [hLexemes]
    exact hMembers

theorem finds_merged : Finds (merged fields) (.object members) where
  lexed := hFields.lexed_object
  read_eq rest := by
    obtain ⟨others, hLexemes, hMembers⟩ := hFields.membersAfter_eq hNames (.strict 126) rest
    rw [hLexemes]
    exact hMembers

end FindMembers

/-- A reader that is the whole text reads the value back. -/
theorem Finds.whole_eq {read : Read Json} {value : Json} (hFinds : read.Finds value) :
    read.whole (Utf8.encode value.compact) = .ok value := by
  have hRead := hFinds.read_eq []
  rw [List.append_nil] at hRead
  rw [whole, tokens_compact hFinds.lexed, hRead]

theorem Finds.atStart_eq {read : Read Json} {value : Json} (hFinds : read.Finds value) :
    read.atStart (Utf8.encode value.compact) = .ok value := by
  have hRead := hFinds.read_eq []
  rw [List.append_nil] at hRead
  rw [atStart, tokens_compact hFinds.lexed, hRead]
  rfl

end Read

end DeviceLedger.Json
