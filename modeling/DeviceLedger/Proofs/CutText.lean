import DeviceLedger.Proofs.Slots
import DeviceLedger.Proofs.Utf8Text

/-! Texts that are cut to a width. The cut is made between two bytes. The characters whose bytes
are all in front of it are read back, and what is left of the next one is a single ill-formed
part. -/

namespace DeviceLedger

namespace Utf8

/-- The characters from the first on whose bytes fit, one after the other. -/
def fitting (room : Nat) : List Char → List Char
  | [] => []
  | c :: characters =>
    if (encodeChar c).length ≤ room then c :: fitting (room - (encodeChar c).length) characters
    else []

/-- The longest beginning of some characters whose bytes fit. -/
structure IsLongestFitting (room : Nat) (characters front : List Char) : Prop where
  isPrefix : front <+: characters
  fits : (front.flatMap encodeChar).length ≤ room
  longest : ∀ other, other <+: characters → (other.flatMap encodeChar).length ≤ room →
    other <+: front

variable {room : Nat}

theorem fitting_of_fits {c : Char} (hFits : (encodeChar c).length ≤ room)
    (characters : List Char) :
    fitting room (c :: characters) = c :: fitting (room - (encodeChar c).length) characters :=
  if_pos hFits

theorem fitting_of_not_fits {c : Char} (hFits : ¬(encodeChar c).length ≤ room)
    (characters : List Char) : fitting room (c :: characters) = [] :=
  if_neg hFits

theorem isLongestFitting_fitting (room : Nat) (characters : List Char) :
    IsLongestFitting room characters (fitting room characters) := by
  induction characters generalizing room with
  | nil =>
      refine ⟨List.prefix_rfl, by simp [fitting], fun other hOther _ => hOther⟩
  | cons c characters ih =>
      by_cases hFits : (encodeChar c).length ≤ room
      · obtain ⟨hPrefix, hRoom, hLongest⟩ := ih (room - (encodeChar c).length)
        rw [fitting_of_fits hFits]
        refine ⟨List.cons_prefix_cons.mpr ⟨rfl, hPrefix⟩, ?_, ?_⟩
        · rw [List.flatMap_cons, List.length_append]
          omega
        · rintro (_ | ⟨first, other⟩) hOther hBytes
          · exact List.nil_prefix
          · obtain ⟨rfl, hRest⟩ := List.cons_prefix_cons.mp hOther
            rw [List.flatMap_cons, List.length_append] at hBytes
            exact List.cons_prefix_cons.mpr ⟨rfl, hLongest other hRest (by omega)⟩
      · rw [fitting_of_not_fits hFits]
        refine ⟨List.nil_prefix, Nat.zero_le _, ?_⟩
        rintro (_ | ⟨first, other⟩) hOther hBytes
        · exact List.nil_prefix
        · obtain ⟨rfl, -⟩ := List.cons_prefix_cons.mp hOther
          rw [List.flatMap_cons, List.length_append] at hBytes
          omega

/-- A character whose continuation bytes end too early has no code, and none of them is left. -/
theorem continuation_take {count : Nat} {low high : UInt8} {code result : Nat} {bytes : Bytes}
    (hWhole : continuation count low high code bytes = (some result, [])) {cut : Nat}
    (hCut : cut < bytes.length) :
    continuation count low high code (bytes.take cut) = (none, []) := by
  induction count generalizing low high code bytes cut with
  | zero =>
      obtain rfl : bytes = [] := congrArg Prod.snd hWhole
      exact absurd hCut (Nat.not_lt_zero cut)
  | succ count ih =>
      cases bytes with
      | nil => cases hWhole
      | cons byte bytes =>
          cases cut with
          | zero => rfl
          | succ cut =>
              rw [continuation] at hWhole
              rw [List.take_succ_cons, continuation]
              split_ifs at hWhole ⊢
              · exact ih hWhole (Nat.lt_of_succ_lt_succ hCut)
              · cases hWhole

/-- A character that is cut behind its first byte is one ill-formed part. -/
theorem piece_take {byte : UInt8} {tail : Bytes} {c : Char}
    (hWhole : piece byte tail = (some c, [])) {cut : Nat} (hCut : cut < tail.length) :
    piece byte (tail.take cut) = (none, []) := by
  cases hLead : lead? byte with
  | none =>
      rw [piece, hLead] at hWhole
      split_ifs at hWhole
      · obtain rfl : tail = [] := congrArg Prod.snd hWhole
        exact absurd hCut (Nat.not_lt_zero cut)
      · cases hWhole
  | some lead =>
      rw [piece_of_lead hLead] at hWhole ⊢
      cases hContinuation : continuation lead.follow lead.low lead.high lead.bits tail with
      | mk code left =>
          rw [hContinuation] at hWhole
          obtain rfl : left = [] := congrArg Prod.snd hWhole
          cases code with
          | none => cases hWhole
          | some code => rw [continuation_take hContinuation hCut, Option.map_none]

/-- What is left of a character that is cut is one ill-formed part. -/
theorem piecesAfter_take_encodeChar (found : List (Option Char)) (c : Char) {cut : Nat}
    (hCut : cut < (encodeChar c).length) :
    piecesAfter found ((encodeChar c).take cut) =
      found.reverse ++ if 0 < cut then [none] else [] := by
  obtain ⟨byte, tail, hBytes, hPiece⟩ := exists_encodeChar c
  have hWhole : piece byte tail = (some c, []) := by simpa using hPiece []
  rw [hBytes] at hCut ⊢
  cases cut with
  | zero => simp [piecesAfter]
  | succ cut =>
      rw [List.take_succ_cons, piecesAfter, piece_take hWhole (Nat.lt_of_succ_lt_succ hCut)]
      simp [piecesAfter]

/-- Of characters that are cut, those whose bytes fit are found, and one ill-formed part behind
them if there are bytes left. -/
theorem piecesAfter_take_flatMap (found : List (Option Char)) (room : Nat)
    (characters : List Char) :
    piecesAfter found ((characters.flatMap encodeChar).take room) =
      found.reverse ++ (fitting room characters).map some ++
        if room < (characters.flatMap encodeChar).length ∧
          ((fitting room characters).flatMap encodeChar).length < room then [none] else [] := by
  induction characters generalizing room found with
  | nil => simp [fitting, piecesAfter]
  | cons c characters ih =>
      rw [List.flatMap_cons]
      -- the cut is behind the first character or inside it
      by_cases hFits : (encodeChar c).length ≤ room
      · have hTake : (encodeChar c ++ characters.flatMap encodeChar).take room = encodeChar c ++
            (characters.flatMap encodeChar).take (room - (encodeChar c).length) := by
          rw [List.take_append, List.take_of_length_le hFits]
        rw [hTake, piecesAfter_encodeChar, ih, fitting_of_fits hFits, List.flatMap_cons,
          List.length_append, List.length_append]
        have hLeft (whole fits : Nat) :
            (room - (encodeChar c).length < whole ∧ fits < room - (encodeChar c).length) ↔
              (room < (encodeChar c).length + whole ∧ (encodeChar c).length + fits < room) := by
          omega
        rw [if_congr (hLeft _ _) rfl rfl]
        simp
      · have hCut : room < (encodeChar c).length := Nat.lt_of_not_le hFits
        have hTake : (encodeChar c ++ characters.flatMap encodeChar).take room =
            (encodeChar c).take room := List.take_append_of_le_length (Nat.le_of_lt hCut)
        have hLeft : (room < (encodeChar c ++ characters.flatMap encodeChar).length ∧
            (([] : List Char).flatMap encodeChar).length < room) ↔ 0 < room := by
          rw [List.length_append, List.flatMap_nil, List.length_nil]
          omega
        rw [hTake, piecesAfter_take_encodeChar found c hCut, fitting_of_not_fits hFits,
          if_congr hLeft rfl rfl, List.map_nil, List.append_nil]

end Utf8

namespace Slot

/-- What is legible of a text in a slot: all of it, or the longest beginning that is made of whole
characters and fits, with one U+FFFD behind it if it leaves bytes of the slot over. -/
def legible (width : Nat) (text : String) : String :=
  if (Utf8.encode text).length ≤ width then text
  else
    let front := Utf8.fitting width text.toList
    String.ofList (front ++
      if (front.flatMap Utf8.encodeChar).length < width then ['\ufffd'] else [])

theorem lossy_take_encode (text : String) (width : Nat) :
    Utf8.lossy ((Utf8.encode text).take width) = legible width text := by
  rw [legible]
  by_cases hFits : (Utf8.encode text).length ≤ width
  · rw [if_pos hFits, List.take_of_length_le hFits, Utf8.lossy_encode]
  · have hPieces := Utf8.piecesAfter_take_flatMap [] width text.toList
    have hCut : width < (text.toList.flatMap Utf8.encodeChar).length := Nat.lt_of_not_le hFits
    rw [if_neg hFits, Utf8.lossy, Utf8.pieces, Utf8.encode, hPieces]
    simp only [hCut, true_and]
    split_ifs <;> simp [Utf8.replacement, Function.comp_def]

/-- A text without the character of code zero is read back from a slot as far as it is legible. -/
theorem text_pad_encode {text : String} (hNul : '\x00' ∉ text.toList) (width : Nat) :
    Slot.text (pad (Utf8.encode text) width) = legible width text := by
  have hText : 0 ∉ Utf8.encode text := Utf8.not_mem_encode (by decide) hNul
  have hZero : 0 ∉ (Utf8.encode text).take width := fun hMem => hText (List.mem_of_mem_take hMem)
  have hBare : IsBare ((Utf8.encode text).take width) :=
    ⟨fun hHead => hZero (List.mem_of_head? hHead), fun hLast => hZero (List.mem_of_getLast? hLast)⟩
  rw [Slot.text, trim_pad, trim_of_isBare hBare, lossy_take_encode]

example : legible 2 "aé" = "a\ufffd" := by decide

end Slot

end DeviceLedger
