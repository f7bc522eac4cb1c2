import DeviceLedger.Json.Token
import DeviceLedger.Json.Value
import DeviceLedger.Proofs.HexText

/-! The text of a JSON value falls into the tokens of that value again. Strings are read back
through their escapes, and numbers of 64 bits digit by digit; what follows a number in the text of
a value never continues it. -/

namespace DeviceLedger.Json

/-! ### Strings -/

/-- The bytes of a character inside a string: a short escape, a code in hexadecimal, or the bytes
of the character where none of them means anything else. -/
inductive Escaped (c : Char) : Bytes → Prop
  | short {letter : UInt8} (plain : UInt8) (hLetter : shortEscape? letter = some plain)
      (hChar : Utf8.encodeChar c = [plain]) : Escaped c [0x5C, letter]
  | code {high low : UInt8} (hUnit : unit? 0x30 0x30 high low = some c.toNat)
      (hControl : c.toNat < 0x20) : Escaped c [0x5C, 0x75, 0x30, 0x30, high, low]
  | plain (hPlain : ∀ byte ∈ Utf8.encodeChar c, 0x20 ≤ byte ∧ byte ≠ 0x22 ∧ byte ≠ 0x5C) :
      Escaped c (Utf8.encodeChar c)

/-- The bytes of other characters are neither quotes nor backslashes nor control characters. -/
theorem plain_of_ordinary {c : Char} (hQuote : c ≠ '"') (hBackslash : c ≠ '\\')
    (hControl : ¬c.toNat < 0x20) {byte : UInt8} (hByte : byte ∈ Utf8.encodeChar c) :
    0x20 ≤ byte ∧ byte ≠ 0x22 ∧ byte ≠ 0x5C := by
  -- below 0x80 a byte is the code of its character, and none of the three is above
  by_cases hAscii : byte.toNat < 0x80
  · have hCode := Utf8.toNat_eq_of_mem_encodeChar hByte hAscii
    refine ⟨?_, ?_, ?_⟩
    · rw [UInt8.le_iff_toNat_le, hCode]
      exact Nat.le_of_not_lt hControl
    · rintro rfl
      exact hQuote (Char.toNat_inj.mp hCode.symm)
    · rintro rfl
      exact hBackslash (Char.toNat_inj.mp hCode.symm)
  · refine ⟨?_, ?_, ?_⟩
    · rw [UInt8.le_iff_toNat_le]
      exact Nat.le_trans (by decide) (Nat.le_of_not_lt hAscii)
    · rintro rfl
      exact hAscii (by decide)
    · rintro rfl
      exact hAscii (by decide)

theorem escaped_escapeChar (c : Char) : Escaped c ((escapeChar c).flatMap Utf8.encodeChar) := by
  rw [escapeChar]
  split_ifs with hQuote hBackslash hBackspace hFeed hLine hReturn hTab hControl
  · subst hQuote
    exact .short 0x22 rfl rfl
  · subst hBackslash
    exact .short 0x5C rfl rfl
  · obtain rfl : c = '\x08' := Char.toNat_inj.mp hBackspace
    exact .short 0x08 rfl rfl
  · obtain rfl : c = '\x0c' := Char.toNat_inj.mp hFeed
    exact .short 0x0C rfl rfl
  · subst hLine
    exact .short 0x0A rfl rfl
  · subst hReturn
    exact .short 0x0D rfl rfl
  · subst hTab
    exact .short 0x09 rfl rfl
  · obtain ⟨high, hHigh, hUpper⟩ := Hex.exists_byte_of_digit (show c.toNat / 16 < 16 by omega)
    obtain ⟨low, hLow, hLower⟩ := Hex.exists_byte_of_digit (show c.toNat % 16 < 16 by omega)
    have hZero : Hex.digitValue? 0x30 = some 0 := rfl
    have hUnit : unit? 0x30 0x30 high low = some c.toNat := by
      simp only [unit?, hZero, hUpper, hLower, Option.bind_eq_bind, Option.bind_some,
        Option.pure_def, Option.some.injEq]
      omega
    simp only [List.flatMap_cons, List.flatMap_nil, hHigh, hLow]
    exact .code hUnit hControl
  · simp only [List.flatMap_cons, List.flatMap_nil, List.append_nil]
    exact .plain fun byte hByte => plain_of_ordinary hQuote hBackslash hControl hByte

theorem ne_of_shortEscape? {letter plain : UInt8} (hLetter : shortEscape? letter = some plain) :
    letter ≠ 0x75 := by
  rintro rfl
  cases hLetter

theorem scanText_plain {written : Bytes}
    (hPlain : ∀ byte ∈ written, 0x20 ≤ byte ∧ byte ≠ 0x22 ∧ byte ≠ 0x5C) (found rest : Bytes) :
    scanText found (written ++ rest) = scanText (written.reverse ++ found) rest := by
  induction written generalizing found with
  | nil => rfl
  | cons byte written ih =>
      obtain ⟨⟨hControl, hQuote, hBackslash⟩, hRest⟩ := List.forall_mem_cons.mp hPlain
      rw [List.cons_append, scanText, if_neg, ih hRest, List.reverse_cons, List.append_assoc,
        List.singleton_append]
      · exact not_or.mpr ⟨UInt8.not_lt.mpr hControl, hBackslash⟩
      · exact hQuote
      · rintro a b c d rest rfl
        exact absurd rfl hBackslash
      · rintro byte' rest rfl
        exact absurd rfl hBackslash

/-- The bytes of a character are taken as a whole. -/
theorem scanText_escaped {c : Char} {written : Bytes} (hEscaped : Escaped c written)
    (found rest : Bytes) :
    scanText found (written ++ rest) = scanText (written.reverse ++ found) rest := by
  cases hEscaped with
  | short plain hLetter hChar =>
      rw [List.cons_append, List.singleton_append, scanText, hLetter]
      · rfl
      · rintro a b c d rest rfl
        exact absurd rfl (ne_of_shortEscape? hLetter)
  | code hUnit hControl =>
      change scanText found (0x5C :: 0x75 :: 0x30 :: 0x30 :: _ :: _ :: rest) = _
      rw [scanText, hUnit]
      rfl
  | plain hPlain => exact scanText_plain hPlain found rest

theorem unescapeBytes_plain {written : Bytes} (hPlain : ∀ byte ∈ written, byte ≠ 0x5C)
    (found rest : Bytes) :
    unescapeBytes found (written ++ rest) = unescapeBytes (written.reverse ++ found) rest := by
  induction written generalizing found with
  | nil => rfl
  | cons byte written ih =>
      obtain ⟨hBackslash, hRest⟩ := List.forall_mem_cons.mp hPlain
      rw [List.cons_append, unescapeBytes, ih hRest, List.reverse_cons, List.append_assoc,
        List.singleton_append]
      · rintro a b c d rest rfl
        exact absurd rfl hBackslash
      · rintro byte' rest rfl
        exact absurd rfl hBackslash

/-- The bytes of a character stand for that character. -/
theorem unescapeBytes_escaped {c : Char} {written : Bytes} (hEscaped : Escaped c written)
    (found rest : Bytes) :
    unescapeBytes found (written ++ rest) =
      unescapeBytes ((Utf8.encodeChar c).reverse ++ found) rest := by
  cases hEscaped with
  | short plain hLetter hChar =>
      rw [List.cons_append, List.singleton_append, unescapeBytes, hLetter, hChar]
      · rfl
      · rintro a b c d rest rfl
        exact absurd rfl (ne_of_shortEscape? hLetter)
  | code hUnit hControl =>
      change unescapeBytes found (0x5C :: 0x75 :: 0x30 :: 0x30 :: _ :: _ :: rest) = _
      rw [unescapeBytes, hUnit]
      dsimp only
      rw [if_pos (.inl (by omega)), Char.ofNat_toNat]
  | plain hPlain => exact unescapeBytes_plain (fun byte hByte => (hPlain byte hByte).2.2) found rest

/-- The bytes of a text inside a string. -/
def inside (text : String) : Bytes :=
  (text.toList.flatMap escapeChar).flatMap Utf8.encodeChar

theorem scanText_inside (text : String) (rest : Bytes) :
    scanText [] (inside text ++ 0x22 :: rest) = some (inside text, rest) := by
  have hAll (characters : List Char) (found : Bytes) :
      scanText found ((characters.flatMap escapeChar).flatMap Utf8.encodeChar ++ 0x22 :: rest) =
        some (found.reverse ++ (characters.flatMap escapeChar).flatMap Utf8.encodeChar, rest) := by
    induction characters generalizing found with
    | nil => simp [scanText]
    | cons c characters ih =>
        rw [List.flatMap_cons, List.flatMap_append, List.append_assoc,
          scanText_escaped (escaped_escapeChar c), ih]
        simp
  exact hAll text.toList []

/-- A text is read back from the inside of its string. -/
theorem unescape_inside (text : String) : unescape (inside text) = some text := by
  have hAll (characters : List Char) (found : Bytes) :
      unescapeBytes found ((characters.flatMap escapeChar).flatMap Utf8.encodeChar) =
        some (found.reverse ++ characters.flatMap Utf8.encodeChar) := by
    induction characters generalizing found with
    | nil => simp [unescapeBytes]
    | cons c characters ih =>
        rw [List.flatMap_cons, List.flatMap_append,
          unescapeBytes_escaped (escaped_escapeChar c), ih]
        simp
  have hBytes : unescapeBytes [] (inside text) = some (Utf8.encode text) := hAll text.toList []
  rw [unescape, hBytes, Option.bind_some, Utf8.strict?_encode]

/-! ### Numbers -/

/-- What may follow a value: the end of the text, or what ends an item or what it stands in. -/
inductive AtEnd : Bytes → Prop
  | text : AtEnd []
  | item (rest : Bytes) : AtEnd (0x2C :: rest)
  | list (rest : Bytes) : AtEnd (0x5D :: rest)
  | object (rest : Bytes) : AtEnd (0x7D :: rest)

theorem AtEnd.takeWhile_isDigit {rest : Bytes} (hEnd : AtEnd rest) :
    rest.takeWhile isDigit = [] ∧ rest.dropWhile isDigit = rest := by
  cases hEnd <;> exact ⟨rfl, rfl⟩

/-- The digits of a number. -/
def decimal (number : Nat) : Bytes := (Nat.toDigits 10 number).flatMap Utf8.encodeChar

theorem encodeChar_digitChar {digit : Nat} (hDigit : digit < 10) :
    Utf8.encodeChar digit.digitChar = [UInt8.ofNat (0x30 + digit)] := by
  interval_cases digit <;> rfl

theorem isDigit_ofNat {digit : Nat} (hDigit : digit < 10) :
    isDigit (UInt8.ofNat (0x30 + digit)) = true := by
  interval_cases digit <;> rfl

theorem decimal_of_lt {number : Nat} (hDigit : number < 10) :
    decimal number = [UInt8.ofNat (0x30 + number)] := by
  rw [decimal, Nat.toDigits_of_lt_base hDigit, List.flatMap_singleton, encodeChar_digitChar hDigit]

theorem decimal_of_le {number : Nat} (hLong : 10 ≤ number) :
    decimal number = decimal (number / 10) ++ [UInt8.ofNat (0x30 + number % 10)] := by
  rw [decimal, Nat.toDigits_of_base_le (by decide) hLong, List.flatMap_append,
    List.flatMap_singleton, encodeChar_digitChar (Nat.mod_lt _ (by decide)), decimal]

/-- A number begins with a zero only if it is zero. -/
theorem exists_decimal (number : Nat) :
    ∃ digit rest, digit < 10 ∧ decimal number = UInt8.ofNat (0x30 + digit) :: rest ∧
      (∀ byte ∈ rest, isDigit byte = true) ∧ (digit = 0 → number = 0) := by
  induction number using Nat.strong_induction_on with
  | _ number ih =>
      by_cases hDigit : number < 10
      · exact ⟨number, [], hDigit, decimal_of_lt hDigit, by simp, id⟩
      · obtain ⟨digit, rest, hFirst, hBytes, hRest, hZero⟩ := ih (number / 10) (by omega)
        refine ⟨digit, rest ++ [UInt8.ofNat (0x30 + number % 10)], hFirst, ?_, ?_, ?_⟩
        · rw [decimal_of_le (by omega), hBytes, List.cons_append]
        · intro byte hByte
          rcases List.mem_append.mp hByte with hByte | hByte
          · exact hRest byte hByte
          · rw [List.mem_singleton.mp hByte]
            exact isDigit_ofNat (Nat.mod_lt _ (by decide))
        · intro hDigit
          have hSmall := hZero hDigit
          omega

/-- Bytes that were all read leave it to what follows them. -/
theorem readFitting_append {digits count number : Nat} {bytes : Bytes}
    (hRead : readFitting digits count bytes = (number, count + bytes.length)) (rest : Bytes) :
    readFitting digits count (bytes ++ rest) = readFitting number (count + bytes.length) rest := by
  induction bytes generalizing digits count with
  | nil =>
      obtain ⟨rfl, -⟩ := Prod.mk.inj hRead
      rfl
  | cons byte bytes ih =>
      have hCount : count + (byte :: bytes).length = count + 1 + bytes.length := by
        rw [List.length_cons]
        omega
      rw [hCount] at hRead ⊢
      rw [List.cons_append, readFitting]
      rw [readFitting] at hRead
      split
      · rename_i hFits
        rw [if_pos hFits] at hRead
        exact ih hRead
      · rename_i hFits
        rw [if_neg hFits] at hRead
        have hStopped := (Prod.mk.inj hRead).2
        omega

/-- A number of 64 bits is read back from its digits. -/
theorem readFitting_decimal {number : Nat} (hFits : number < UInt64.size) :
    readFitting 0 0 (decimal number) = (number, (decimal number).length) := by
  have hStep {digits count digit : Nat} (hDigit : digit < 10)
      (hFits : digits * 10 + digit < UInt64.size) :
      readFitting digits count [UInt8.ofNat (0x30 + digit)] = (digits * 10 + digit, count + 1) := by
    have hByte : (UInt8.ofNat (0x30 + digit)).toNat - 0x30 = digit := by
      rw [UInt8.toNat_ofNat_of_lt' (show 0x30 + digit < 256 by omega)]
      omega
    simp only [readFitting, hByte, if_pos hFits]
  induction number using Nat.strong_induction_on with
  | _ number ih =>
      by_cases hDigit : number < 10
      · rw [decimal_of_lt hDigit, hStep hDigit (by omega)]
        simp
      · have hFront := ih (number / 10) (by omega) (by omega)
        have hNumber : number / 10 * 10 + number % 10 = number := by omega
        rw [decimal_of_le (by omega), readFitting_append (by rw [hFront, Nat.zero_add]),
          hStep (Nat.mod_lt _ (by decide)) (by omega), hNumber]
        simp

theorem scanWhole_decimal (number : Nat) {rest : Bytes} (hEnd : AtEnd rest) :
    scanWhole (decimal number ++ rest) = some (decimal number, rest) := by
  obtain ⟨digit, digits, hDigit, hBytes, hDigits, hZero⟩ := exists_decimal number
  obtain ⟨hTake, hDrop⟩ := hEnd.takeWhile_isDigit
  by_cases hFirst : digit = 0
  -- a whole part that begins with a zero ends there, so the number has to be zero
  · have hAlone : decimal number = [0x30] := by
      rw [hZero hFirst]
      rfl
    rw [hAlone]
    cases hEnd <;> rfl
  · have hByte : UInt8.ofNat (0x30 + digit) ≠ 0x30 := by
      interval_cases digit <;> first | exact absurd rfl hFirst | decide
    rw [hBytes, List.cons_append, scanWhole.eq_def]
    simp only [if_neg hByte, isDigit_ofNat hDigit, ↓reduceIte,
      List.takeWhile_append_of_pos hDigits, List.dropWhile_append_of_pos hDigits, hTake, hDrop,
      List.append_nil]

theorem scanNumber_decimal (negative : Bool) {number : Nat} (hFits : number < UInt64.size)
    {rest : Bytes} (hEnd : AtEnd rest) :
    scanNumber negative (decimal number ++ rest) = some (⟨negative, number, 0, true⟩, rest) := by
  have hFraction : scanFraction rest = some ([], rest) := by cases hEnd <;> rfl
  have hExponent : scanExponent rest = some (none, rest) := by cases hEnd <;> rfl
  have hParts :
      Numeral.ofParts negative (decimal number) [] none = ⟨negative, number, 0, true⟩ := by
    simp [Numeral.ofParts, readFitting_decimal hFits, readFitting]
  simp [scanNumber, scanWhole_decimal number hEnd, hFraction, hExponent, hParts]

/-! ### Values -/

/-- Bytes that fall into the given tokens, without blanks between them. -/
inductive Lexes : Bytes → List Token → Prop
  | nil : Lexes [] []
  | cons {byte : UInt8} (written : Bytes) {rest : Bytes} {token : Token} {tokens : List Token}
      (hBlank : isSpace byte = false)
      (hToken : scanToken (byte :: (written ++ rest)) = some (token, rest))
      (hRest : Lexes rest tokens) : Lexes (byte :: (written ++ rest)) (token :: tokens)

/-- A sign of one byte. -/
theorem Lexes.sign {byte : UInt8} {token : Token} (hBlank : isSpace byte = false)
    (hToken : ∀ rest, scanToken (byte :: rest) = some (token, rest)) {rest : Bytes}
    {tokens : List Token} (hRest : Lexes rest tokens) :
    Lexes (byte :: rest) (token :: tokens) :=
  .cons [] hBlank (hToken rest) hRest

theorem Lexes.tokens_eq {bytes : Bytes} {found : List Token} (hLexes : Lexes bytes found) :
    tokens bytes = found := by
  -- every token takes a byte at least, so that the length of the text is fuel enough
  have hAfter (earlier : List Token) (fuel : Nat) (hFuel : bytes.length ≤ fuel) :
      tokensAfter fuel earlier bytes = earlier.reverse ++ found := by
    induction hLexes generalizing earlier fuel with
    | nil => cases fuel <;> simp [tokensAfter]
    | @cons byte written rest token tokens hBlank hToken hRest ih =>
        rw [List.length_cons, List.length_append] at hFuel
        cases fuel with
        | zero => omega
        | succ fuel =>
            rw [tokensAfter, hBlank, hToken]
            simp [ih (token :: earlier) fuel (by omega)]
  exact hAfter [] bytes.length le_rfl

/-- A string is one token. -/
theorem Lexes.quote (text : String) {rest : Bytes} {tokens : List Token}
    (hRest : Lexes rest tokens) :
    Lexes ((quote text).flatMap Utf8.encodeChar ++ rest) (.text (inside text) :: tokens) := by
  have hQuote : (Json.quote text).flatMap Utf8.encodeChar ++ rest =
      0x22 :: (inside text ++ [0x22] ++ rest) := by
    rw [Json.quote, List.flatMap_cons, List.flatMap_append]
    rfl
  rw [hQuote]
  refine .cons _ rfl ?_ hRest
  change (scanText [] (inside text ++ [0x22] ++ rest)).map _ = _
  rw [List.append_assoc, List.singleton_append, scanText_inside]
  rfl

mutual

/-- The tokens of a value. -/
def lexemes : Json → List Token
  | null => [.null]
  | flag value => [.flag value]
  | number value => [.number ⟨decide (value < 0), value.natAbs, 0, true⟩]
  | text value => [.text (inside value)]
  | list [] => [.openList, .closeList]
  | list (item :: items) => .openList :: (lexemes item ++ itemLexemes items)
  | object [] => [.openObject, .closeObject]
  | object ((name, value) :: members) =>
    .openObject :: .text (inside name) :: .colon :: (lexemes value ++ memberLexemes members)

/-- The tokens of the items of a list behind its first, and of the closing bracket. -/
def itemLexemes : List Json → List Token
  | [] => [.closeList]
  | item :: items => .comma :: (lexemes item ++ itemLexemes items)

/-- The tokens of the members of an object behind its first, and of the closing brace. -/
def memberLexemes : List (String × Json) → List Token
  | [] => [.closeObject]
  | (name, value) :: members =>
    .comma :: .text (inside name) :: .colon :: (lexemes value ++ memberLexemes members)

end

/-- A value whose text falls into its tokens, whatever follows it. -/
def Lexed (value : Json) : Prop :=
  ∀ {rest : Bytes} {tokens : List Token}, AtEnd rest → Lexes rest tokens →
    Lexes (value.render.flatMap Utf8.encodeChar ++ rest) (value.lexemes ++ tokens)

theorem lexed_flag (value : Bool) : (flag value).Lexed := by
  intro rest tokens hEnd hRest
  cases value with
  | false => exact .cons [0x61, 0x6C, 0x73, 0x65] rfl rfl hRest
  | true => exact .cons [0x72, 0x75, 0x65] rfl rfl hRest

theorem lexed_text (value : String) : (text value).Lexed := by
  intro rest tokens hEnd hRest
  rw [render, lexemes]
  exact .quote value hRest

/-- A number of 64 bits and a sign. -/
theorem lexed_number {value : Int} (hFits : value.natAbs < UInt64.size) : (number value).Lexed := by
  intro rest tokens hEnd hRest
  rw [render, lexemes]
  cases value with
  | ofNat value =>
      obtain ⟨digit, digits, hDigit, hBytes, -, -⟩ := exists_decimal value
      have hScan := scanNumber_decimal false hFits hEnd
      change Lexes (decimal value ++ rest) _
      change scanNumber false (decimal value ++ rest) = _ at hScan
      rw [hBytes, List.cons_append] at hScan ⊢
      have hBlank : isSpace (UInt8.ofNat (0x30 + digit)) = false := by
        interval_cases digit <;> rfl
      refine .cons _ hBlank ?_ hRest
      have hToken : scanToken (UInt8.ofNat (0x30 + digit) :: (digits ++ rest)) =
          (scanNumber false (UInt8.ofNat (0x30 + digit) :: (digits ++ rest))).map
            fun found => (.number found.1, found.2) := by
        interval_cases digit <;> rfl
      rw [hToken, hScan]
      rfl
  | negSucc value =>
      have hFits : value + 1 < UInt64.size := hFits
      have hScan := scanNumber_decimal true hFits hEnd
      change Lexes (0x2D :: (decimal (value + 1) ++ rest)) _
      refine .cons _ rfl ?_ hRest
      change (scanNumber true (decimal (value + 1) ++ rest)).map _ = _
      rw [hScan, decide_eq_true (Int.negSucc_lt_zero value)]
      rfl

/-- The items behind the first end it, and fall into their tokens. -/
theorem lexes_renderItems {items : List Json} (hItems : ∀ item ∈ items, item.Lexed) {rest : Bytes}
    {tokens : List Token} (hRest : Lexes rest tokens) :
    AtEnd ((renderItems items).flatMap Utf8.encodeChar ++ rest) ∧
      Lexes ((renderItems items).flatMap Utf8.encodeChar ++ rest)
        (itemLexemes items ++ tokens) := by
  induction items with
  | nil => exact ⟨.list rest, .sign rfl (fun _ => rfl) hRest⟩
  | cons item items ih =>
      obtain ⟨hItem, hItems⟩ := List.forall_mem_cons.mp hItems
      obtain ⟨hNextEnd, hNext⟩ := ih hItems
      rw [renderItems, itemLexemes]
      simp only [List.flatMap_cons, List.flatMap_append, List.append_assoc, List.cons_append]
      exact ⟨.item _, .sign rfl (fun _ => rfl) (hItem hNextEnd hNext)⟩

theorem lexed_list {items : List Json} (hItems : ∀ item ∈ items, item.Lexed) :
    (list items).Lexed := by
  intro rest tokens hEnd hRest
  cases items with
  | nil => exact .sign rfl (fun _ => rfl) (.sign rfl (fun _ => rfl) hRest)
  | cons item items =>
      obtain ⟨hItem, hItems⟩ := List.forall_mem_cons.mp hItems
      obtain ⟨hNextEnd, hNext⟩ := lexes_renderItems hItems hRest
      rw [render, lexemes]
      simp only [List.flatMap_cons, List.flatMap_append, List.append_assoc, List.cons_append]
      exact .sign rfl (fun _ => rfl) (hItem hNextEnd hNext)

/-- The members behind the first end its value, and fall into their tokens. -/
theorem lexes_renderMembers {members : List (String × Json)}
    (hMembers : ∀ member ∈ members, member.2.Lexed) {rest : Bytes} {tokens : List Token}
    (hRest : Lexes rest tokens) :
    AtEnd ((renderMembers members).flatMap Utf8.encodeChar ++ rest) ∧
      Lexes ((renderMembers members).flatMap Utf8.encodeChar ++ rest)
        (memberLexemes members ++ tokens) := by
  induction members with
  | nil => exact ⟨.object rest, .sign rfl (fun _ => rfl) hRest⟩
  | cons member members ih =>
      obtain ⟨hMember, hMembers⟩ := List.forall_mem_cons.mp hMembers
      obtain ⟨hNextEnd, hNext⟩ := ih hMembers
      obtain ⟨name, value⟩ := member
      rw [renderMembers, memberLexemes]
      simp only [List.flatMap_cons, List.flatMap_append, List.append_assoc, List.cons_append]
      exact ⟨.item _, .sign rfl (fun _ => rfl)
        (.quote name (.sign rfl (fun _ => rfl) (hMember hNextEnd hNext)))⟩

theorem lexed_object {members : List (String × Json)}
    (hMembers : ∀ member ∈ members, member.2.Lexed) : (object members).Lexed := by
  intro rest tokens hEnd hRest
  cases members with
  | nil => exact .sign rfl (fun _ => rfl) (.sign rfl (fun _ => rfl) hRest)
  | cons member members =>
      obtain ⟨hMember, hMembers⟩ := List.forall_mem_cons.mp hMembers
      obtain ⟨hNextEnd, hNext⟩ := lexes_renderMembers hMembers hRest
      obtain ⟨name, value⟩ := member
      rw [render, lexemes]
      simp only [List.flatMap_cons, List.flatMap_append, List.append_assoc, List.cons_append]
      exact .sign rfl (fun _ => rfl)
        (.quote name (.sign rfl (fun _ => rfl) (hMember hNextEnd hNext)))

/-- The text of a value falls into the tokens of the value. -/
theorem tokens_compact {value : Json} (hLexed : value.Lexed) :
    tokens (Utf8.encode value.compact) = value.lexemes := by
  have hLexes := hLexed .text .nil
  rw [List.append_nil, List.append_nil] at hLexes
  rw [Utf8.encode, compact, String.toList_ofList]
  exact hLexes.tokens_eq

end DeviceLedger.Json
