import Countersign.Hex.Checked
import Countersign.Proofs.Result

/-!
Hexadecimal text is read as the bytes that were written, in either case and with or without its
mark. A text is read just if it is made of pairs of digits after one mark at most; one that is
refused is refused for the first reason there is: a digit without a second one, a byte that is no
digit, or the number of bytes.
-/

namespace Countersign.Hex

/-- A character is a digit in either case. -/
def EitherCase (character digit : Char) : Prop :=
  character = digit ∨ character = digit.toUpper

/-- The digits of a byte string, each in either case. -/
inductive SpellsDigits : Bytes → List Char → Prop
  | nil : SpellsDigits [] []
  | cons {byte : UInt8} {bytes : Bytes} {high low : Char} {text : List Char} :
      EitherCase high (digit (byte.toNat / 16)) → EitherCase low (digit (byte.toNat % 16)) →
      SpellsDigits bytes text → SpellsDigits (byte :: bytes) (high :: low :: text)

/-- A text spells a byte string by its digits, after one mark at most. -/
def Spells (bytes : Bytes) (text : String) : Prop :=
  ∃ mark ∈ [[], ['0', 'x'], ['0', 'X']], ∃ characters,
    text.toList = mark ++ characters ∧ SpellsDigits bytes characters

theorem spellsDigits_digits (bytes : Bytes) : SpellsDigits bytes (digits bytes) := by
  induction bytes with
  | nil => exact .nil
  | cons byte bytes inductionHypothesis => exact .cons (.inl rfl) (.inl rfl) inductionHypothesis

theorem spells_encode (bytes : Bytes) : Spells bytes (encode bytes) :=
  ⟨['0', 'x'], by simp, digits bytes, String.toList_ofList, spellsDigits_digits bytes⟩

/-- The byte of a character below 128. -/
def byteOf (character : Char) : UInt8 :=
  UInt8.ofNat character.toNat

/-- The bytes of a text are those of its characters, one behind the other. -/
theorem toUTF8_eq (text : String) :
    text.toUTF8.data.toList = text.toList.flatMap String.utf8EncodeChar := by
  have encoded : text.toUTF8 = text.toList.utf8Encode := by
    rw [← String.toByteArray_ofList, String.ofList_toList, String.toUTF8]
  rw [encoded, List.utf8Encode, List.data_toByteArray]

theorem toUTF8_of_ascii {text : String} (ascii : ∀ character ∈ text.toList, character.toNat < 128) :
    text.toUTF8.data.toList = text.toList.map byteOf := by
  rw [toUTF8_eq]
  generalize text.toList = characters at ascii
  induction characters with
  | nil => rfl
  | cons character characters inductionHypothesis =>
      obtain ⟨low, later⟩ := List.forall_mem_cons.mp ascii
      have single : String.utf8EncodeChar character = [byteOf character] := by
        have small : character.val.toNat ≤ 127 := Nat.le_of_lt_succ low
        rw [String.utf8EncodeChar, if_pos small]
        rfl
      simpa [single] using inductionHypothesis later

/-- What is known of the character of a digit, in either case. -/
structure IsDigit (character : Char) (value : Nat) : Prop where
  ascii : character.toNat < 128
  unmarked : byteOf character ≠ 0x78 ∧ byteOf character ≠ 0x58
  value : value? (byteOf character) = some value

theorem isDigit_of_eitherCase {character : Char} {value : Nat} (small : value < 16)
    (cased : EitherCase character (digit value)) : IsDigit character value := by
  have lower : ∀ value < 16, (digit value).toNat < 128 ∧
      (byteOf (digit value) ≠ 0x78 ∧ byteOf (digit value) ≠ 0x58) ∧
      value? (byteOf (digit value)) = some value := by decide
  have upper : ∀ value < 16, (digit value).toUpper.toNat < 128 ∧
      (byteOf (digit value).toUpper ≠ 0x78 ∧ byteOf (digit value).toUpper ≠ 0x58) ∧
      value? (byteOf (digit value).toUpper) = some value := by decide
  rcases cased with rfl | rfl
  · obtain ⟨ascii, unmarked, known⟩ := lower value small
    exact ⟨ascii, unmarked, known⟩
  · obtain ⟨ascii, unmarked, known⟩ := upper value small
    exact ⟨ascii, unmarked, known⟩

section Digits

variable {bytes : Bytes} {text : List Char}

theorem SpellsDigits.ascii (spelled : SpellsDigits bytes text) :
    ∀ character ∈ text, character.toNat < 128 := by
  induction spelled with
  | nil => simp
  | @cons byte bytes high low text isHigh isLow _ inductionHypothesis =>
      have first := isDigit_of_eitherCase (by have := byte.toNat_lt; omega) isHigh
      have second := isDigit_of_eitherCase (Nat.mod_lt _ (by decide)) isLow
      simpa using ⟨first.ascii, second.ascii, inductionHypothesis⟩

theorem SpellsDigits.length (spelled : SpellsDigits bytes text) :
    text.length = 2 * bytes.length := by
  induction spelled with
  | nil => rfl
  | cons _ _ _ inductionHypothesis =>
      simp only [List.length_cons, inductionHypothesis]
      omega

theorem SpellsDigits.decodePairs (spelled : SpellsDigits bytes text) (index : Nat) :
    Hex.decodePairs index (text.map byteOf) = .ok bytes := by
  induction spelled generalizing index with
  | nil => rfl
  | @cons byte bytes high low text isHigh isLow _ inductionHypothesis =>
      have first := isDigit_of_eitherCase (by have := byte.toNat_lt; omega) isHigh
      have second := isDigit_of_eitherCase (Nat.mod_lt _ (by decide)) isLow
      have whole : UInt8.ofNat (16 * (byte.toNat / 16) + byte.toNat % 16) = byte := by
        rw [Nat.div_add_mod, UInt8.ofNat_toNat]
      simp [Hex.decodePairs, first.value, second.value, inductionHypothesis, whole, Except.map]

theorem SpellsDigits.dropMark (spelled : SpellsDigits bytes text) :
    Hex.dropMark (text.map byteOf) = text.map byteOf := by
  cases spelled with
  | nil => rfl
  | @cons byte bytes high low text isHigh isLow _ =>
      have second := isDigit_of_eitherCase (Nat.mod_lt _ (by decide)) isLow
      rw [List.map_cons, List.map_cons, Hex.dropMark]
      · intro _ marked
        exact second.unmarked.1 (List.cons.inj (List.cons.inj marked).2).1
      · intro _ marked
        exact second.unmarked.2 (List.cons.inj (List.cons.inj marked).2).1

/-- Reading gives the bytes that a text spells. -/
theorem decode_of_spells {text : String} (spelled : Spells bytes text) :
    decode text = .ok bytes := by
  obtain ⟨mark, marked, characters, split, spelled⟩ := spelled
  have asciiMark : ∀ mark ∈ [[], ['0', 'x'], ['0', 'X']], ∀ character ∈ mark,
      character.toNat < 128 := by simp
  have ascii : ∀ character ∈ text.toList, character.toNat < 128 := by
    rw [split]
    intro character among
    exact (List.mem_append.mp among).elim (asciiMark mark marked character)
      (spelled.ascii character)
  have unmarked : dropMark (text.toUTF8.data.toList) = characters.map byteOf := by
    rw [toUTF8_of_ascii ascii, split, List.map_append]
    simp only [List.mem_cons, List.not_mem_nil, or_false] at marked
    rcases marked with rfl | rfl | rfl
    · exact spelled.dropMark
    · rfl
    · rfl
  rw [decode, unmarked, decodeDigits, List.length_map, spelled.length]
  simp [spelled.decodePairs]

theorem decode_encode (bytes : Bytes) : decode (encode bytes) = .ok bytes :=
  decode_of_spells (spells_encode bytes)

end Digits

variable {text : String} {bytes : Bytes}

/-- A byte below 128 is a whole character. -/
theorem utf8EncodeChar_of_low {character : Char} {byte : UInt8} {later : Bytes}
    (low : byte.toNat < 128) (starts : String.utf8EncodeChar character = byte :: later) :
    character = Char.ofNat byte.toNat ∧ later = [] := by
  rw [String.utf8EncodeChar] at starts
  by_cases small : character.val.toNat ≤ 127
  · rw [if_pos small] at starts
    obtain ⟨rfl, rfl⟩ := List.cons.inj starts
    refine ⟨?_, rfl⟩
    rw [UInt8.toNat_ofNat', Nat.mod_eq_of_lt (by omega)]
    exact (Char.ofNat_toNat character).symm
  · have first : byte.toNat = character.val.toNat / 64 % 32 + 192 ∨
        byte.toNat = character.val.toNat / 4096 % 16 + 224 ∨
        byte.toNat = character.val.toNat / 262144 % 8 + 240 := by
      rw [if_neg small] at starts
      split at starts
      · rw [← (List.cons.inj starts).1, UInt8.toNat_ofNat']
        omega
      · split at starts
        · rw [← (List.cons.inj starts).1, UInt8.toNat_ofNat']
          omega
        · rw [← (List.cons.inj starts).1, UInt8.toNat_ofNat']
          omega
    omega

theorem exists_cons_of_low {characters : List Char} {byte : UInt8} {later : Bytes}
    (low : byte.toNat < 128) (starts : characters.flatMap String.utf8EncodeChar = byte :: later) :
    ∃ rest, characters = Char.ofNat byte.toNat :: rest ∧
      rest.flatMap String.utf8EncodeChar = later := by
  cases characters with
  | nil => cases starts
  | cons character rest =>
      rw [List.flatMap_cons] at starts
      cases encoded : String.utf8EncodeChar character with
      | nil => exact absurd encoded String.utf8EncodeChar_ne_nil
      | cons first others =>
          rw [encoded, List.cons_append] at starts
          obtain ⟨rfl, rfl⟩ := List.cons.inj starts
          obtain ⟨rfl, rfl⟩ := utf8EncodeChar_of_low low encoded
          exact ⟨rest, rfl, rfl⟩

/-- A text without its mark. One mark is taken off, and no second one. -/
def unmarked (text : String) : String :=
  match text.toList with
  | '0' :: 'x' :: rest => String.ofList rest
  | '0' :: 'X' :: rest => String.ofList rest
  | _ => text

theorem exists_mark (text : String) :
    ∃ mark ∈ [[], ['0', 'x'], ['0', 'X']], text.toList = mark ++ (unmarked text).toList := by
  unfold unmarked
  split
  case h_1 rest marked => exact ⟨['0', 'x'], by simp, by simp [marked]⟩
  case h_2 rest marked => exact ⟨['0', 'X'], by simp, by simp [marked]⟩
  case h_3 => exact ⟨[], by simp, rfl⟩

/-- A mark is found in the bytes of a text where it is in its characters. -/
theorem dropMark_toUTF8 (text : String) :
    dropMark text.toUTF8.data.toList = (unmarked text).toUTF8.data.toList := by
  rw [toUTF8_eq, toUTF8_eq]
  generalize read : text.toList.flatMap String.utf8EncodeChar = bytes
  unfold dropMark
  split
  case h_1 rest =>
    obtain ⟨behind, first, read⟩ := exists_cons_of_low (by decide) read
    obtain ⟨behind, second, rfl⟩ := exists_cons_of_low (by decide) read
    have marked : text.toList = '0' :: 'x' :: behind := by rw [first, second]; rfl
    simp [unmarked, marked]
  case h_2 rest =>
    obtain ⟨behind, first, read⟩ := exists_cons_of_low (by decide) read
    obtain ⟨behind, second, rfl⟩ := exists_cons_of_low (by decide) read
    have marked : text.toList = '0' :: 'X' :: behind := by rw [first, second]; rfl
    simp [unmarked, marked]
  case h_3 lower upper =>
    rw [← read]
    unfold unmarked
    split
    case h_1 rest marked => 
      rw [marked] at read
      exact absurd read.symm (lower _)
    case h_2 rest marked =>
      rw [marked] at read
      exact absurd read.symm (upper _)
    case h_3 => rfl

/-! ## Runs of digits -/

/-- The bytes that stand for digits. -/
def digitBytes : Bytes :=
  "0123456789abcdefABCDEF".toList.map byteOf

/-- A byte has a value if it stands for a digit. -/
theorem value?_eq_none_iff (byte : UInt8) : value? byte = none ↔ byte ∉ digitBytes := by
  have all : ∀ byte : Fin 256, value? (UInt8.ofNat byte) = none ↔
      UInt8.ofNat byte ∉ digitBytes := by
    decide +kernel
  simpa using all ⟨byte.toNat, byte.toNat_lt⟩

/-- The value that a byte has is that of a digit which it stands for, in one of the cases. -/
theorem exists_eitherCase {byte : UInt8} {value : Nat} (known : value? byte = some value) :
    value < 16 ∧ ∃ character, EitherCase character (digit value) ∧ byteOf character = byte := by
  have all : ∀ byte : Fin 256, ∀ value < 16, value? (UInt8.ofNat byte) = some value →
      byteOf (digit value) = UInt8.ofNat byte ∨
        byteOf (digit value).toUpper = UInt8.ofNat byte := by
    decide +kernel
  have small : value < 16 := by
    unfold value? at known
    grind
  have stands := all ⟨byte.toNat, byte.toNat_lt⟩ value small
  rw [UInt8.ofNat_toNat] at stands
  refine ⟨small, ?_⟩
  rcases stands known with lower | upper
  · exact ⟨digit value, .inl rfl, lower⟩
  · exact ⟨(digit value).toUpper, .inr rfl, upper⟩

theorem exists_value {byte : UInt8} (good : byte ∈ digitBytes) :
    ∃ value, value? byte = some value :=
  Option.ne_none_iff_exists'.mp fun unknown => (value?_eq_none_iff byte).mp unknown good

/-- Only bytes that spell digits are read, two for each byte that they denote. -/
theorem exists_spellsDigits {digits : Bytes} {index : Nat} (even : digits.length % 2 = 0)
    (read : decodePairs index digits = .ok bytes) :
    ∃ characters, SpellsDigits bytes characters ∧ characters.map byteOf = digits := by
  fun_induction decodePairs index digits generalizing bytes with
  | case1 =>
      cases read
      exact ⟨[], .nil, rfl⟩
  | case2 => simp at even
  | case3 index high low rest h l isLow isHigh inductionHypothesis =>
      obtain ⟨bytes, readRest, rfl⟩ := Result.map_eq_ok read
      have evenRest : rest.length % 2 = 0 := by
        simp only [List.length_cons] at even
        omega
      obtain ⟨characters, spelled, rfl⟩ := inductionHypothesis evenRest readRest
      obtain ⟨smallHigh, first, firstCase, rfl⟩ := exists_eitherCase isHigh
      obtain ⟨smallLow, second, secondCase, rfl⟩ := exists_eitherCase isLow
      have whole : (UInt8.ofNat (16 * h + l)).toNat = 16 * h + l := by
        rw [UInt8.toNat_ofNat']
        omega
      have highEq : (UInt8.ofNat (16 * h + l)).toNat / 16 = h := by omega
      have lowEq : (UInt8.ofNat (16 * h + l)).toNat % 16 = l := by omega
      refine ⟨first :: second :: characters, .cons ?_ ?_ spelled, rfl⟩
      · rwa [highEq]
      · rwa [lowEq]
  | case4 => cases read
  | case5 => cases read

/-- A run of digits up to a byte that is none is refused with this byte and its place. -/
theorem decodePairs_of_badDigit {front behind : Bytes} {byte : UInt8} (index : Nat)
    (even : (front ++ byte :: behind).length % 2 = 0) (good : ∀ one ∈ front, one ∈ digitBytes)
    (bad : byte ∉ digitBytes) :
    decodePairs index (front ++ byte :: behind) =
      .error (.badDigit byte (index + front.length)) := by
  have unknown := (value?_eq_none_iff byte).mpr bad
  match front with
  | [] =>
      cases behind with
      | nil => simp at even
      | cons low rest => simp [decodePairs, unknown]
  | [high] =>
      obtain ⟨value, known⟩ := exists_value (good high List.mem_cons_self)
      simp [decodePairs, known, unknown]
  | high :: low :: front =>
      obtain ⟨highGood, others⟩ := List.forall_mem_cons.mp good
      obtain ⟨lowGood, goodFront⟩ := List.forall_mem_cons.mp others
      obtain ⟨h, highKnown⟩ := exists_value highGood
      obtain ⟨l, lowKnown⟩ := exists_value lowGood
      have evenRest : (front ++ byte :: behind).length % 2 = 0 := by
        simp only [List.cons_append, List.length_cons] at even
        omega
      have later := decodePairs_of_badDigit (index + 2) evenRest goodFront bad
      have place : index + 2 + front.length = index + (high :: low :: front).length := by
        simp only [List.length_cons]
        omega
      rw [place] at later
      simp [decodePairs, highKnown, lowKnown, later, Except.map]

/-- A run of digits is read. -/
theorem exists_decodePairs {digits : Bytes} (index : Nat)
    (good : ∀ one ∈ digits, one ∈ digitBytes) : ∃ bytes, decodePairs index digits = .ok bytes := by
  fun_induction decodePairs index digits with
  | case1 => exact ⟨[], rfl⟩
  | case2 => exact ⟨[], rfl⟩
  | case3 index high low rest h l isLow isHigh inductionHypothesis =>
      have goodRest : ∀ one ∈ rest, one ∈ digitBytes := fun one among =>
        good one (List.mem_cons_of_mem _ (List.mem_cons_of_mem _ among))
      obtain ⟨bytes, readRest⟩ := inductionHypothesis goodRest
      exact ⟨_, by rw [readRest, Except.map]⟩
  | case4 index high low rest unknown =>
      exact absurd (good high List.mem_cons_self) ((value?_eq_none_iff high).mp unknown)
  | case5 index high low rest h unknown isHigh =>
      exact absurd (good low (List.mem_cons_of_mem _ List.mem_cons_self))
        ((value?_eq_none_iff low).mp unknown)

/-- The bytes that a text holds. -/
def utf8 (text : String) : Bytes :=
  text.toUTF8.data.toList

/-- Why a run of digits is refused, where bytes of some number may be expected. Of several reasons
it is the first. -/
inductive Refused (digits : String) (expected : Option Nat) : Error → Prop
  | oddLength (odd : (utf8 digits).length % 2 = 1) :
      Refused digits expected (.hexDecode (.oddLength (utf8 digits).length))
  | badDigit {front behind : Bytes} {byte : UInt8} (even : (utf8 digits).length % 2 = 0)
      (split : utf8 digits = front ++ byte :: behind) (good : ∀ one ∈ front, one ∈ digitBytes)
      (bad : byte ∉ digitBytes) :
      Refused digits expected (.hexDecode (.badDigit byte front.length))
  | length {bytes : Bytes} {length : Nat} (spelled : SpellsDigits bytes digits.toList)
      (expects : expected = some length) (differs : bytes.length ≠ length) :
      Refused digits expected (.length length bytes.length)

theorem decode_eq (text : String) : decode text = decodeDigits (utf8 (unmarked text)) := by
  rw [decode, dropMark_toUTF8, utf8]

theorem decode_of_spellsDigits (spelled : SpellsDigits bytes (unmarked text).toList) :
    decode text = .ok bytes := by
  obtain ⟨mark, among, split⟩ := exists_mark text
  exact decode_of_spells ⟨mark, among, _, split, spelled⟩

variable {expected : Option Nat}

theorem read_of_spellsDigits (spelled : SpellsDigits bytes (unmarked text).toList)
    (fits : expected = none ∨ expected = some bytes.length) : read text expected = .ok bytes := by
  rw [read, decode_of_spellsDigits spelled]
  rcases fits with rfl | rfl
  · rfl
  · exact if_pos rfl

theorem read_of_refused {error : Error} (refused : Refused (unmarked text) expected error) :
    read text expected = .error error := by
  cases refused with
  | oddLength odd => simp [read, decode_eq, decodeDigits, odd]
  | badDigit even split good bad =>
      have refused := decodePairs_of_badDigit 0 (split ▸ even) good bad
      rw [← split, Nat.zero_add] at refused
      simp [read, decode_eq, decodeDigits, even, refused]
  | length spelled expects differs =>
      rw [read, decode_of_spellsDigits spelled, expects]
      exact if_neg differs

/-- Characters are known by their bytes. -/
theorem toList_eq_of_utf8 {characters : List Char}
    (ascii : ∀ character ∈ characters, character.toNat < 128)
    (same : utf8 text = characters.map byteOf) : text.toList = characters := by
  have written : utf8 (String.ofList characters) = characters.map byteOf := by
    rw [utf8, toUTF8_of_ascii (by simpa using ascii), String.toList_ofList]
  have bytesEq : text.toByteArray = (String.ofList characters).toByteArray :=
    ByteArray.ext (Array.toList_inj.mp (same.trans written.symm))
  rw [String.toByteArray_inj.mp bytesEq, String.toList_ofList]

/-- A text is read, or refused for a reason. -/
theorem spelled_or_refused (text : String) (expected : Option Nat) :
    (∃ bytes, SpellsDigits bytes (unmarked text).toList ∧
      (expected = none ∨ expected = some bytes.length)) ∨
    ∃ error, Refused (unmarked text) expected error := by
  generalize unmarked text = digits
  by_cases even : (utf8 digits).length % 2 = 0
  case neg => exact .inr ⟨_, .oddLength (by omega)⟩
  cases found : (utf8 digits).find? (· ∉ digitBytes) with
  | some byte =>
      obtain ⟨bad, front, behind, split, good⟩ := List.find?_eq_some_iff_append.mp found
      exact .inr ⟨_, .badDigit even split (by simpa using good) (by simpa using bad)⟩
  | none =>
      have good : ∀ one ∈ utf8 digits, one ∈ digitBytes := by
        simpa using List.find?_eq_none.mp found
      obtain ⟨bytes, decoded⟩ := exists_decodePairs 0 good
      obtain ⟨characters, spelled, same⟩ := exists_spellsDigits even decoded
      have spelled : SpellsDigits bytes digits.toList := by
        rwa [toList_eq_of_utf8 spelled.ascii same.symm]
      cases expected with
      | none => exact .inl ⟨bytes, spelled, .inl rfl⟩
      | some length =>
          by_cases fits : bytes.length = length
          · exact .inl ⟨bytes, spelled, .inr (by rw [fits])⟩
          · exact .inr ⟨_, .length spelled rfl fits⟩

/-- A digit in either case is the written one in lower case. -/
theorem toLower_of_eitherCase {character : Char} {value : Nat} (small : value < 16)
    (cased : EitherCase character (digit value)) : character.toLower = digit value := by
  have lower : ∀ value < 16, (digit value).toLower = digit value := by decide
  have upper : ∀ value < 16, (digit value).toUpper.toLower = digit value := by decide
  rcases cased with rfl | rfl
  · exact lower value small
  · exact upper value small

theorem SpellsDigits.toLower {characters : List Char} (spelled : SpellsDigits bytes characters) :
    characters.map Char.toLower = digits bytes := by
  induction spelled with
  | nil => rfl
  | @cons byte bytes high low text isHigh isLow _ inductionHypothesis =>
      have first := toLower_of_eitherCase (by have := byte.toNat_lt; omega) isHigh
      have second := toLower_of_eitherCase (Nat.mod_lt _ (by decide)) isLow
      rw [List.map_cons, List.map_cons, first, second, inductionHypothesis]
      rfl

/-- Bytes of the expected number fill an array of that length, so that copying them does not
crash. -/
theorem readArray_eq (n : Nat) (text : String) :
    readArray n text = (readOctets n text).mapError Halt.failure := by
  rw [readArray, read, readOctets]
  cases decode text with
  | error fault => rfl
  | ok bytes =>
      by_cases fits : bytes.length = n
      · simp only [if_pos fits, dif_pos fits]
        exact dif_pos fits
      · simp only [if_neg fits, dif_neg fits]
        rfl

theorem readOctets_bytes (n : Nat) (text : String) :
    (readOctets n text).map Octets.bytes = read text (some n) := by
  rw [readOctets, read]
  cases decode text with
  | error fault => rfl
  | ok bytes =>
      by_cases fits : bytes.length = n
      · simp [fits, Except.map]
      · simp [fits, Except.map]

/-- What is written is read back. What is read is spelled by pairs of digits, after one mark at
most, and written in lower case; anything else is refused, for the first reason there is. Reading
into an array is no different and does not crash. -/
theorem reads_what_is_spelled (text : String) (expected : Option Nat) :
    (∀ value < 16, "0123456789abcdef".toList[value]? = some (digit value)) ∧
    (∀ bytes, expected = none ∨ expected = some bytes.length →
      read (encode bytes) expected = .ok bytes) ∧
    (∀ bytes, read text expected = .ok bytes ↔
      SpellsDigits bytes (unmarked text).toList ∧
        (expected = none ∨ expected = some bytes.length)) ∧
    (∀ bytes, read text expected = .ok bytes →
      (encode bytes).toList = ['0', 'x'] ++ (unmarked text).toList.map Char.toLower) ∧
    (∀ error, read text expected = .error error ↔ Refused (unmarked text) expected error) ∧
    ∀ n, (readArray n text).map Octets.bytes = (read text (some n)).mapError Halt.failure ∧
      readArray n text = (readOctets n text).mapError Halt.failure ∧
      readArray n text ≠ .error .crash := by
  have accepted : ∀ bytes, read text expected = .ok bytes →
      SpellsDigits bytes (unmarked text).toList ∧
        (expected = none ∨ expected = some bytes.length) := by
    intro bytes done
    rcases spelled_or_refused text expected with ⟨own, spelled, fits⟩ | ⟨error, refused⟩
    · rw [read_of_spellsDigits spelled fits] at done
      cases done
      exact ⟨spelled, fits⟩
    · rw [read_of_refused refused] at done
      cases done
  refine ⟨by decide, ?readBack, ?accepts, ?lowerCase, ?refuses, ?array⟩
  case readBack =>
    intro bytes fits
    rw [read, decode_encode]
    rcases fits with rfl | rfl
    · rfl
    · exact if_pos rfl
  case accepts =>
    exact fun bytes => ⟨accepted bytes, fun ⟨spelled, fits⟩ => read_of_spellsDigits spelled fits⟩
  case lowerCase =>
    intro bytes done
    rw [(accepted bytes done).1.toLower, encode, String.toList_ofList]
    rfl
  case refuses =>
    refine fun error => ⟨fun failed => ?_, read_of_refused⟩
    rcases spelled_or_refused text expected with ⟨bytes, spelled, fits⟩ | ⟨own, refused⟩
    · rw [read_of_spellsDigits spelled fits] at failed
      cases failed
    · rw [read_of_refused refused] at failed
      cases failed
      exact refused
  case array =>
    intro n
    rw [readArray_eq, ← readOctets_bytes]
    cases readOctets n text with
    | error error => exact ⟨rfl, rfl, fun same => by cases same⟩
    | ok octets => exact ⟨rfl, rfl, fun same => by cases same⟩

/-- A second mark is not taken off. -/
example : read "0X0x0a" none = .error (.hexDecode (.badDigit 0x78 1)) := rfl

end Countersign.Hex
