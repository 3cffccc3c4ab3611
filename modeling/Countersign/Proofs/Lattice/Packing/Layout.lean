import Countersign.Proofs.Lattice.Packing

/-!
Where the bits of packed coefficients stand. The words in bytes are one stream of bits, in which
each coefficient takes the next `width` ones; no bit is left over, so that words of any bits are
packed coefficients, and packing and unpacking undo each other.
-/

namespace Countersign.Lattice

variable {width perWord : Nat} {coefficients : List UInt32} {words : List Word}

/-- Coefficients of a width are packed: those of up to 32 bits that fill a word. -/
def Packable (width : Nat) : Prop :=
  width ∣ 256 ∧ 1 ≤ width ∧ width ≤ 32

theorem Packable.coefficientsPerWord_eq (packable : Packable width) :
    coefficientsPerWord width = .ok (256 / width) := by
  obtain ⟨divides, positive, narrow⟩ := packable
  have remainder : 256 % width = 0 := Nat.mod_eq_zero_of_dvd divides
  exact if_neg (by omega)

theorem coefficientsPerWord_of_not_packable (unpackable : ¬ Packable width) :
    coefficientsPerWord width = .error (.validation (.coefficientWidth width)) := by
  refine if_pos ?_
  by_contra allowed
  exact unpackable ⟨Nat.dvd_of_mod_eq_zero (by omega), by omega, by omega⟩

theorem digitSum_append (front rest : List UInt32) :
    digitSum width (front ++ rest) =
      digitSum width front + 2 ^ (front.length * width) * digitSum width rest := by
  rw [digitSum, List.map_append, Nat.ofDigits_append, List.length_map, ← Nat.pow_mul,
    Nat.mul_comm width]
  rfl

theorem toNatLE_wordBytes_packed {pieces : List (List UInt32)}
    (full : ∀ piece ∈ pieces, piece.length * width = 256)
    (narrow : ∀ piece ∈ pieces, Narrow width piece) :
    Bytes.toNatLE (wordBytes (pieces.map (packWord width))) = digitSum width pieces.flatten := by
  induction pieces with
  | nil => rfl
  | cons piece rest inductionHypothesis =>
      obtain ⟨fullHere, fullLater⟩ := List.forall_mem_cons.mp full
      obtain ⟨narrowHere, narrowLater⟩ := List.forall_mem_cons.mp narrow
      have first := toNat_packWord narrowHere (Nat.le_of_eq fullHere)
      have below := digitSum_lt narrowHere
      have base : 256 ^ 32 = 2 ^ (piece.length * width) := by
        rw [fullHere]
        rfl
      have later := inductionHypothesis fullLater narrowLater
      rw [wordBytes] at later
      rw [List.map_cons, wordBytes, List.flatMap_cons, Bytes.toNatLE_append, Bytes.length_ofNatLE,
        Bytes.toNatLE_ofNatLE, later, first, base, Nat.mod_eq_of_lt below, List.flatten_cons,
        digitSum_append]

/-- The words in bytes denote the number whose digits are the coefficients. -/
theorem toNatLE_wordBytes (packed : pack width coefficients = .ok words) :
    Bytes.toNatLE (wordBytes words) = digitSum width coefficients := by
  obtain ⟨perWord, fills, _⟩ := Result.bind_eq_ok packed
  obtain ⟨made, full⟩ := pieces_of_pack fills packed
  obtain ⟨positive, filled⟩ := coefficientsPerWord_eq_ok fills
  rw [made, toNatLE_wordBytes_packed, Bytes.flatten_pieces positive]
  · intro piece member
    rw [(full piece member).1, filled]
  · intro piece member
    exact (full piece member).2.1

theorem testBit_digitSum (narrow : Narrow width coefficients) {index place : Nat}
    (inside : index < coefficients.length) (low : place < width) :
    (digitSum width coefficients).testBit (index * width + place) =
      coefficients[index].toNat.testBit place := by
  rw [← digitSum_div_mod narrow inside, Nat.testBit_mod_two_pow, Nat.testBit_div_two_pow,
    Nat.add_comm]
  simp [low]

/-- Each coefficient takes the next bits of the stream, its lowest one first, and the stream ends
with the last of them. -/
structure LaidOut (width : Nat) (coefficients : List UInt32) (bytes : Bytes) : Prop where
  length : 8 * bytes.length = coefficients.length * width
  bit : ∀ index place, (inside : index < coefficients.length) → place < width →
    bytes.bit (index * width + place) = coefficients[index].toNat.testBit place
  behind : ∀ place, coefficients.length * width ≤ place → bytes.bit place = false

theorem laidOut_of_pack (packed : pack width coefficients = .ok words) :
    LaidOut width coefficients (wordBytes words) := by
  obtain ⟨perWord, fills, _⟩ := Result.bind_eq_ok packed
  obtain ⟨positive, filled⟩ := coefficientsPerWord_eq_ok fills
  obtain ⟨⟨count, whole⟩, narrow, made⟩ := (pack_eq_ok_iff fills).mp packed
  have number := toNatLE_wordBytes packed
  refine ⟨?_, ?_, ?_⟩
  · rw [Nat.mul_comm] at whole
    rw [length_wordBytes, made, List.length_map, Bytes.length_pieces positive count whole, whole,
      Nat.mul_assoc, filled]
    omega
  · intro index place inside low
    rw [Bytes.bit_eq_testBit, number, testBit_digitSum narrow inside low]
  · intro place behind
    have below : digitSum width coefficients < 2 ^ place :=
      Nat.lt_of_lt_of_le (digitSum_lt narrow) (Nat.pow_le_pow_right (by decide) behind)
    rw [Bytes.bit_eq_testBit, number, Nat.testBit_lt_two_pow below]

theorem length_unpackWord (width count : Nat) (word : Word) :
    (unpackWord width count word).length = count := by
  simp [unpackWord]

theorem toNat_unpacked (narrow : width ≤ 32) (value : Nat) :
    (UInt32.ofNat (value % 2 ^ width)).toNat = value % 2 ^ width := by
  have power : 2 ^ width ≤ 2 ^ 32 := Nat.pow_le_pow_right (by decide) narrow
  have below : value % 2 ^ width < 2 ^ width := Nat.mod_lt _ (Nat.two_pow_pos width)
  rw [UInt32.toNat_ofNat', Nat.mod_eq_of_lt (Nat.lt_of_lt_of_le below power)]

theorem narrow_unpackWord (narrow : width ≤ 32) (count : Nat) (word : Word) :
    Narrow width (unpackWord width count word) := by
  intro coefficient among
  obtain ⟨slot, _, rfl⟩ := List.mem_map.mp among
  rw [Nat.one_shiftLeft, toNat_unpacked narrow]
  exact Nat.mod_lt _ (Nat.two_pow_pos width)

/-- The digits that are read off a word denote its low part. -/
theorem digitSum_unpackWord (narrow : width ≤ 32) (count : Nat) (word : Word) :
    digitSum width (unpackWord width count word) = word.toNat % 2 ^ (count * width) := by
  induction count with
  | zero => simp [unpackWord, digitSum, Nat.mod_one]
  | succ count inductionHypothesis =>
      have last : digitSum width
          [UInt32.ofNat ((word >>> (count * width)).toNat % (1 <<< width))] =
            word.toNat / 2 ^ (count * width) % 2 ^ width := by
        rw [digitSum, List.map_singleton, Nat.ofDigits_singleton, Nat.one_shiftLeft,
          toNat_unpacked narrow, BitVec.toNat_ushiftRight, Nat.shiftRight_eq_div_pow]
      have front := length_unpackWord width count word
      rw [unpackWord] at front inductionHypothesis
      rw [unpackWord, List.range_succ, List.map_append, List.map_singleton, digitSum_append, last,
        inductionHypothesis, front, Nat.succ_mul, Nat.pow_add, Nat.mod_mul]

theorem packWord_unpackWord (narrow : width ≤ 32) (filled : perWord * width = 256) (word : Word) :
    packWord width (unpackWord width perWord word) = word := by
  have fits : (unpackWord width perWord word).length * width ≤ 256 := by
    rw [length_unpackWord, filled]
  apply BitVec.eq_of_toNat_eq
  rw [toNat_packWord (narrow_unpackWord narrow perWord word) fits, digitSum_unpackWord narrow,
    filled, Nat.mod_eq_of_lt word.isLt]

theorem pack_unpack (unpacked : unpack width words = .ok coefficients) :
    pack width coefficients = .ok words := by
  obtain ⟨perWord, fills, made⟩ := Result.bind_eq_ok unpacked
  obtain ⟨positive, filled⟩ := coefficientsPerWord_eq_ok fills
  have narrow := Slots.coefficientsPerWord_narrow fills
  cases made
  have full : ∀ piece ∈ words.map (unpackWord width perWord), piece.length = perWord := by
    intro piece among
    obtain ⟨word, _, rfl⟩ := List.mem_map.mp among
    exact length_unpackWord width perWord word
  rw [pack_eq_ok_iff fills, List.flatMap_def]
  refine ⟨?_, ?_, ?_⟩
  · simp [← List.flatMap_def, List.length_flatMap, length_unpackWord]
  · intro coefficient among
    obtain ⟨piece, isPiece, inPiece⟩ := List.mem_flatten.mp among
    obtain ⟨word, _, rfl⟩ := List.mem_map.mp isPiece
    exact narrow_unpackWord narrow perWord word coefficient inPiece
  · rw [Bytes.pieces_flatten positive full, List.map_map]
    exact ((List.map_congr_left fun word _ => packWord_unpackWord narrow filled word).trans
      (List.map_id words)).symm

theorem pack_eq_error {error : Error} (failed : pack width coefficients = .error error) :
    ∃ refusal, error = .validation refusal := by
  by_cases packable : Packable width
  · rw [pack, packable.coefficientsPerWord_eq, Result.ok_bind] at failed
    by_cases ragged : coefficients.length % (256 / width) ≠ 0
    · rw [if_pos ragged] at failed
      cases failed
      exact ⟨_, rfl⟩
    · rw [if_neg ragged] at failed
      cases wide : firstTooWide width 0 coefficients with
      | none =>
          rw [wide] at failed
          cases failed
      | some found =>
          rw [wide] at failed
          cases failed
          exact ⟨_, rfl⟩
  · rw [pack, coefficientsPerWord_of_not_packable packable] at failed
    cases failed
    exact ⟨_, rfl⟩

/-- A result of packing slot by slot is one of packing. -/
theorem Slots.pack_eq_ok_iff :
    Slots.pack width coefficients = .ok words ↔ Lattice.pack width coefficients = .ok words := by
  rw [Slots.pack_eq]
  cases Lattice.pack width coefficients <;> simp [Except.mapError]

theorem Slots.unpack_eq_ok_iff :
    Slots.unpack width words = .ok coefficients ↔ Lattice.unpack width words = .ok coefficients := by
  rw [Slots.unpack_eq]
  cases Lattice.unpack width words <;> simp [Except.mapError]

/-- Coefficients of a packable width are packed exactly if they fill whole words and none of them
needs more bits. Each then has its own run of bits and no other bit is set, and they are found in
the words again; and all words are packed coefficients. Nothing but a width, a number of
coefficients or a coefficient is ever refused. -/
theorem packing_exact (width : Nat) :
    (Packable width →
      (∀ coefficients, (∃ words, Slots.pack width coefficients = .ok words) ↔
        256 / width ∣ coefficients.length ∧
          ∀ coefficient ∈ coefficients, coefficient.toNat < 2 ^ width) ∧
      (∀ coefficients words, Slots.pack width coefficients = .ok words →
        LaidOut width coefficients (wordBytes words) ∧
          Slots.unpack width words = .ok coefficients) ∧
      (∀ words, ∃ coefficients, Slots.unpack width words = .ok coefficients ∧
        Slots.pack width coefficients = .ok words)) ∧
    (¬ Packable width →
      (∀ coefficients, Slots.pack width coefficients =
        .error (.failure (.validation (.coefficientWidth width)))) ∧
      (∀ words, Slots.unpack width words =
        .error (.failure (.validation (.coefficientWidth width))))) ∧
    (∀ coefficients halt, Slots.pack width coefficients = .error halt →
      ∃ refusal, halt = .failure (.validation refusal)) ∧
    (∀ coefficients,
      Slots.pack width coefficients = (pack width coefficients).mapError .failure) ∧
    (∀ words, Slots.unpack width words = (unpack width words).mapError .failure) := by
  refine ⟨?packable, ?unpackable, ?refused, Slots.pack_eq width, Slots.unpack_eq width⟩
  case packable =>
    intro packable
    have fills := packable.coefficientsPerWord_eq
    refine ⟨?accepted, ?readBack, ?allWords⟩
    case accepted =>
      intro coefficients
      simp only [Slots.pack_eq_ok_iff, pack_eq_ok_iff fills]
      constructor
      · rintro ⟨words, whole, narrow, _⟩
        exact ⟨whole, narrow⟩
      · rintro ⟨whole, narrow⟩
        exact ⟨_, whole, narrow, rfl⟩
    case readBack =>
      intro coefficients words packed
      have made := Slots.pack_eq_ok_iff.mp packed
      exact ⟨laidOut_of_pack made, Slots.unpack_eq_ok_iff.mpr (unpack_pack made)⟩
    case allWords =>
      intro words
      have unpacked : unpack width words =
          .ok (words.flatMap (unpackWord width (256 / width))) := by
        rw [unpack, fills]
        rfl
      exact ⟨_, Slots.unpack_eq_ok_iff.mpr unpacked,
        Slots.pack_eq_ok_iff.mpr (pack_unpack unpacked)⟩
  case unpackable =>
    intro unpackable
    have refused := coefficientsPerWord_of_not_packable unpackable
    constructor
    · intro coefficients
      rw [Slots.pack, refused]
      rfl
    · intro words
      rw [Slots.unpack, refused]
      rfl
  case refused =>
    intro coefficients halt failed
    rw [Slots.pack_eq] at failed
    cases outcome : pack width coefficients with
    | ok words =>
        rw [outcome] at failed
        cases failed
    | error error =>
        obtain ⟨refusal, rfl⟩ := pack_eq_error outcome
        rw [outcome] at failed
        cases failed
        exact ⟨refusal, rfl⟩

end Countersign.Lattice
