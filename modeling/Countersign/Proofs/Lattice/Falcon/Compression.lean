import Countersign.Lattice.Falcon.Compact
import Countersign.Proofs.Bytes
import Countersign.Proofs.Result
import Mathlib.Data.List.Basic

/-!
The compressed form of a polynomial is the only one that is read as it. Reading is exact at every
level: a coefficient is read from its own bits and leaves the bits after them, a polynomial is read
from the bits of its coefficients, and what is left may only be zero.
-/

namespace Countersign.Lattice.Falcon

theorem length_bitsOfByte (byte : UInt8) : (bitsOfByte byte).length = 8 := rfl

theorem ofBits_bitsOfByte (byte : UInt8) : UInt8.ofNat (ofBits (bitsOfByte byte)) = byte := by
  have values : ∀ value : Fin 256, ofBits (bitsOfByte (UInt8.ofNat value)) = value := by
    decide +kernel
  have here := values ⟨byte.toNat, byte.toNat_lt⟩
  rw [UInt8.ofNat_toNat] at here
  rw [here, UInt8.ofNat_toNat]

theorem bitsOfByte_ofBits {piece : List Bool} (whole : piece.length = 8) :
    bitsOfByte (UInt8.ofNat (ofBits piece)) = piece := by
  have octets : ∀ b₇ b₆ b₅ b₄ b₃ b₂ b₁ b₀ : Bool,
      bitsOfByte (UInt8.ofNat (ofBits [b₇, b₆, b₅, b₄, b₃, b₂, b₁, b₀])) =
        [b₇, b₆, b₅, b₄, b₃, b₂, b₁, b₀] := by
    decide
  match piece, whole with
  | [b₇, b₆, b₅, b₄, b₃, b₂, b₁, b₀], _ => exact octets b₇ b₆ b₅ b₄ b₃ b₂ b₁ b₀

@[simp] theorem bits_nil : bits [] = [] := rfl

@[simp] theorem bits_cons (byte : UInt8) (rest : Bytes) :
    bits (byte :: rest) = bitsOfByte byte ++ bits rest := rfl

theorem bits_append (left right : Bytes) : bits (left ++ right) = bits left ++ bits right :=
  List.flatMap_append

theorem length_bits (bytes : Bytes) : (bits bytes).length = 8 * bytes.length := by
  induction bytes with
  | nil => rfl
  | cons byte rest inductionHypothesis =>
      simp only [bits_cons, List.length_append, length_bitsOfByte, inductionHypothesis,
        List.length_cons]
      omega

theorem bits_zeros (count : Nat) : bits (Bytes.zeros count) = List.replicate (8 * count) false := by
  induction count with
  | zero => rfl
  | succ count inductionHypothesis =>
      have zero : bitsOfByte 0 = List.replicate 8 false := by decide
      rw [Bytes.zeros, List.replicate_succ, bits_cons, ← Bytes.zeros, inductionHypothesis, zero,
        ← List.replicate_add, Nat.mul_succ, Nat.add_comm]

theorem bits_injective {left right : Bytes} (same : bits left = bits right) : left = right := by
  induction left generalizing right with
  | nil =>
      cases right with
      | nil => rfl
      | cons byte rest => simp [bitsOfByte] at same
  | cons leftByte leftRest inductionHypothesis =>
      cases right with
      | nil => simp [bitsOfByte] at same
      | cons rightByte rightRest =>
          obtain ⟨first, later⟩ := List.append_inj same rfl
          have bytes : leftByte = rightByte := by
            rw [← ofBits_bitsOfByte leftByte, first, ofBits_bitsOfByte]
          rw [bytes, inductionHypothesis later]

/-- The zero bits that complete a number of bits to whole bytes. -/
def bitPadding (length : Nat) : Nat :=
  (8 - length % 8) % 8

theorem bits_bytesOfBits (stream : List Bool) :
    bits (bytesOfBits stream) = stream ++ List.replicate (bitPadding stream.length) false := by
  induction remaining : stream.length using Nat.strong_induction_on generalizing stream with
  | h length inductionHypothesis =>
      by_cases empty : stream = []
      · subst empty
        rw [← remaining]
        rfl
      · have some : 0 < stream.length := List.length_pos_of_ne_nil empty
        have rest : (stream.drop 8).length = length - 8 := by
          rw [List.length_drop, remaining]
        have later := inductionHypothesis (length - 8) (by omega) (stream.drop 8) rest
        rw [bytesOfBits] at later
        rw [bytesOfBits, Bytes.pieces_of_ne_nil (by decide) empty, List.map_cons, bits_cons, later]
        by_cases short : length < 8
        · have last : stream.take 8 = stream := List.take_of_length_le (by omega)
          have nothing : stream.drop 8 = [] := List.drop_eq_nil_of_le (by omega)
          have padding : 8 - stream.length = bitPadding length := by
            unfold bitPadding
            omega
          have none : bitPadding (length - 8) = 0 := by
            unfold bitPadding
            omega
          rw [last, nothing, none, padding, bitsOfByte_ofBits]
          · simp
          · rw [List.length_append, List.length_replicate, ← padding]
            omega
        · have whole : (stream.take 8).length = 8 := by
            rw [List.length_take]
            omega
          have padding : bitPadding (length - 8) = bitPadding length := by
            unfold bitPadding
            omega
          rw [whole, Nat.sub_self, List.replicate_zero, List.append_nil, bitsOfByte_ofBits whole,
            padding, ← List.append_assoc, List.take_append_drop]

/-- Bytes whose bits are a stream and zeros behind it are the bytes of the stream and zero bytes
behind them. -/
theorem bits_eq_append_iff {body : Bytes} {stream : List Bool} :
    (∃ count, bits body = stream ++ List.replicate count false) ↔
      ∃ count, body = bytesOfBits stream ++ Bytes.zeros count := by
  constructor
  · rintro ⟨count, split⟩
    have total := congrArg List.length split
    rw [length_bits, List.length_append, List.length_replicate] at total
    have parts : count = bitPadding stream.length + 8 * (count / 8) := by
      unfold bitPadding
      omega
    refine ⟨count / 8, bits_injective ?_⟩
    rw [split, bits_append, bits_bytesOfBits, bits_zeros, List.append_assoc, ← List.replicate_add,
      ← parts]
  · rintro ⟨count, rfl⟩
    refine ⟨bitPadding stream.length + 8 * count, ?_⟩
    rw [bits_append, bits_bytesOfBits, bits_zeros, List.append_assoc, List.replicate_add]

/-- The numbers that a coefficient of a signature can be. -/
def InRange (coefficient : Int) : Prop :=
  -2047 ≤ coefficient ∧ coefficient ≤ 2047

/-- The seven low bits of a magnitude. -/
def lowBits (magnitude : Nat) : List Bool :=
  (bitsOfByte (UInt8.ofNat (magnitude % 128))).drop 1

theorem lowBits_ofBits (b₆ b₅ b₄ b₃ b₂ b₁ b₀ : Bool) (high : Nat) :
    lowBits (ofBits [b₆, b₅, b₄, b₃, b₂, b₁, b₀] + 128 * high) =
      [b₆, b₅, b₄, b₃, b₂, b₁, b₀] := by
  rw [lowBits, Nat.add_mul_mod_self_left]
  revert b₆ b₅ b₄ b₃ b₂ b₁ b₀
  decide

theorem ofBits_lt (b₆ b₅ b₄ b₃ b₂ b₁ b₀ : Bool) :
    ofBits [b₆, b₅, b₄, b₃, b₂, b₁, b₀] < 128 := by
  revert b₆ b₅ b₄ b₃ b₂ b₁ b₀
  decide

/-- The seven lowest bits of a number denote it up to multiples of 128. -/
theorem ofBits_testBit (value : Nat) :
    ofBits [value.testBit 6, value.testBit 5, value.testBit 4, value.testBit 3, value.testBit 2,
      value.testBit 1, value.testBit 0] = value % 128 := by
  have values : ∀ low : Fin 128,
      ofBits [low.val.testBit 6, low.val.testBit 5, low.val.testBit 4, low.val.testBit 3,
        low.val.testBit 2, low.val.testBit 1, low.val.testBit 0] = low := by
    decide
  have kept : ∀ place < 7, (value % 128).testBit place = value.testBit place := by
    intro place low
    have masked := Nat.testBit_mod_two_pow value 7 place
    simpa [low] using masked
  have here := values ⟨value % 128, Nat.mod_lt _ (by decide)⟩
  simpa [kept] using here

theorem exists_lowBits (magnitude : Nat) :
    ∃ b₆ b₅ b₄ b₃ b₂ b₁ b₀, lowBits magnitude = [b₆, b₅, b₄, b₃, b₂, b₁, b₀] ∧
      ofBits [b₆, b₅, b₄, b₃, b₂, b₁, b₀] = magnitude % 128 := by
  refine ⟨_, _, _, _, _, _, _, rfl, ?_⟩
  rw [ofBits_testBit, UInt8.toNat_ofNat']
  omega

theorem encodeCoefficient_eq (coefficient : Int) :
    encodeCoefficient coefficient =
      decide (coefficient < 0) :: (lowBits coefficient.natAbs ++
        (List.replicate (coefficient.natAbs / 128) false ++ [true])) := by
  simp [encodeCoefficient, lowBits]

theorem readHigh_eq_ok {magnitude value : Nat} {stream rest : List Bool} (small : magnitude ≤ 2047)
    (read : readHigh magnitude stream = .ok (value, rest)) :
    value ≤ 2047 ∧ ∃ high, value = magnitude + 128 * high ∧
      stream = List.replicate high false ++ true :: rest := by
  induction stream generalizing magnitude with
  | nil => cases read
  | cons bit later inductionHypothesis =>
      cases bit with
      | true =>
          cases read
          exact ⟨small, 0, rfl, rfl⟩
      | false =>
          rw [readHigh] at read
          split at read
          · cases read
          · rename_i inside
            obtain ⟨bound, high, sum, split⟩ := inductionHypothesis (by omega) read
            refine ⟨bound, high + 1, by omega, ?_⟩
            rw [split, List.replicate_succ, List.cons_append]

theorem readHigh_replicate {magnitude high : Nat} (rest : List Bool)
    (small : magnitude + 128 * high ≤ 2047) :
    readHigh magnitude (List.replicate high false ++ true :: rest) =
      .ok (magnitude + 128 * high, rest) := by
  induction high generalizing magnitude with
  | zero => rfl
  | succ high inductionHypothesis =>
      have next : magnitude + 128 + 128 * high = magnitude + 128 * (high + 1) := by omega
      rw [List.replicate_succ, List.cons_append, readHigh, if_neg (by omega),
        inductionHypothesis (by omega), next]

/-- A sign bit and seven bits are taken off, and the rest of the magnitude is read. -/
theorem readCoefficient_cons (negative b₆ b₅ b₄ b₃ b₂ b₁ b₀ : Bool) (stream : List Bool) :
    readCoefficient (negative :: b₆ :: b₅ :: b₄ :: b₃ :: b₂ :: b₁ :: b₀ :: stream) =
      match readHigh (ofBits [b₆, b₅, b₄, b₃, b₂, b₁, b₀]) stream with
      | .error fault => .error fault
      | .ok (magnitude, rest) =>
          if negative && magnitude = 0 then .error .negativeZero
          else .ok (if negative then -(magnitude : Int) else magnitude, rest) := by
  rw [readCoefficient]
  cases readHigh (ofBits [b₆, b₅, b₄, b₃, b₂, b₁, b₀]) stream with
  | error fault => rfl
  | ok found =>
      obtain ⟨magnitude, rest⟩ := found
      change (if _ then _ else _) = if _ then _ else _
      split <;> rfl

theorem readCoefficient_eq_ok {stream rest : List Bool} {coefficient : Int}
    (read : readCoefficient stream = .ok (coefficient, rest)) :
    InRange coefficient ∧ stream = encodeCoefficient coefficient ++ rest := by
  match stream with
  | negative :: b₆ :: b₅ :: b₄ :: b₃ :: b₂ :: b₁ :: b₀ :: later =>
      rw [readCoefficient_cons] at read
      have low := ofBits_lt b₆ b₅ b₄ b₃ b₂ b₁ b₀
      cases high : readHigh (ofBits [b₆, b₅, b₄, b₃, b₂, b₁, b₀]) later with
      | error fault =>
          rw [high] at read
          cases read
      | ok found =>
          obtain ⟨magnitude, left⟩ := found
          obtain ⟨bound, unary, sum, split⟩ := readHigh_eq_ok (by omega) high
          have lowEq : lowBits magnitude = [b₆, b₅, b₄, b₃, b₂, b₁, b₀] := by
            rw [sum, lowBits_ofBits]
          have unaryEq : magnitude / 128 = unary := by omega
          rw [high] at read
          dsimp only at read
          split at read
          · cases read
          · rename_i notNegativeZero
            cases read
            have inside : InRange (if negative then -(magnitude : Int) else magnitude) := by
              unfold InRange
              split <;> omega
            refine ⟨inside, ?_⟩
            cases negative with
            | false => simp [encodeCoefficient_eq, lowEq, unaryEq, split]
            | true =>
                have positive : 0 < magnitude := by
                  simpa [Nat.pos_iff_ne_zero] using notNegativeZero
                simp [encodeCoefficient_eq, lowEq, unaryEq, split, positive]
  | [] | [_] | [_, _] | [_, _, _] | [_, _, _, _] | [_, _, _, _, _] | [_, _, _, _, _, _]
  | [_, _, _, _, _, _, _] => cases read

theorem readCoefficient_encodeCoefficient {coefficient : Int} (inside : InRange coefficient)
    (rest : List Bool) :
    readCoefficient (encodeCoefficient coefficient ++ rest) = .ok (coefficient, rest) := by
  obtain ⟨b₆, b₅, b₄, b₃, b₂, b₁, b₀, lowEq, low⟩ := exists_lowBits coefficient.natAbs
  obtain ⟨lower, upper⟩ := inside
  have sum : coefficient.natAbs % 128 + 128 * (coefficient.natAbs / 128) = coefficient.natAbs :=
    Nat.mod_add_div _ _
  have high := readHigh_replicate rest
    (show coefficient.natAbs % 128 + 128 * (coefficient.natAbs / 128) ≤ 2047 by omega)
  rw [sum] at high
  rw [encodeCoefficient_eq, lowEq]
  simp only [List.cons_append, List.nil_append, List.append_assoc]
  rw [readCoefficient_cons, low, high]
  by_cases negative : coefficient < 0
  · have nonzero : coefficient.natAbs ≠ 0 := by omega
    have magnitude : -(coefficient.natAbs : Int) = coefficient := by omega
    simp only [negative, nonzero, magnitude, decide_true, decide_false, Bool.and_false,
      Bool.false_eq_true, if_true, if_false]
  · have magnitude : (coefficient.natAbs : Int) = coefficient := by omega
    simp only [negative, magnitude, decide_false, Bool.false_and, Bool.false_eq_true, if_false]

theorem readCoefficients_eq_ok_iff {count : Nat} {stream rest : List Bool}
    {coefficients : List Int} :
    readCoefficients count stream = .ok (coefficients, rest) ↔
      coefficients.length = count ∧ (∀ coefficient ∈ coefficients, InRange coefficient) ∧
        stream = encodeCoefficients coefficients ++ rest := by
  constructor
  · intro read
    induction count generalizing stream coefficients with
    | zero =>
        cases read
        exact ⟨rfl, by simp, rfl⟩
    | succ count inductionHypothesis =>
        obtain ⟨⟨first, between⟩, readFirst, afterFirst⟩ := Result.bind_eq_ok read
        obtain ⟨⟨others, last⟩, readOthers, joined⟩ := Result.bind_eq_ok afterFirst
        cases joined
        obtain ⟨firstInside, firstBits⟩ := readCoefficient_eq_ok readFirst
        obtain ⟨length, othersInside, otherBits⟩ := inductionHypothesis readOthers
        refine ⟨by simp [length], List.forall_mem_cons.mpr ⟨firstInside, othersInside⟩, ?_⟩
        rw [firstBits, otherBits, encodeCoefficients, encodeCoefficients, List.flatMap_cons,
          List.append_assoc]
  · rintro ⟨length, inside, rfl⟩
    subst length
    induction coefficients with
    | nil => rfl
    | cons first others inductionHypothesis =>
        obtain ⟨firstInside, othersInside⟩ := List.forall_mem_cons.mp inside
        have readOthers := inductionHypothesis othersInside
        rw [List.length_cons, readCoefficients, encodeCoefficients, List.flatMap_cons,
          List.append_assoc, readCoefficient_encodeCoefficient firstInside]
        change (readCoefficients _ (encodeCoefficients others ++ rest) >>= _) = _
        rw [readOthers]
        rfl

theorem any_id_eq_false_iff {stream : List Bool} :
    stream.any id = false ↔ stream = List.replicate stream.length false := by
  simp [List.eq_replicate_iff]

/-- A body is read if and only if it holds the bits of a whole polynomial and then zeros. -/
theorem decompress_eq_ok_iff_bits {body : Bytes} {coefficients : List Int} :
    decompress body = .ok coefficients ↔
      coefficients.length = degree ∧ (∀ coefficient ∈ coefficients, InRange coefficient) ∧
        ∃ count, bits body = encodeCoefficients coefficients ++ List.replicate count false := by
  constructor
  · intro read
    unfold decompress at read
    obtain ⟨⟨found, rest⟩, readAll, afterRead⟩ := Result.bind_eq_ok read
    obtain ⟨spare, afterSpare⟩ := Result.guard_eq_ok afterRead
    obtain ⟨padding, afterPadding⟩ := Result.guard_eq_ok afterSpare
    cases afterPadding
    obtain ⟨length, inside, split⟩ := readCoefficients_eq_ok_iff.mp readAll
    refine ⟨length, inside, rest.length, ?_⟩
    have zero : rest.any id = false := by
      rw [← List.take_append_drop (rest.length % 8) rest, List.any_append]
      simp only [Bool.not_eq_true] at spare padding
      rw [spare, padding]
      rfl
    rw [split, ← any_id_eq_false_iff.mp zero]
  · rintro ⟨length, inside, count, split⟩
    have readAll := readCoefficients_eq_ok_iff.mpr ⟨length, inside, split⟩
    unfold decompress
    rw [readAll]
    change (if _ then _ else _) = _
    simp [List.take_replicate, List.drop_replicate]
    rfl

/-- A body is read if and only if it is the compressed form of a polynomial and zero bytes. -/
theorem decompress_eq_ok_iff {body : Bytes} {coefficients : List Int} :
    decompress body = .ok coefficients ↔
      coefficients.length = degree ∧ (∀ coefficient ∈ coefficients, InRange coefficient) ∧
        ∃ count, body = compress coefficients ++ Bytes.zeros count := by
  rw [decompress_eq_ok_iff_bits, bits_eq_append_iff, compress]

end Countersign.Lattice.Falcon
