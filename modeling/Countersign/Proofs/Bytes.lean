import Countersign.Bytes
import Mathlib.Algebra.Ring.Nat
import Mathlib.Data.List.Basic
import Mathlib.Data.Nat.Bitwise
import Mathlib.Data.Nat.ModEq

/-!
Byte strings as numbers, as lists of pieces and as streams of bits. A number written in bytes is
read back, pieces are put together again, and what stands in a run of bits is a digit of the number.
-/

namespace Countersign.Bytes

theorem toNatLE_lt (bytes : Bytes) : toNatLE bytes < 256 ^ bytes.length := by
  induction bytes with
  | nil => simp [toNatLE]
  | cons byte rest ih =>
      have small : byte.toNat < 256 := byte.toNat_lt
      simp only [toNatLE, List.length_cons, Nat.pow_succ]
      omega

theorem toNatBE_lt (bytes : Bytes) : toNatBE bytes < 256 ^ bytes.length := by
  simpa [toNatBE] using toNatLE_lt bytes.reverse

theorem toNatLE_ofNatLE (width value : Nat) :
    toNatLE (ofNatLE width value) = value % 256 ^ width := by
  induction width generalizing value with
  | zero => simp [ofNatLE, toNatLE, Nat.mod_one]
  | succ width ih =>
      rw [ofNatLE, toNatLE, ih, Nat.pow_succ', Nat.mod_mul]
      simp [UInt8.toNat_ofNat']

theorem ofNatLE_toNatLE (bytes : Bytes) :
    ofNatLE bytes.length (toNatLE bytes) = bytes := by
  induction bytes with
  | nil => rfl
  | cons byte rest ih =>
      have small : byte.toNat < 256 := byte.toNat_lt
      have high : (byte.toNat + 256 * toNatLE rest) / 256 = toNatLE rest := by omega
      have low : UInt8.ofNat (byte.toNat + 256 * toNatLE rest) = byte := by
        apply UInt8.toNat_inj.mp
        rw [UInt8.toNat_ofNat']
        omega
      simp only [List.length_cons, ofNatLE, toNatLE, high, low, ih]

theorem toNatBE_ofNatBE (width value : Nat) :
    toNatBE (ofNatBE width value) = value % 256 ^ width := by
  simp [toNatBE, ofNatBE, toNatLE_ofNatLE]

theorem ofNatBE_toNatBE (bytes : Bytes) :
    ofNatBE bytes.length (toNatBE bytes) = bytes := by
  have read := ofNatLE_toNatLE bytes.reverse
  rw [List.length_reverse] at read
  simp [ofNatBE, toNatBE, read]

variable {α : Type}

/-- Blocks of one length are the pieces of what they make together. -/
theorem pieces_flatten {size : Nat} (positive : 0 < size) :
    ∀ {blocks : List (List α)}, (∀ block ∈ blocks, block.length = size) →
      pieces size blocks.flatten = blocks
  | [], _ => rfl
  | block :: rest, full => by
      have here : block.length = size := full block List.mem_cons_self
      have nonempty : (block :: rest).flatten ≠ [] := by
        intro empty
        have blockEmpty : block = [] := (List.append_eq_nil_iff.mp empty).1
        rw [blockEmpty, List.length_nil] at here
        omega
      rw [pieces_of_ne_nil positive nonempty, List.flatten_cons,
        List.take_left' here, List.drop_left' here,
        pieces_flatten positive fun other member => full other (List.mem_cons_of_mem _ member)]

/-- The pieces of a list make the list. -/
theorem flatten_pieces {size : Nat} (positive : 0 < size) (items : List α) :
    (pieces size items).flatten = items := by
  induction remaining : items.length using Nat.strong_induction_on generalizing items with
  | h length inductionHypothesis =>
      by_cases empty : items = []
      · rw [empty]
        rfl
      · have fewer : (items.drop size).length < length := by
          have some : 0 < items.length := List.length_pos_of_ne_nil empty
          rw [List.length_drop]
          omega
        rw [pieces_of_ne_nil positive empty, List.flatten_cons,
          inductionHypothesis _ fewer _ rfl, List.take_append_drop]

theorem length_le_of_mem_pieces {size : Nat} (positive : 0 < size) {items piece : List α}
    (member : piece ∈ pieces size items) : piece.length ≤ size := by
  induction remaining : items.length using Nat.strong_induction_on generalizing items with
  | h length inductionHypothesis =>
      by_cases empty : items = []
      · rw [empty] at member
        cases member
      · rw [pieces_of_ne_nil positive empty] at member
        rcases List.mem_cons.mp member with first | later
        · rw [first, List.length_take]
          omega
        · have fewer : (items.drop size).length < length := by
            have some : 0 < items.length := List.length_pos_of_ne_nil empty
            rw [List.length_drop]
            omega
          exact inductionHypothesis _ fewer later rfl

/-- A list of a multiple of the size has that many pieces. -/
theorem length_pieces {size : Nat} (positive : 0 < size) :
    ∀ (count : Nat) {items : List α}, items.length = count * size →
      (pieces size items).length = count
  | 0, items, whole => by
      have empty : items = [] := List.eq_nil_of_length_eq_zero (by omega)
      rw [empty]
      rfl
  | count + 1, items, whole => by
      rw [Nat.succ_mul] at whole
      have nonempty : items ≠ [] := by
        intro empty
        rw [empty, List.length_nil] at whole
        omega
      have rest : (items.drop size).length = count * size := by
        rw [List.length_drop]
        omega
      rw [pieces_of_ne_nil positive nonempty, List.length_cons,
        length_pieces positive count rest]

theorem getElem_pieces {size : Nat} (positive : 0 < size) :
    ∀ (place : Nat) {items : List α} (inside : place < (pieces size items).length),
      (pieces size items)[place] = (items.drop (place * size)).take size
  | place, [], inside => by
      simp at inside
  | 0, item :: rest, _ => by
      simp [pieces_of_ne_nil positive]
  | place + 1, item :: rest, inside => by
      have nonempty : item :: rest ≠ [] := List.cons_ne_nil item rest
      have later : place < (pieces size ((item :: rest).drop size)).length := by
        simpa [pieces_of_ne_nil positive nonempty] using inside
      simp only [pieces_of_ne_nil positive nonempty, List.getElem_cons_succ]
      rw [getElem_pieces positive place later, List.drop_drop, Nat.succ_mul, Nat.add_comm]

/-- A list has as many pieces as it takes to hold it. -/
theorem length_pieces_eq {size : Nat} (positive : 0 < size) (items : List α) :
    (pieces size items).length = (items.length + (size - 1)) / size := by
  induction remaining : items.length using Nat.strong_induction_on generalizing items with
  | h length inductionHypothesis =>
      by_cases empty : items = []
      · rw [← remaining, empty, pieces_nil, List.length_nil, List.length_nil, Nat.zero_add,
          Nat.div_eq_of_lt (by omega)]
      · have some : 0 < items.length := List.length_pos_of_ne_nil empty
        have fewer : (items.drop size).length < length := by
          rw [List.length_drop]
          omega
        rw [pieces_of_ne_nil positive empty, List.length_cons, inductionHypothesis _ fewer _ rfl,
          List.length_drop, remaining]
        by_cases long : size ≤ length
        · have rest : length + (size - 1) = length - size + (size - 1) + size := by omega
          rw [rest, Nat.add_div_right _ positive]
        · have nothing : length - size = 0 := by omega
          have last : length + (size - 1) = length - 1 + size := by omega
          rw [nothing, last, Nat.zero_add, Nat.div_eq_of_lt (by omega),
            Nat.add_div_right _ positive, Nat.div_eq_of_lt (by omega)]

theorem ne_nil_of_mem_pieces {size : Nat} (positive : 0 < size) {items piece : List α}
    (member : piece ∈ pieces size items) : piece ≠ [] := by
  obtain ⟨place, inside, rfl⟩ := List.getElem_of_mem member
  rw [length_pieces_eq positive, Nat.lt_div_iff_mul_lt positive] at inside
  rw [getElem_pieces positive]
  apply List.ne_nil_of_length_pos
  rw [List.length_take, List.length_drop]
  omega

/-- All pieces but the last are full. -/
theorem length_of_mem_dropLast_pieces {size : Nat} (positive : 0 < size) {items piece : List α}
    (member : piece ∈ (pieces size items).dropLast) : piece.length = size := by
  obtain ⟨place, inside, rfl⟩ := List.getElem_of_mem member
  rw [List.length_dropLast, length_pieces_eq positive] at inside
  have another : place + 1 < (items.length + (size - 1)) / size := by omega
  rw [Nat.lt_div_iff_mul_lt positive, Nat.succ_mul] at another
  rw [List.getElem_dropLast, getElem_pieces positive, List.length_take, List.length_drop]
  omega

theorem length_of_mem_pieces {α : Type} {size : Nat} (positive : 0 < size) :
    ∀ (count : Nat) {items : List α}, items.length = count * size →
      ∀ piece ∈ pieces size items, piece.length = size
  | 0, items, whole => by
      have empty : items = [] := List.eq_nil_of_length_eq_zero (by omega)
      simp [empty]
  | count + 1, items, whole => by
      rw [Nat.succ_mul] at whole
      have nonempty : items ≠ [] := by
        rintro rfl
        simp at whole
        omega
      have rest : (items.drop size).length = count * size := by
        rw [List.length_drop]
        omega
      rw [pieces_of_ne_nil positive nonempty]
      refine List.forall_mem_cons.mpr ⟨?_, length_of_mem_pieces positive count rest⟩
      rw [List.length_take]
      omega

/-- What ends with a whole piece is cut up apart from what follows it. -/
theorem pieces_append {size : Nat} (positive : 0 < size) :
    ∀ (count : Nat) {front : List α}, front.length = count * size → ∀ back : List α,
      pieces size (front ++ back) = pieces size front ++ pieces size back
  | 0, front, whole, back => by
      have empty : front = [] := List.eq_nil_of_length_eq_zero (by omega)
      rw [empty, pieces_nil, List.nil_append, List.nil_append]
  | count + 1, front, whole, back => by
      rw [Nat.succ_mul] at whole
      have nonempty : front ≠ [] := List.ne_nil_of_length_pos (by omega)
      have rest : (front.drop size).length = count * size := by
        rw [List.length_drop]
        omega
      rw [pieces_of_ne_nil positive (List.append_ne_nil_of_left_ne_nil nonempty back),
        pieces_of_ne_nil positive nonempty, List.take_append_of_le_length (by omega),
        List.drop_append_of_le_length (by omega), pieces_append positive count rest,
        List.cons_append]

/-- What stands between two others is found by its place. -/
theorem extract_of_split {whole before middle after : List α} {start stop : Nat}
    (split : whole = before ++ middle ++ after) (starts : before.length = start)
    (stops : start + middle.length = stop) : whole.extract start stop = middle := by
  have width : stop - start = middle.length := by omega
  rw [split, List.extract_eq_take_drop, List.append_assoc, List.drop_left' starts, width,
    List.take_left]

theorem extract_add (items : List α) (start length : Nat) :
    items.extract start (start + length) = (items.drop start).take length := by
  rw [List.extract_eq_take_drop, Nat.add_sub_cancel_left]

/-- What stands inside a list stands there also when the list goes on. -/
theorem extract_append_of_le {items suffix : List α} {start stop : Nat}
    (inside : stop ≤ items.length) :
    (items ++ suffix).extract start stop = items.extract start stop := by
  rw [List.extract_eq_take_drop, List.extract_eq_take_drop, ← List.drop_take, ← List.drop_take,
    List.take_append_of_le_length inside]

theorem toNatLE_append (low high : Bytes) :
    toNatLE (low ++ high) = toNatLE low + 256 ^ low.length * toNatLE high := by
  induction low with
  | nil => simp [toNatLE]
  | cons byte rest inductionHypothesis =>
      rw [List.cons_append, toNatLE, toNatLE, inductionHypothesis, List.length_cons, Nat.pow_succ',
        Nat.mul_add, Nat.mul_assoc, Nat.add_assoc]

/-- A number is written low part first. -/
theorem ofNatLE_append {low high lowWidth highWidth : Nat} (fits : low < 256 ^ lowWidth) :
    ofNatLE (lowWidth + highWidth) (low + 256 ^ lowWidth * high) =
      ofNatLE lowWidth low ++ ofNatLE highWidth high := by
  induction lowWidth generalizing low with
  | zero =>
      have zero : low = 0 := by simpa using fits
      simp [zero, ofNatLE]
  | succ lowWidth inductionHypothesis =>
      have below : low / 256 < 256 ^ lowWidth := by
        rw [Nat.pow_succ] at fits
        exact Nat.div_lt_of_lt_mul (by omega)
      have first : UInt8.ofNat (low + 256 ^ (lowWidth + 1) * high) = UInt8.ofNat low := by
        apply UInt8.toNat_inj.mp
        rw [UInt8.toNat_ofNat', UInt8.toNat_ofNat', Nat.pow_succ', Nat.mul_assoc]
        exact Nat.add_mul_mod_self_left _ _ _
      have rest : (low + 256 ^ (lowWidth + 1) * high) / 256 =
          low / 256 + 256 ^ lowWidth * high := by
        rw [Nat.pow_succ', Nat.mul_assoc]
        exact Nat.add_mul_div_left _ _ (by decide)
      rw [Nat.succ_add, ofNatLE, ofNatLE, first, rest, inductionHypothesis below, List.cons_append]

theorem ofNatLE_zero (width : Nat) : ofNatLE width 0 = zeros width := by
  induction width with
  | zero => rfl
  | succ width inductionHypothesis =>
      rw [ofNatLE, Nat.zero_div, inductionHypothesis]
      rfl

/-- A number that is written wider than it has to be has zero bytes in front. -/
theorem ofNatBE_of_fits {value : Nat} (width more : Nat) (fits : value < 256 ^ width) :
    ofNatBE (width + more) value = zeros more ++ ofNatBE width value := by
  have split : ofNatLE (width + more) (value + 256 ^ width * 0) = _ := ofNatLE_append fits
  rw [Nat.mul_zero, Nat.add_zero, ofNatLE_zero] at split
  rw [ofNatBE, split, List.reverse_append, zeros, List.reverse_replicate]
  rfl

@[simp] theorem length_zeros (count : Nat) : (zeros count).length = count :=
  List.length_replicate

/-- The bit at a place of the stream. Behind the last byte all bits are zero. -/
def bit (bytes : Bytes) (place : Nat) : Bool :=
  (bytes.getD (place / 8) 0).toNat.testBit (place % 8)

/-- The number in a run of bits, the lowest bit first. -/
def bitField (bytes : Bytes) (start width : Nat) : Nat :=
  Nat.ofBits fun place : Fin width => bytes.bit (start + place)

theorem bit_eq_testBit (bytes : Bytes) (place : Nat) :
    bytes.bit place = (toNatLE bytes).testBit place := by
  induction bytes generalizing place with
  | nil => simp [bit, toNatLE]
  | cons byte rest inductionHypothesis =>
      have fits : byte.toNat < 2 ^ 8 := byte.toNat_lt
      have base : 256 * toNatLE rest = 2 ^ 8 * toNatLE rest := rfl
      rw [toNatLE, Nat.add_comm, base, Nat.testBit_two_pow_mul_add _ fits]
      by_cases low : place < 8
      · rw [if_pos low, bit, Nat.div_eq_of_lt low, Nat.mod_eq_of_lt low]
        rfl
      · have next : place / 8 = (place - 8) / 8 + 1 := by omega
        have same : place % 8 = (place - 8) % 8 := by omega
        rw [if_neg low, ← inductionHypothesis, bit, bit, next, same]
        rfl

theorem bitField_eq (bytes : Bytes) (start width : Nat) :
    bytes.bitField start width = toNatLE bytes / 2 ^ start % 2 ^ width := by
  apply Nat.eq_of_testBit_eq
  intro place
  rw [bitField, Nat.testBit_ofBits, Nat.testBit_mod_two_pow, Nat.testBit_div_two_pow]
  by_cases inside : place < width
  · rw [dif_pos inside, bit_eq_testBit, Nat.add_comm]
    simp [inside]
  · simp [inside]

end Countersign.Bytes

namespace Countersign

theorem Octets.ofBytes?_bytes {n : Nat} (octets : Octets n) :
    ofBytes? n octets.bytes = some octets := by
  unfold ofBytes?
  rw [dif_pos octets.length_bytes]

theorem Octets.ofBytes?_eq_some {n : Nat} {bytes : Bytes} {octets : Octets n}
    (read : Octets.ofBytes? n bytes = some octets) : octets.bytes = bytes := by
  rw [Octets.ofBytes?] at read
  split at read
  · cases read
    rfl
  · cases read

namespace Octets

variable {n : Nat}

theorem toNat_ofNat {value : Nat} (fits : value < 256 ^ n) : (ofNat n value).toNat = value := by
  rw [toNat, ofNat, Bytes.toNatBE_ofNatBE, Nat.mod_eq_of_lt fits]

theorem ofNat_toNat (octets : Octets n) : ofNat n octets.toNat = octets := by
  have read := Bytes.ofNatBE_toNatBE octets.bytes
  rw [octets.length_bytes] at read
  exact ext read

end Octets

theorem powerMod_eq (modulus : Nat) {bits : Nat} (base : Nat) {exponent : Nat}
    (fits : exponent < 2 ^ bits) :
    powerMod modulus bits base exponent = base ^ exponent % modulus := by
  induction bits generalizing base exponent with
  | zero =>
      have zero : exponent = 0 := by
        simpa using fits
      rw [zero, powerMod, Nat.pow_zero]
  | succ bits inductionHypothesis =>
      have half : exponent / 2 < 2 ^ bits := by
        rw [Nat.pow_succ] at fits
        omega
      have square : (base * base % modulus) ^ (exponent / 2) % modulus =
          base ^ (2 * (exponent / 2)) % modulus := by
        rw [← Nat.pow_mod, ← Nat.pow_two, ← Nat.pow_mul]
      rw [powerMod, inductionHypothesis _ half, square]
      by_cases odd : exponent % 2 = 1
      · have split : exponent = 2 * (exponent / 2) + 1 := by omega
        rw [if_pos odd, Nat.mul_mod_mod, ← Nat.pow_add_one', ← split]
      · have split : exponent = 2 * (exponent / 2) := by omega
        rw [if_neg odd, ← split]

end Countersign
