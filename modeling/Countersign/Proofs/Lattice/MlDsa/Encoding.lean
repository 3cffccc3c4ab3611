import Countersign.Lattice.MlDsa.Key
import Countersign.Proofs.Bytes
import Mathlib.Data.Nat.Digits.Lemmas

/-!
Coefficients of a number of bits are the digits of the number that their bytes denote, eight
coefficients at a time. So unpacking gives back what was packed.
-/

namespace Countersign.Lattice.MlDsa

section Digits

variable {base : Nat}

theorem ofDigits_eq (values : List Nat) : ofDigits base values = Nat.ofDigits base values := by
  induction values with
  | nil => rfl
  | cons value rest inductionHypothesis =>
      rw [ofDigits, inductionHypothesis, Nat.ofDigits_cons]

@[simp]
theorem length_digits (count value : Nat) : (digits base count value).length = count := by
  induction count generalizing value with
  | zero => rfl
  | succ count inductionHypothesis => rw [digits, List.length_cons, inductionHypothesis]

theorem digits_lt (positive : 0 < base) (count value : Nat) :
    ∀ digit ∈ digits base count value, digit < base := by
  induction count generalizing value with
  | zero => simp [digits]
  | succ count inductionHypothesis =>
      exact List.forall_mem_cons.mpr ⟨Nat.mod_lt _ positive, inductionHypothesis _⟩

theorem digits_ofDigits {values : List Nat} (narrow : ∀ value ∈ values, value < base) :
    digits base values.length (ofDigits base values) = values := by
  induction values with
  | nil => rfl
  | cons value rest inductionHypothesis =>
      obtain ⟨here, later⟩ := List.forall_mem_cons.mp narrow
      have positive : 0 < base := Nat.zero_lt_of_lt here
      rw [List.length_cons, ofDigits, digits, Nat.add_mul_mod_self_left, Nat.mod_eq_of_lt here,
        Nat.add_mul_div_left _ _ positive, Nat.div_eq_of_lt here, Nat.zero_add,
        inductionHypothesis later]

theorem ofDigits_digits (count value : Nat) :
    ofDigits base (digits base count value) = value % base ^ count := by
  induction count generalizing value with
  | zero => rw [digits, ofDigits, Nat.pow_zero, Nat.mod_one]
  | succ count inductionHypothesis =>
      rw [digits, ofDigits, inductionHypothesis, Nat.pow_succ', Nat.mod_mul]

/-- The digits of a number are those of its low part and then those of its high part. -/
theorem digits_append {low high lowCount highCount : Nat} (fits : low < base ^ lowCount) :
    digits base (lowCount + highCount) (low + base ^ lowCount * high) =
      digits base lowCount low ++ digits base highCount high := by
  induction lowCount generalizing low with
  | zero =>
      have zero : low = 0 := by simpa using fits
      simp [zero, digits]
  | succ lowCount inductionHypothesis =>
      rw [Nat.pow_succ'] at fits
      have positive : 0 < base := Nat.pos_of_mul_pos_right (Nat.zero_lt_of_lt fits)
      have below : low / base < base ^ lowCount := Nat.div_lt_of_lt_mul fits
      rw [Nat.succ_add, digits, digits, Nat.pow_succ', Nat.mul_assoc, Nat.add_mul_mod_self_left,
        Nat.add_mul_div_left _ _ positive, inductionHypothesis below, List.cons_append]

theorem getElem?_digits {count place : Nat} (inside : place < count) (value : Nat) :
    (digits base count value)[place]? = some (value / base ^ place % base) := by
  induction count generalizing place value with
  | zero => omega
  | succ count inductionHypothesis =>
      rw [digits]
      cases place with
      | zero => rw [List.getElem?_cons_zero, Nat.pow_zero, Nat.div_one]
      | succ place =>
          rw [List.getElem?_cons_succ, inductionHypothesis (Nat.lt_of_succ_lt_succ inside),
            Nat.div_div_eq_div_mul, Nat.pow_succ']

/-- If so many digits hold as much as a group of bytes, the digits of the groups are those of all
the bytes. -/
theorem flatMap_digits {size perGroup : Nat} (positive : 0 < size)
    (holds : base ^ perGroup = 256 ^ size) (groups : Nat) {bytes : Bytes}
    (whole : bytes.length = groups * size) :
    ((Bytes.pieces size bytes).flatMap fun group => digits base perGroup (Bytes.toNatLE group)) =
      digits base (groups * perGroup) (Bytes.toNatLE bytes) := by
  induction groups generalizing bytes with
  | zero =>
      have empty : bytes = [] := List.eq_nil_of_length_eq_zero (by omega)
      rw [empty, Nat.zero_mul]
      rfl
  | succ groups inductionHypothesis =>
      rw [Nat.succ_mul] at whole
      have nonempty : bytes ≠ [] := List.ne_nil_of_length_pos (by omega)
      have first : (bytes.take size).length = size := by
        rw [List.length_take]
        omega
      have rest : (bytes.drop size).length = groups * size := by
        rw [List.length_drop]
        omega
      have fits := Bytes.toNatLE_lt (bytes.take size)
      have number := Bytes.toNatLE_append (bytes.take size) (bytes.drop size)
      rw [first, ← holds] at fits
      rw [List.take_append_drop, first, ← holds] at number
      rw [Bytes.pieces_of_ne_nil positive nonempty, List.flatMap_cons, inductionHypothesis rest,
        number, Nat.succ_mul, Nat.add_comm, digits_append fits]

end Digits

section Bits

variable {width : Nat} {values : List Nat}

theorem pieces_packBits (positive : 0 < width) (values : List Nat) :
    Bytes.pieces width (packBits width values) =
      (Bytes.pieces 8 values).map fun group =>
        Bytes.ofNatLE width (ofDigits (1 <<< width) group) := by
  rw [packBits, List.flatMap_def]
  refine Bytes.pieces_flatten positive ?_
  intro block among
  obtain ⟨group, _, rfl⟩ := List.mem_map.mp among
  exact Bytes.length_ofNatLE _ _

theorem length_packBits (groups : Nat) (whole : values.length = groups * 8) :
    (packBits width values).length = groups * width := by
  have count : (Bytes.pieces 8 values).length = groups :=
    Bytes.length_pieces (by decide) groups whole
  simp [packBits, List.length_flatMap, count]

theorem digits_ofNatLE (positive : 0 < width) {group : List Nat} (eight : group.length = 8)
    (narrow : ∀ value ∈ group, value < 1 <<< width) :
    digits (1 <<< width) 8 (Bytes.toNatLE (Bytes.ofNatLE width (ofDigits (1 <<< width) group))) =
      group := by
  have base : 1 < 1 <<< width := by
    rw [Nat.one_shiftLeft]
    exact Nat.one_lt_two_pow positive.ne'
  have fits : ofDigits (1 <<< width) group < 256 ^ width := by
    calc ofDigits (1 <<< width) group
        < (1 <<< width) ^ group.length := by
          rw [ofDigits_eq]
          exact Nat.ofDigits_lt_base_pow_length base narrow
      _ = 256 ^ width := by
          rw [eight, Nat.one_shiftLeft, ← Nat.pow_mul, Nat.mul_comm, Nat.pow_mul]
  rw [Bytes.toNatLE_ofNatLE, Nat.mod_eq_of_lt fits]
  rw [← eight]
  exact digits_ofDigits narrow

theorem unpackBits_packBits (positive : 0 < width) (groups : Nat)
    (whole : values.length = groups * 8) (narrow : ∀ value ∈ values, value < 1 <<< width) :
    unpackBits width (packBits width values) = values := by
  have undone : ∀ group ∈ Bytes.pieces 8 values,
      digits (1 <<< width) 8
        (Bytes.toNatLE (Bytes.ofNatLE width (ofDigits (1 <<< width) group))) = group := by
    intro group among
    refine digits_ofNatLE positive ?_ ?_
    · exact Bytes.length_of_mem_pieces (by decide) groups whole group among
    · intro value inside
      refine narrow value ?_
      rw [← Bytes.flatten_pieces (show 0 < 8 by decide) values]
      exact List.mem_flatten_of_mem among inside
  rw [unpackBits, pieces_packBits positive, List.flatMap_map, List.flatMap_congr undone,
    List.flatMap_id', Bytes.flatten_pieces (by decide)]

/-- Eight digits of ten bits, or of any other number of bits, hold all of the bytes they are read
from. -/
theorem packBits_unpackBits {bytes : Bytes} (positive : 0 < width) (groups : Nat)
    (whole : bytes.length = groups * width) : packBits width (unpackBits width bytes) = bytes := by
  have eight : Bytes.pieces 8 (unpackBits width bytes) =
      (Bytes.pieces width bytes).map fun group => digits (1 <<< width) 8 (Bytes.toNatLE group) := by
    rw [unpackBits, List.flatMap_def]
    refine Bytes.pieces_flatten (by decide) ?_
    intro block among
    obtain ⟨group, _, rfl⟩ := List.mem_map.mp among
    exact length_digits _ _
  have undone : ∀ group ∈ Bytes.pieces width bytes,
      Bytes.ofNatLE width
        (ofDigits (1 <<< width) (digits (1 <<< width) 8 (Bytes.toNatLE group))) = group := by
    intro group among
    have length : group.length = width :=
      Bytes.length_of_mem_pieces positive groups whole group among
    have base : (1 <<< width) ^ 8 = 256 ^ group.length := by
      rw [Nat.one_shiftLeft, ← Nat.pow_mul, length, Nat.mul_comm, Nat.pow_mul]
    rw [ofDigits_digits, base, Nat.mod_eq_of_lt (Bytes.toNatLE_lt group), ← length]
    exact Bytes.ofNatLE_toNatLE group
  rw [packBits, eight, List.flatMap_map, List.flatMap_congr undone, List.flatMap_id',
    Bytes.flatten_pieces positive]

theorem length_unpackBits {bytes : Bytes} (positive : 0 < width) (groups : Nat)
    (whole : bytes.length = groups * width) : (unpackBits width bytes).length = groups * 8 := by
  have count : (Bytes.pieces width bytes).length = groups :=
    Bytes.length_pieces positive groups whole
  simp [unpackBits, List.length_flatMap, count]

/-- The values are the digits of one number, that of all the bytes. -/
theorem unpackBits_eq_digits (positive : 0 < width) (groups : Nat) {bytes : Bytes}
    (whole : bytes.length = groups * width) :
    unpackBits width bytes = digits (1 <<< width) (groups * 8) (Bytes.toNatLE bytes) := by
  have base : (1 <<< width) ^ 8 = 256 ^ width := by
    rw [Nat.one_shiftLeft, ← Nat.pow_mul, Nat.mul_comm, Nat.pow_mul]
  exact flatMap_digits positive base groups whole

theorem unpackBits_lt (bytes : Bytes) : ∀ value ∈ unpackBits width bytes, value < 1 <<< width := by
  intro value among
  obtain ⟨group, _, inside⟩ := List.mem_flatMap.mp among
  refine digits_lt ?_ 8 _ value inside
  rw [Nat.one_shiftLeft]
  exact Nat.two_pow_pos width

end Bits

section Vector

variable {polys : List Poly}

theorem pieces_packed (lengths : ∀ poly ∈ polys, poly.length = 256) :
    Bytes.pieces t1Length (polys.flatMap (packBits 10)) = polys.map (packBits 10) := by
  rw [List.flatMap_def]
  refine Bytes.pieces_flatten (by decide) ?_
  intro block among
  obtain ⟨poly, inside, rfl⟩ := List.mem_map.mp among
  exact length_packBits 32 (lengths poly inside)

theorem unpackT1_packed (lengths : ∀ poly ∈ polys, poly.length = 256)
    (narrow : ∀ poly ∈ polys, ∀ coefficient ∈ poly, coefficient < 1024) :
    unpackT1 (polys.flatMap (packBits 10)) = polys := by
  have undone : ∀ poly ∈ polys, unpackBits 10 (packBits 10 poly) = poly := by
    intro poly among
    exact unpackBits_packBits (by decide) 32 (lengths poly among) (narrow poly among)
  rw [unpackT1, pieces_packed lengths, List.map_map]
  exact (List.map_congr_left undone).trans (List.map_id _)

/-- The bytes of whole polynomials are found in these again. -/
theorem packed_unpackT1 {bytes : Bytes} (count : Nat) (whole : bytes.length = count * t1Length) :
    (unpackT1 bytes).flatMap (packBits 10) = bytes := by
  have undone : ∀ chunk ∈ Bytes.pieces t1Length bytes,
      packBits 10 (unpackBits 10 chunk) = chunk := by
    intro chunk among
    have length : chunk.length = t1Length :=
      Bytes.length_of_mem_pieces (by decide) count whole chunk among
    exact packBits_unpackBits (by decide) 32 length
  rw [unpackT1, List.flatMap_map, List.flatMap_congr undone, List.flatMap_id',
    Bytes.flatten_pieces (by decide)]

theorem length_packed (lengths : ∀ poly ∈ polys, poly.length = 256) :
    (polys.flatMap (packBits 10)).length = polys.length * t1Length := by
  induction polys with
  | nil => simp
  | cons poly rest inductionHypothesis =>
      obtain ⟨here, later⟩ := List.forall_mem_cons.mp lengths
      have first : (packBits 10 poly).length = t1Length := length_packBits 32 here
      rw [List.flatMap_cons, List.length_append, first, inductionHypothesis later,
        List.length_cons, Nat.succ_mul, Nat.add_comm]

end Vector

end Countersign.Lattice.MlDsa
