import Countersign.Proofs.Lattice.MlDsa.Evaluation
import Mathlib.Tactic.LinearCombination

/-!
The two transforms undo each other. A block that is joined of two remainders has these remainders,
so that splitting it again finds them; and the remainders of a block join to the block.
-/

namespace Countersign.Lattice.MlDsa

theorem splittingRoot_mul_inverse (number : Nat) :
    (splittingRoot number : Scalar) * inverseSplittingRoot number = 1 := by
  have powers : ∀ power : Fin 256,
      powerMod modulus 9 root power * powerMod modulus 9 root (512 - power) % modulus = 1 := by
    decide +kernel
  have product := powers ⟨reverseBits 8 number, reverseBits_lt 8 number⟩
  rw [splittingRoot, inverseSplittingRoot, ← Nat.cast_mul, ← ZMod.natCast_mod, product,
    Nat.cast_one]

theorem half_add_half : (((modulus + 1) / 2 : Nat) : Scalar) + ((modulus + 1) / 2 : Nat) = 1 := by
  have double : (modulus + 1) / 2 + (modulus + 1) / 2 = modulus + 1 := by decide
  rw [← Nat.cast_add, double, Nat.cast_add, ZMod.natCast_self, zero_add, Nat.cast_one]

/-- The low half of a block with given remainders. -/
def joinedLow (left right : Poly) : Poly :=
  (Poly.add left right).map (mulMod ((modulus + 1) / 2))

/-- The high half of a block with given remainders. -/
def joinedHigh (number : Nat) (left right : Poly) : Poly :=
  (Poly.sub left right).map (mulMod (mulMod ((modulus + 1) / 2) (inverseSplittingRoot number)))

theorem joinBlock_succ (depth number : Nat) (block : Poly) :
    joinBlock (depth + 1) number block =
      joinedLow (joinBlock depth (2 * number) (block.take (2 ^ depth)))
          (joinBlock depth (2 * number + 1) (block.drop (2 ^ depth))) ++
        joinedHigh number (joinBlock depth (2 * number) (block.take (2 ^ depth)))
          (joinBlock depth (2 * number + 1) (block.drop (2 ^ depth))) := by
  rw [joinBlock, Nat.one_shiftLeft]
  rfl

theorem map_mulMod_lt (factor : Nat) (block : Poly) :
    ∀ value ∈ block.map (mulMod factor), value < modulus := by
  intro value among
  obtain ⟨coefficient, _, rfl⟩ := List.mem_map.mp among
  exact mulMod_lt _ _

section Joined

variable {half number : Nat} {left right : Poly}

theorem length_joinedLow (leftLength : left.length = half) (rightLength : right.length = half) :
    (joinedLow left right).length = half := by
  simp [joinedLow, Poly.add, leftLength, rightLength]

theorem length_joinedHigh (leftLength : left.length = half) (rightLength : right.length = half) :
    (joinedHigh number left right).length = half := by
  simp [joinedHigh, Poly.sub, leftLength, rightLength]

/-- Half the sum and half the difference, the latter scaled to and fro, add up to the first part. -/
theorem addMod_joined (number : Nat) {first second : Nat} (firstReduced : first < modulus)
    (secondReduced : second < modulus) :
    addMod (mulMod ((modulus + 1) / 2) (addMod first second))
        (mulMod (splittingRoot number)
          (mulMod (mulMod ((modulus + 1) / 2) (inverseSplittingRoot number))
            (subMod first second))) = first := by
  refine eq_of_scalar_eq (addMod_lt _ _) firstReduced ?_
  simp only [natCast_addMod, natCast_mulMod, natCast_subMod (Nat.le_of_lt secondReduced)]
  linear_combination (first : Scalar) * half_add_half +
    (((modulus + 1) / 2 : Nat) : Scalar) * (first - second) * splittingRoot_mul_inverse number

theorem subMod_joined (number : Nat) {first second : Nat} (secondReduced : second < modulus) :
    subMod (mulMod ((modulus + 1) / 2) (addMod first second))
        (mulMod (splittingRoot number)
          (mulMod (mulMod ((modulus + 1) / 2) (inverseSplittingRoot number))
            (subMod first second))) = second := by
  refine eq_of_scalar_eq (subMod_lt _ _) secondReduced ?_
  rw [natCast_subMod (Nat.le_of_lt (mulMod_lt _ _))]
  simp only [natCast_addMod, natCast_mulMod, natCast_subMod (Nat.le_of_lt secondReduced)]
  linear_combination (second : Scalar) * half_add_half -
    (((modulus + 1) / 2 : Nat) : Scalar) * (first - second) * splittingRoot_mul_inverse number

theorem leftRemainder_joined (leftLength : left.length = half) (rightLength : right.length = half)
    (leftReduced : ∀ value ∈ left, value < modulus)
    (rightReduced : ∀ value ∈ right, value < modulus) :
    leftRemainder half number (joinedLow left right ++ joinedHigh number left right) = left := by
  have low := length_joinedLow leftLength rightLength
  rw [leftRemainder, List.take_left' low, List.drop_left' low]
  refine List.ext_getElem ?_ ?_
  · simp [joinedLow, joinedHigh, Poly.add, Poly.sub, leftLength, rightLength]
  · intro place inBlock inLeft
    have inRight : place < right.length := by omega
    simp only [joinedLow, joinedHigh, Poly.add, Poly.sub, List.getElem_zipWith, List.getElem_map]
    exact addMod_joined number (leftReduced _ (List.getElem_mem inLeft))
      (rightReduced _ (List.getElem_mem inRight))

theorem rightRemainder_joined (leftLength : left.length = half) (rightLength : right.length = half)
    (rightReduced : ∀ value ∈ right, value < modulus) :
    rightRemainder half number (joinedLow left right ++ joinedHigh number left right) = right := by
  have low := length_joinedLow leftLength rightLength
  rw [rightRemainder, List.take_left' low, List.drop_left' low]
  refine List.ext_getElem ?_ ?_
  · simp [joinedLow, joinedHigh, Poly.add, Poly.sub, leftLength, rightLength]
  · intro place inBlock inRight
    simp only [joinedLow, joinedHigh, Poly.add, Poly.sub, List.getElem_zipWith, List.getElem_map]
    exact subMod_joined number (rightReduced _ (List.getElem_mem inRight))

end Joined

theorem length_halves {depth : Nat} {block : Poly} (length : block.length = 2 ^ (depth + 1)) :
    (block.take (2 ^ depth)).length = 2 ^ depth ∧ (block.drop (2 ^ depth)).length = 2 ^ depth := by
  rw [Nat.pow_succ, Nat.mul_two] at length
  rw [List.length_take, List.length_drop]
  omega

theorem length_joinBlock {depth number : Nat} {block : Poly} (length : block.length = 2 ^ depth) :
    (joinBlock depth number block).length = 2 ^ depth := by
  induction depth generalizing number block with
  | zero => exact length
  | succ depth inductionHypothesis =>
      obtain ⟨leftLength, rightLength⟩ := length_halves length
      rw [joinBlock_succ, List.length_append,
        length_joinedLow (inductionHypothesis leftLength) (inductionHypothesis rightLength),
        length_joinedHigh (inductionHypothesis leftLength) (inductionHypothesis rightLength),
        Nat.pow_succ, Nat.mul_two]

theorem joinBlock_lt {depth number : Nat} {block : Poly}
    (reduced : ∀ value ∈ block, value < modulus) :
    ∀ coefficient ∈ joinBlock depth number block, coefficient < modulus := by
  cases depth with
  | zero => exact reduced
  | succ depth =>
      intro coefficient among
      rw [joinBlock_succ] at among
      rcases List.mem_append.mp among with low | high
      · exact map_mulMod_lt _ _ coefficient low
      · exact map_mulMod_lt _ _ coefficient high

theorem splitBlock_joinBlock {depth number : Nat} {block : Poly}
    (length : block.length = 2 ^ depth) (reduced : ∀ value ∈ block, value < modulus) :
    splitBlock depth number (joinBlock depth number block) = block := by
  induction depth generalizing number block with
  | zero => rfl
  | succ depth inductionHypothesis =>
      obtain ⟨leftLength, rightLength⟩ := length_halves length
      have leftReduced : ∀ value ∈ block.take (2 ^ depth), value < modulus := by
        intro value among
        exact reduced value (List.mem_of_mem_take among)
      have rightReduced : ∀ value ∈ block.drop (2 ^ depth), value < modulus := by
        intro value among
        exact reduced value (List.mem_of_mem_drop among)
      rw [joinBlock_succ, splitBlock_succ,
        leftRemainder_joined (length_joinBlock leftLength) (length_joinBlock rightLength)
          (joinBlock_lt leftReduced) (joinBlock_lt rightReduced),
        rightRemainder_joined (length_joinBlock leftLength) (length_joinBlock rightLength)
          (joinBlock_lt rightReduced),
        inductionHypothesis leftLength leftReduced, inductionHypothesis rightLength rightReduced,
        List.take_append_drop]

section Split

variable {half number : Nat} {block : Poly}

theorem joinedLow_remainders (length : block.length = 2 * half)
    (reduced : ∀ value ∈ block, value < modulus) :
    joinedLow (leftRemainder half number block) (rightRemainder half number block) =
      block.take half := by
  refine List.ext_getElem ?_ ?_
  · rw [length_joinedLow (length_leftRemainder length) (length_rightRemainder length),
      List.length_take, length]
    omega
  · intro place inJoined inBlock
    have inside : place < block.length := by
      rw [List.length_take] at inBlock
      omega
    have below : block[place] < modulus := reduced _ (List.getElem_mem _)
    simp only [joinedLow, leftRemainder, rightRemainder, Poly.add, Poly.sub, List.getElem_map,
      List.getElem_zipWith, List.getElem_take, List.getElem_drop]
    refine eq_of_scalar_eq (mulMod_lt _ _) below ?_
    rw [natCast_mulMod, natCast_addMod, natCast_addMod,
      natCast_subMod (Nat.le_of_lt (mulMod_lt _ _))]
    linear_combination (block[place] : Scalar) * half_add_half

theorem joinedHigh_remainders (length : block.length = 2 * half)
    (reduced : ∀ value ∈ block, value < modulus) :
    joinedHigh number (leftRemainder half number block) (rightRemainder half number block) =
      block.drop half := by
  refine List.ext_getElem ?_ ?_
  · rw [length_joinedHigh (length_leftRemainder length) (length_rightRemainder length),
      List.length_drop, length]
    omega
  · intro place inJoined inBlock
    have inside : half + place < block.length := by
      rw [List.length_drop] at inBlock
      omega
    have below : block[half + place] < modulus := reduced _ (List.getElem_mem _)
    simp only [joinedHigh, leftRemainder, rightRemainder, Poly.add, Poly.sub, List.getElem_map,
      List.getElem_zipWith, List.getElem_take, List.getElem_drop]
    refine eq_of_scalar_eq (mulMod_lt _ _) below ?_
    rw [natCast_mulMod, natCast_mulMod, natCast_subMod (Nat.le_of_lt (subMod_lt _ _)),
      natCast_addMod, natCast_subMod (Nat.le_of_lt (mulMod_lt _ _)), natCast_mulMod]
    linear_combination (block[half + place] : Scalar) *
      (half_add_half * (splittingRoot number * inverseSplittingRoot number) +
        splittingRoot_mul_inverse number)

theorem joinBlock_splitBlock {depth number : Nat} {block : Poly}
    (length : block.length = 2 ^ depth) (reduced : ∀ value ∈ block, value < modulus) :
    joinBlock depth number (splitBlock depth number block) = block := by
  induction depth generalizing number block with
  | zero => rfl
  | succ depth inductionHypothesis =>
      have double : block.length = 2 * 2 ^ depth := by rw [length, Nat.pow_succ']
      have leftLength := @length_leftRemainder _ number _ double
      have rightLength := @length_rightRemainder _ number _ double
      have splitLength :
          (splitBlock depth (2 * number) (leftRemainder (2 ^ depth) number block)).length =
            2 ^ depth :=
        length_splitBlock leftLength
      rw [splitBlock_succ, joinBlock_succ, List.take_left' splitLength,
        List.drop_left' splitLength, inductionHypothesis leftLength leftRemainder_lt,
        inductionHypothesis rightLength rightRemainder_lt, joinedLow_remainders double reduced,
        joinedHigh_remainders double reduced, List.take_append_drop]

end Split

section Transforms

variable {values : Poly}

theorem length_inverseNtt (length : values.length = 256) : (inverseNtt values).length = 256 :=
  length_joinBlock length

theorem inverseNtt_lt (reduced : ∀ value ∈ values, value < modulus) :
    ∀ coefficient ∈ inverseNtt values, coefficient < modulus :=
  joinBlock_lt reduced

/-- The inverse transform finds a polynomial with given values. -/
theorem ntt_inverseNtt (length : values.length = 256)
    (reduced : ∀ value ∈ values, value < modulus) : ntt (inverseNtt values) = values :=
  splitBlock_joinBlock length reduced

/-- The inverse transform finds the polynomial that the values were taken of. -/
theorem inverseNtt_ntt {poly : Poly} (length : poly.length = 256)
    (reduced : ∀ coefficient ∈ poly, coefficient < modulus) : inverseNtt (ntt poly) = poly :=
  joinBlock_splitBlock length reduced

end Transforms

end Countersign.Lattice.MlDsa
