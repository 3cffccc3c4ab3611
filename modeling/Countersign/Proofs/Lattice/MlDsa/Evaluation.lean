import Countersign.Lattice.MlDsa.Key
import Countersign.Proofs.Bytes
import Mathlib.Algebra.Polynomial.Div
import Mathlib.Data.ZMod.Basic

/-!
The transform evaluates. A block of coefficients stands for a polynomial modulo `Xᵐ - c`, and
splitting it takes the remainders modulo the two factors, so that each single coefficient at the
end is a value of the polynomial one started from.
-/

namespace Countersign.Lattice.MlDsa

open Polynomial

/-- The field. -/
abbrev Scalar :=
  ZMod modulus

/-- The polynomial with given coefficients, the constant one first. -/
noncomputable def polynomial : Poly → Scalar[X]
  | [] => 0
  | coefficient :: rest => C (coefficient : Scalar) + X * polynomial rest

theorem modulus_pos : 0 < modulus := by
  decide

theorem addMod_lt (left right : Nat) : addMod left right < modulus :=
  Nat.mod_lt _ modulus_pos

theorem subMod_lt (left right : Nat) : subMod left right < modulus :=
  Nat.mod_lt _ modulus_pos

theorem mulMod_lt (left right : Nat) : mulMod left right < modulus :=
  Nat.mod_lt _ modulus_pos

theorem natCast_addMod (left right : Nat) :
    (addMod left right : Scalar) = left + right := by
  rw [addMod, ZMod.natCast_mod, Nat.cast_add]

theorem natCast_subMod {left right : Nat} (reduced : right ≤ modulus) :
    (subMod left right : Scalar) = left - right := by
  rw [subMod, ZMod.natCast_mod, Nat.cast_sub (by omega), Nat.cast_add, ZMod.natCast_self, add_zero]

theorem natCast_mulMod (left right : Nat) :
    (mulMod left right : Scalar) = left * right := by
  rw [mulMod, ZMod.natCast_mod, Nat.cast_mul]

/-- Numbers of the field are equal if they are the same scalar. -/
theorem eq_of_scalar_eq {left right : Nat} (leftReduced : left < modulus)
    (rightReduced : right < modulus) (same : (left : Scalar) = right) : left = right := by
  have congruent := (ZMod.natCast_eq_natCast_iff' _ _ _).mp same
  rwa [Nat.mod_eq_of_lt leftReduced, Nat.mod_eq_of_lt rightReduced] at congruent

@[simp]
theorem polynomial_nil :
    polynomial [] = 0 :=
  rfl

@[simp]
theorem polynomial_cons (coefficient : Nat) (rest : Poly) :
    polynomial (coefficient :: rest) = C (coefficient : Scalar) + X * polynomial rest :=
  rfl

theorem polynomial_append (low high : Poly) :
    polynomial (low ++ high) = polynomial low + X ^ low.length * polynomial high := by
  induction low with
  | nil => simp
  | cons coefficient rest inductionHypothesis =>
      rw [List.cons_append, polynomial_cons, polynomial_cons, inductionHypothesis,
        List.length_cons]
      ring

theorem polynomial_scale (factor : Nat) (block : Poly) :
    polynomial (block.map (mulMod factor)) = C (factor : Scalar) * polynomial block := by
  induction block with
  | nil => simp
  | cons coefficient rest inductionHypothesis =>
      rw [List.map_cons, polynomial_cons, polynomial_cons, inductionHypothesis, natCast_mulMod,
        C_mul]
      ring

/-- An operation on coefficients that is linear is one on polynomials. -/
theorem polynomial_zipWith {operation : Nat → Nat → Nat} {factor : Scalar} {left right : Poly}
    (lengths : left.length = right.length)
    (linear : ∀ coefficient, ∀ other ∈ right,
      (operation coefficient other : Scalar) = coefficient + factor * other) :
    polynomial (List.zipWith operation left right) =
      polynomial left + C factor * polynomial right := by
  induction left generalizing right with
  | nil =>
      cases right with
      | nil => simp
      | cons coefficient rest => cases lengths
  | cons leftFirst leftRest inductionHypothesis =>
      cases right with
      | nil => cases lengths
      | cons rightFirst rightRest =>
          have first := linear leftFirst rightFirst List.mem_cons_self
          have rest := inductionHypothesis (Nat.succ.inj lengths) fun coefficient other among =>
            linear coefficient other (List.mem_cons_of_mem rightFirst among)
          rw [List.zipWith_cons_cons, polynomial_cons, first, rest, polynomial_cons,
            polynomial_cons, C_add, C_mul]
          ring

/-- What an operation yields is reduced if the operation reduces. -/
theorem zipWith_lt {operation : Nat → Nat → Nat}
    (reduces : ∀ left right, operation left right < modulus) (left right : Poly) :
    ∀ value ∈ List.zipWith operation left right, value < modulus := by
  intro value among
  obtain ⟨place, inside, rfl⟩ := List.mem_iff_getElem.mp among
  rw [List.getElem_zipWith]
  exact reduces _ _

theorem polynomial_ofFn {count : Nat} (coefficient : Fin count → Nat) :
    polynomial (List.ofFn coefficient) =
      ∑ place : Fin count, C (coefficient place : Scalar) * X ^ place.val := by
  induction count with
  | zero => simp
  | succ count inductionHypothesis =>
      have shifted : X * ∑ place : Fin count,
          C (coefficient place.succ : Scalar) * X ^ place.val =
            ∑ place : Fin count, C (coefficient place.succ : Scalar) * X ^ place.succ.val := by
        rw [Finset.mul_sum]
        refine Finset.sum_congr rfl ?_
        intro place _
        rw [Fin.val_succ]
        ring
      rw [List.ofFn_succ, polynomial_cons, inductionHypothesis, shifted, Fin.sum_univ_succ,
        Fin.val_zero, pow_zero, mul_one]

instance : Fact (1 < modulus) :=
  ⟨by decide⟩

theorem natDegree_remainder_lt {degree : Nat} (positive : 0 < degree) (poly : Scalar[X]) :
    (poly %ₘ (X ^ degree + 1)).natDegree < degree := by
  have monic : (X ^ degree + C 1 : Scalar[X]).Monic := monic_X_pow_add_C 1 positive.ne'
  have notOne : (X ^ degree + C 1 : Scalar[X]) ≠ 1 := X_pow_add_C_ne_one positive 1
  have small := natDegree_modByMonic_lt poly monic notOne
  rwa [natDegree_X_pow_add_C, map_one] at small

/-- The root at a node of the heap of blocks: a block of `m` coefficients stands for a polynomial
modulo `Xᵐ` less this root. -/
def nodeRoot (node : Nat) : Scalar :=
  (root : Scalar) ^ reverseBits 9 node

theorem root_pow_half : (root : Scalar) ^ 256 = -1 := by
  have power : root ^ 256 % modulus = modulus - 1 := by
    decide +kernel
  rw [← Nat.cast_pow, ← ZMod.natCast_mod, power, Nat.cast_sub modulus_pos, ZMod.natCast_self,
    Nat.cast_one, zero_sub]

theorem root_pow_order : (root : Scalar) ^ 512 = 1 := by
  rw [show 512 = 256 * 2 from rfl, pow_mul, root_pow_half, neg_one_sq]

theorem reverseBits_lt (width value : Nat) : reverseBits width value < 2 ^ width := by
  induction width generalizing value with
  | zero => exact Nat.one_pos
  | succ width inductionHypothesis =>
      have rest := inductionHypothesis (value / 2)
      have bit : value % 2 ≤ 1 := by omega
      have high : value % 2 * 2 ^ width ≤ 1 * 2 ^ width := Nat.mul_le_mul_right _ bit
      rw [reverseBits, Nat.shiftLeft_eq, Nat.pow_succ]
      omega

/-- A bit that is not there is read as a zero, which comes last in reverse order. -/
theorem reverseBits_succ {width value : Nat} (fits : value < 2 ^ width) :
    reverseBits (width + 1) value = 2 * reverseBits width value := by
  induction width generalizing value with
  | zero =>
      have zero : value = 0 := by
        simpa using fits
      rw [zero]
      rfl
  | succ width inductionHypothesis =>
      have half : value / 2 < 2 ^ width := by
        rw [Nat.pow_succ] at fits
        omega
      rw [reverseBits, inductionHypothesis half]
      rw [reverseBits, Nat.shiftLeft_eq, Nat.shiftLeft_eq, Nat.pow_succ]
      ring

theorem splittingRoot_eq (node : Nat) :
    splittingRoot node = root ^ reverseBits 8 node % modulus := by
  have fits : reverseBits 8 node < 2 ^ 9 :=
    Nat.lt_trans (reverseBits_lt 8 node) (by decide)
  rw [splittingRoot, powerMod_eq modulus root fits]

theorem natCast_splittingRoot (node : Nat) :
    (splittingRoot node : Scalar) = (root : Scalar) ^ reverseBits 8 node := by
  rw [splittingRoot_eq, ZMod.natCast_mod, Nat.cast_pow]

theorem nodeRoot_left (node : Nat) :
    nodeRoot (2 * node) = splittingRoot node := by
  have even : 2 * node % 2 = 0 := by omega
  have half : 2 * node / 2 = node := by omega
  rw [nodeRoot, natCast_splittingRoot, reverseBits, even, half, Nat.zero_shiftLeft, Nat.zero_add]

theorem nodeRoot_right (node : Nat) :
    nodeRoot (2 * node + 1) = -splittingRoot node := by
  have odd : (2 * node + 1) % 2 = 1 := by omega
  have half : (2 * node + 1) / 2 = node := by omega
  rw [nodeRoot, natCast_splittingRoot, reverseBits, odd, half, pow_add, Nat.one_shiftLeft]
  rw [show 2 ^ 8 = 256 from rfl, root_pow_half, neg_one_mul]

/-- The root of a node is a square root of that of its parent. -/
theorem nodeRoot_sq {node : Nat} (inside : node < 512) :
    nodeRoot node ^ 2 = nodeRoot (node / 2) := by
  have half : node / 2 < 2 ^ 8 := by omega
  rw [nodeRoot, nodeRoot, reverseBits_succ half, ← pow_mul, reverseBits, Nat.shiftLeft_eq,
    Nat.add_mul, Nat.mul_assoc, pow_add, Nat.mul_comm (node % 2), pow_mul]
  rw [show 2 ^ 8 * 2 = 512 from rfl, root_pow_order, one_pow, one_mul, Nat.mul_comm]

theorem nodeRoot_pow {node : Nat} (inside : node < 512) (depth : Nat) :
    nodeRoot node ^ 2 ^ depth = nodeRoot (node / 2 ^ depth) := by
  induction depth with
  | zero => simp
  | succ depth inductionHypothesis =>
      have above : node / 2 ^ depth < 512 := Nat.lt_of_le_of_lt (Nat.div_le_self _ _) inside
      rw [Nat.pow_succ, pow_mul, inductionHypothesis, nodeRoot_sq above, Nat.div_div_eq_div_mul]

/-- The leaves below a node are those of which its root is a power. -/
theorem nodeRoot_pow_of_below {node depth leaf : Nat} (inside : (node + 1) * 2 ^ depth ≤ 512)
    (below : leaf ∈ List.range' (node * 2 ^ depth) (2 ^ depth)) :
    nodeRoot leaf ^ 2 ^ depth = nodeRoot node := by
  obtain ⟨lower, upper⟩ := List.mem_range'_1.mp below
  rw [← Nat.succ_mul] at upper
  rw [nodeRoot_pow (Nat.lt_of_lt_of_le upper inside), Nat.div_eq_of_lt_le lower upper]

/-! ## Blocks -/

/-- The remainder of a block modulo the factor with the root that splits it. -/
def leftRemainder (half number : Nat) (block : Poly) : Poly :=
  Poly.add (block.take half) ((block.drop half).map (mulMod (splittingRoot number)))

/-- The remainder of a block modulo the other factor. -/
def rightRemainder (half number : Nat) (block : Poly) : Poly :=
  Poly.sub (block.take half) ((block.drop half).map (mulMod (splittingRoot number)))

theorem splitBlock_succ (depth number : Nat) (block : Poly) :
    splitBlock (depth + 1) number block =
      splitBlock depth (2 * number) (leftRemainder (2 ^ depth) number block) ++
        splitBlock depth (2 * number + 1) (rightRemainder (2 ^ depth) number block) := by
  rw [splitBlock, Nat.one_shiftLeft]
  rfl

section Remainders

variable {half number : Nat} {block : Poly}

theorem length_leftRemainder (length : block.length = 2 * half) :
    (leftRemainder half number block).length = half := by
  simp [leftRemainder, Poly.add, length]
  omega

theorem length_rightRemainder (length : block.length = 2 * half) :
    (rightRemainder half number block).length = half := by
  simp [rightRemainder, Poly.sub, length]
  omega

theorem leftRemainder_lt : ∀ value ∈ leftRemainder half number block, value < modulus :=
  zipWith_lt addMod_lt _ _

theorem rightRemainder_lt : ∀ value ∈ rightRemainder half number block, value < modulus :=
  zipWith_lt subMod_lt _ _

/-- At a root of its factor a remainder has the value of the block. -/
theorem eval_remainder (factor : Scalar) (length : block.length = 2 * half)
    {operation : Nat → Nat → Nat} {point : Scalar}
    (linear : ∀ coefficient other, other < modulus →
      (operation coefficient other : Scalar) = coefficient + factor * other)
    (isRoot : point ^ half = factor * splittingRoot number) :
    (polynomial (List.zipWith operation (block.take half)
      ((block.drop half).map (mulMod (splittingRoot number))))).eval point =
        (polynomial block).eval point := by
  have low : (block.take half).length = half := by
    rw [List.length_take, length]
    omega
  have lengths : (block.take half).length =
      ((block.drop half).map (mulMod (splittingRoot number))).length := by
    rw [low, List.length_map, List.length_drop, length]
    omega
  have reduced : ∀ other ∈ (block.drop half).map (mulMod (splittingRoot number)),
      other < modulus := by
    intro other among
    obtain ⟨coefficient, _, rfl⟩ := List.mem_map.mp among
    exact mulMod_lt _ _
  conv_rhs => rw [← List.take_append_drop half block]
  rw [polynomial_zipWith lengths fun coefficient other among =>
    linear coefficient other (reduced other among), polynomial_scale, polynomial_append, low]
  simp only [eval_add, eval_mul, eval_C, eval_pow, eval_X, isRoot]
  ring

theorem eval_leftRemainder (length : block.length = 2 * half) {point : Scalar}
    (isRoot : point ^ half = splittingRoot number) :
    (polynomial (leftRemainder half number block)).eval point = (polynomial block).eval point := by
  refine eval_remainder 1 length ?_ ?_
  · intro coefficient other _
    rw [natCast_addMod, one_mul]
  · rw [isRoot, one_mul]

theorem eval_rightRemainder (length : block.length = 2 * half) {point : Scalar}
    (isRoot : point ^ half = -splittingRoot number) :
    (polynomial (rightRemainder half number block)).eval point = (polynomial block).eval point := by
  refine eval_remainder (-1) length ?_ ?_
  · intro coefficient other reduced
    rw [natCast_subMod (Nat.le_of_lt reduced), neg_one_mul, sub_eq_add_neg]
  · rw [isRoot, neg_one_mul]

end Remainders

theorem length_splitBlock {depth number : Nat} {block : Poly} (length : block.length = 2 ^ depth) :
    (splitBlock depth number block).length = 2 ^ depth := by
  induction depth generalizing number block with
  | zero => exact length
  | succ depth inductionHypothesis =>
      rw [Nat.pow_succ'] at length
      rw [splitBlock_succ, List.length_append, inductionHypothesis (length_leftRemainder length),
        inductionHypothesis (length_rightRemainder length), Nat.pow_succ, Nat.mul_two]

theorem splitBlock_lt {depth number : Nat} {block : Poly}
    (reduced : ∀ coefficient ∈ block, coefficient < modulus) :
    ∀ value ∈ splitBlock depth number block, value < modulus := by
  induction depth generalizing number block with
  | zero => exact reduced
  | succ depth inductionHypothesis =>
      intro value among
      rw [splitBlock_succ] at among
      rcases List.mem_append.mp among with left | right
      · exact inductionHypothesis leftRemainder_lt value left
      · exact inductionHypothesis rightRemainder_lt value right

/-- The coefficients that a block is split to are its values at the roots of the leaves below. -/
theorem splitBlock_eq_values {depth number : Nat} {block : Poly}
    (length : block.length = 2 ^ depth) (inside : (number + 1) * 2 ^ depth ≤ 512) :
    (splitBlock depth number block).map (Nat.cast : Nat → Scalar) =
      (List.range' (number * 2 ^ depth) (2 ^ depth)).map fun leaf =>
        (polynomial block).eval (nodeRoot leaf) := by
  induction depth generalizing number block with
  | zero =>
      obtain ⟨coefficient, rfl⟩ := List.length_eq_one_iff.mp length
      simp [splitBlock]
  | succ depth inductionHypothesis =>
      have two : 2 ^ (depth + 1) = 2 * 2 ^ depth := Nat.pow_succ'
      have leaves : (number + 1) * 2 ^ (depth + 1) = (2 * number + 1 + 1) * 2 ^ depth := by
        rw [two]
        ring
      rw [two] at length
      rw [leaves] at inside
      have next : (2 * number + 1) * 2 ^ depth = 2 * number * 2 ^ depth + 2 ^ depth :=
        Nat.succ_mul _ _
      have leftInside : (2 * number + 1) * 2 ^ depth ≤ 512 :=
        Nat.le_trans (Nat.mul_le_mul_right _ (Nat.le_succ _)) inside
      have leftValues : (splitBlock depth (2 * number)
          (leftRemainder (2 ^ depth) number block)).map (Nat.cast : Nat → Scalar) =
            (List.range' (2 * number * 2 ^ depth) (2 ^ depth)).map fun leaf =>
              (polynomial block).eval (nodeRoot leaf) := by
        rw [inductionHypothesis (length_leftRemainder length) leftInside]
        refine List.map_congr_left ?_
        intro leaf below
        apply eval_leftRemainder length
        rw [nodeRoot_pow_of_below leftInside below, nodeRoot_left]
      have rightValues : (splitBlock depth (2 * number + 1)
          (rightRemainder (2 ^ depth) number block)).map (Nat.cast : Nat → Scalar) =
            (List.range' ((2 * number + 1) * 2 ^ depth) (2 ^ depth)).map fun leaf =>
              (polynomial block).eval (nodeRoot leaf) := by
        rw [inductionHypothesis (length_rightRemainder length) inside]
        refine List.map_congr_left ?_
        intro leaf below
        apply eval_rightRemainder length
        rw [nodeRoot_pow_of_below inside below, nodeRoot_right]
      have range : List.range' (number * 2 ^ (depth + 1)) (2 ^ (depth + 1)) =
          List.range' (2 * number * 2 ^ depth) (2 ^ depth) ++
            List.range' ((2 * number + 1) * 2 ^ depth) (2 ^ depth) := by
        rw [next, List.range'_append_1, two]
        congr 1 <;> ring
      rw [splitBlock_succ, List.map_append, leftValues, rightValues, range, List.map_append]

/-- The bits of a place in reverse order, for places of eight bits. -/
def reversed (place : Nat) : Nat :=
  (BitVec.ofNat 8 place).reverse.toNat

/-- The places of the values are numbered by the leaves, and their roots are the odd powers. -/
theorem nodeRoot_leaf {place : Nat} (inside : place < 256) :
    nodeRoot (256 + place) = (root : Scalar) ^ (2 * reversed place + 1) := by
  have places : ∀ place : Fin 256, reverseBits 9 (256 + place) = 2 * reversed place + 1 := by
    decide +kernel
  rw [nodeRoot, places ⟨place, inside⟩]

theorem point_pow (place : Nat) : ((root : Scalar) ^ (2 * reversed place + 1)) ^ 256 = -1 := by
  rw [← pow_mul, Nat.mul_comm, pow_mul, root_pow_half]
  exact Odd.neg_one_pow ⟨reversed place, rfl⟩

theorem length_ntt {poly : Poly} (length : poly.length = 256) : (ntt poly).length = 256 :=
  length_splitBlock length

theorem ntt_lt (poly : Poly) : ∀ value ∈ ntt poly, value < modulus := by
  intro value among
  rw [ntt, splitBlock_succ] at among
  rcases List.mem_append.mp among with left | right
  · exact splitBlock_lt leftRemainder_lt value left
  · exact splitBlock_lt rightRemainder_lt value right

/-- The transform evaluates a polynomial at the odd powers of the root. -/
theorem natCast_ntt {poly : Poly} (length : poly.length = 256) {place : Nat}
    (inside : place < (ntt poly).length) :
    ((ntt poly)[place] : Scalar) =
      (polynomial poly).eval ((root : Scalar) ^ (2 * reversed place + 1)) := by
  have within : place < 256 := by
    rw [length_ntt length] at inside
    exact inside
  have values : (ntt poly).map (Nat.cast : Nat → Scalar) =
      (List.range' (1 * 2 ^ 8) (2 ^ 8)).map fun leaf => (polynomial poly).eval (nodeRoot leaf) :=
    splitBlock_eq_values length (by norm_num)
  rw [show 2 ^ 8 = 256 from rfl, Nat.one_mul] at values
  have here := congrArg (·[place]?) values
  simp only [List.getElem?_map, List.getElem?_range' within, List.getElem?_eq_getElem inside,
    Option.map_some, Nat.one_mul, nodeRoot_leaf within] at here
  exact Option.some.inj here

/-- Reduced lists are equal if they are congruent place by place. -/
theorem eq_of_natCast_eq {left right : Poly} (lengths : left.length = right.length)
    (leftReduced : ∀ value ∈ left, value < modulus)
    (rightReduced : ∀ value ∈ right, value < modulus)
    (same : ∀ place (inLeft : place < left.length) (inRight : place < right.length),
      (left[place] : Scalar) = right[place]) :
    left = right := by
  refine List.ext_getElem lengths ?_
  intro place inLeft inRight
  exact eq_of_scalar_eq (leftReduced _ (List.getElem_mem inLeft))
    (rightReduced _ (List.getElem_mem inRight)) (same place inLeft inRight)

section Homomorphism

variable {left right result : Poly}

/-- The values of a sum are the sums of the values. -/
theorem ntt_add (leftLength : left.length = 256) (rightLength : right.length = 256)
    (resultLength : result.length = 256)
    (sum : polynomial result = polynomial left + polynomial right) :
    ntt result = Poly.add (ntt left) (ntt right) := by
  have length : (Poly.add (ntt left) (ntt right)).length = 256 := by
    simp [Poly.add, length_ntt leftLength, length_ntt rightLength]
  refine eq_of_natCast_eq ((length_ntt resultLength).trans length.symm) (ntt_lt result) ?_ ?_
  · exact zipWith_lt addMod_lt _ _
  · intro place inResult inSum
    simp only [Poly.add, List.getElem_zipWith]
    rw [natCast_addMod, natCast_ntt resultLength, natCast_ntt leftLength, natCast_ntt rightLength,
      sum, eval_add]

/-- The values of a product modulo `X²⁵⁶ + 1` are the products of the values. -/
theorem ntt_mul (leftLength : left.length = 256) (rightLength : right.length = 256)
    (resultLength : result.length = 256)
    (product : X ^ 256 + 1 ∣ polynomial left * polynomial right - polynomial result) :
    ntt result = Poly.mul (ntt left) (ntt right) := by
  have length : (Poly.mul (ntt left) (ntt right)).length = 256 := by
    simp [Poly.mul, length_ntt leftLength, length_ntt rightLength]
  refine eq_of_natCast_eq ((length_ntt resultLength).trans length.symm) (ntt_lt result) ?_ ?_
  · exact zipWith_lt mulMod_lt _ _
  · intro place inResult inProduct
    simp only [Poly.mul, List.getElem_zipWith]
    rw [natCast_mulMod, natCast_ntt resultLength, natCast_ntt leftLength, natCast_ntt rightLength,
      ← eval_mul]
    -- The points are roots of `X²⁵⁶ + 1`, so that the multiple of it does not count there.
    obtain ⟨multiple, difference⟩ := product
    have vanishes := congrArg (eval ((root : Scalar) ^ (2 * reversed place + 1))) difference
    have isRoot := point_pow place
    simp only [eval_sub, eval_mul, eval_add, eval_pow, eval_X, eval_one, isRoot, neg_add_cancel,
      zero_mul] at vanishes
    rw [eval_mul]
    exact (sub_eq_zero.mp vanishes).symm

end Homomorphism

end Countersign.Lattice.MlDsa
