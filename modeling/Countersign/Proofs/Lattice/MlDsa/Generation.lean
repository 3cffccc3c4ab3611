import Countersign.Proofs.Lattice.MlDsa.Encoding
import Countersign.Proofs.Lattice.MlDsa.Inverse
import Countersign.Proofs.Lattice.MlDsa.Sampling

/-!
What the key pair of a seed is made of. The public vector is the product of the matrix and the
first secret vector plus the second one, less the low parts that are kept; with values in place of
coefficients this is an equation of numbers, place by place.
-/

namespace Countersign.Lattice.MlDsa

open Digest Polynomial

/-- The two parts of a coefficient make it up, or what is congruent to it. -/
theorem power2Round_sum (coefficient : Nat) :
    (power2Round coefficient).1 * 8192 + (power2Round coefficient).2 = coefficient ∨
      (power2Round coefficient).1 * 8192 + (power2Round coefficient).2 = coefficient + modulus := by
  have modulusEq : modulus = 8380417 := rfl
  simp only [power2Round]
  split
  · left
    dsimp only
    omega
  · right
    dsimp only
    omega

theorem natCast_power2Round (coefficient : Nat) :
    (((power2Round coefficient).1 <<< 13 : Nat) : Scalar) =
      coefficient - (power2Round coefficient).2 := by
  have sum : (((power2Round coefficient).1 * 8192 + (power2Round coefficient).2 : Nat) : Scalar) =
      coefficient := by
    rcases power2Round_sum coefficient with same | larger
    · rw [same]
    · rw [larger, Nat.cast_add, ZMod.natCast_self, add_zero]
  rw [Nat.shiftLeft_eq, ← sum, Nat.cast_add, add_sub_cancel_right]

theorem power2Round_fst_lt {coefficient : Nat} (reduced : coefficient < modulus) :
    (power2Round coefficient).1 < 1024 := by
  have modulusEq : modulus = 8380417 := rfl
  simp only [power2Round]
  split
  · dsimp only
    omega
  · dsimp only
    omega

theorem near_power2Round (coefficient : Nat) : Near (-4095) 4096 (power2Round coefficient).2 := by
  have modulusEq : modulus = 8380417 := rfl
  simp only [power2Round]
  split
  · refine ⟨(coefficient % 8192 : Nat), by omega, by omega, ?_⟩
    rw [residue, modulusEq]
    omega
  · refine ⟨(coefficient % 8192 : Nat) - 8192, by omega, by omega, ?_⟩
    rw [residue, modulusEq]
    dsimp only
    omega

theorem polynomial_map_sub {minuend subtrahend : Nat → Nat}
    (difference : ∀ coefficient,
      (minuend coefficient : Scalar) = coefficient - subtrahend coefficient) (poly : Poly) :
    polynomial (poly.map minuend) = polynomial poly - polynomial (poly.map subtrahend) := by
  induction poly with
  | nil => simp
  | cons coefficient rest inductionHypothesis =>
      simp only [List.map_cons, polynomial_cons, inductionHypothesis, difference, C_sub]
      ring

/-- The scalar at a place, which is zero outside. -/
def entry (poly : Poly) (place : Nat) : Scalar :=
  (poly[place]?.getD 0 : Nat)

section Entries

variable {left right : Poly} {place : Nat}

theorem entry_eq {poly : Poly} (inside : place < poly.length) :
    entry poly place = (poly[place] : Scalar) := by
  rw [entry, List.getElem?_eq_getElem inside, Option.getD_some]

theorem entry_zero : entry Poly.zero place = 0 := by
  rw [entry, Poly.zero, List.getElem?_replicate]
  split
  · simp
  · simp

theorem entry_add (leftReduced : Reduced left) (rightReduced : Reduced right)
    (inside : place < 256) :
    entry (Poly.add left right) place = entry left place + entry right place := by
  have inLeft : place < left.length := by rwa [leftReduced.length]
  have inRight : place < right.length := by rwa [rightReduced.length]
  have inSum : place < (Poly.add left right).length := by
    rwa [(leftReduced.add rightReduced).length]
  rw [entry_eq inLeft, entry_eq inRight, entry_eq inSum]
  simp only [Poly.add, List.getElem_zipWith, natCast_addMod]

theorem entry_mul (leftReduced : Reduced left) (rightReduced : Reduced right)
    (inside : place < 256) :
    entry (Poly.mul left right) place = entry left place * entry right place := by
  have inLeft : place < left.length := by rwa [leftReduced.length]
  have inRight : place < right.length := by rwa [rightReduced.length]
  have inProduct : place < (Poly.mul left right).length := by
    rwa [(leftReduced.mul rightReduced).length]
  rw [entry_eq inLeft, entry_eq inRight, entry_eq inProduct]
  simp only [Poly.mul, List.getElem_zipWith, natCast_mulMod]

theorem entry_ntt {poly : Poly} (length : poly.length = 256) (inside : place < 256) :
    entry (ntt poly) place =
      (polynomial poly).eval ((root : Scalar) ^ (2 * reversed place + 1)) := by
  have inValues : place < (ntt poly).length := by rwa [length_ntt length]
  rw [entry_eq inValues, natCast_ntt length]

end Entries

theorem foldl_add {polys : List Poly} (reduced : ∀ poly ∈ polys, Reduced poly) {start : Poly}
    (startReduced : Reduced start) :
    Reduced (polys.foldl Poly.add start) ∧ ∀ place < 256,
      entry (polys.foldl Poly.add start) place =
        entry start place + (polys.map fun poly => entry poly place).sum := by
  induction polys generalizing start with
  | nil => simpa using startReduced
  | cons poly rest inductionHypothesis =>
      obtain ⟨here, later⟩ := List.forall_mem_cons.mp reduced
      obtain ⟨sumReduced, sum⟩ := inductionHypothesis later (startReduced.add here)
      refine ⟨sumReduced, ?_⟩
      intro place inside
      rw [List.foldl_cons, sum place inside, entry_add startReduced here inside, List.map_cons,
        List.sum_cons, add_assoc]

section Seed

variable (seed : Bytes)

/-- The part of the expanded seed that the matrix is drawn from. -/
def matrixSeed : Bytes :=
  (shake256.hash 128 (seed ++ [4, 4])).take 32

/-- The part of the expanded seed that the secret vectors are drawn from. -/
def secretSeed : Bytes :=
  ((shake256.hash 128 (seed ++ [4, 4])).drop 32).take 64

def matrixEntry (row column : Fin 4) : Poly :=
  sampleUniform (matrixSeed seed) (UInt8.ofNat row) (UInt8.ofNat column)

def firstSecret (column : Fin 4) : Poly :=
  sampleSmall (secretSeed seed) column

def secondSecret (row : Fin 4) : Poly :=
  sampleSmall (secretSeed seed) (4 + row)

/-- A row of the product, given by its values. -/
def product (row : Fin 4) : Poly :=
  (List.ofFn fun column =>
    Poly.mul (matrixEntry seed row column) (ntt (firstSecret seed column))).foldl Poly.add Poly.zero

def publicPoly (row : Fin 4) : Poly :=
  Poly.add (inverseNtt (product seed row)) (secondSecret seed row)

def highPoly (row : Fin 4) : Poly :=
  (publicPoly seed row).map fun coefficient => (power2Round coefficient).1

def lowPoly (row : Fin 4) : Poly :=
  (publicPoly seed row).map fun coefficient => (power2Round coefficient).2

theorem expandMatrix_matrixSeed :
    expandMatrix (matrixSeed seed) =
      List.ofFn fun row => List.ofFn fun column => matrixEntry seed row column := by
  simp only [List.ofFn_succ, List.ofFn_zero]
  rfl

theorem applyMatrix_matrixSeed :
    applyMatrix (expandMatrix (matrixSeed seed)) ((List.ofFn (firstSecret seed)).map ntt) =
      List.ofFn (product seed) := by
  rw [expandMatrix_matrixSeed]
  simp only [applyMatrix, product, List.ofFn_succ, List.ofFn_zero, List.map_cons, List.map_nil,
    List.zipWith_cons_cons, List.zipWith_nil_right]

theorem ofSeed_parts :
    (KeyPair.ofSeed seed).s1 = List.ofFn (firstSecret seed) ∧
      (KeyPair.ofSeed seed).s2 = List.ofFn (secondSecret seed) ∧
      (KeyPair.ofSeed seed).t0 = List.ofFn (lowPoly seed) ∧
      (KeyPair.ofSeed seed).publicKey =
        matrixSeed seed ++ (List.ofFn (highPoly seed)).flatMap (packBits 10) := by
  have first : [0, 1, 2, 3].map (sampleSmall (secretSeed seed)) = List.ofFn (firstSecret seed) := by
    simp only [List.ofFn_succ, List.ofFn_zero]
    rfl
  have second : [4, 5, 6, 7].map (sampleSmall (secretSeed seed)) =
      List.ofFn (secondSecret seed) := by
    simp only [List.ofFn_succ, List.ofFn_zero]
    rfl
  have sum : List.zipWith Poly.add ((List.ofFn (product seed)).map inverseNtt)
      (List.ofFn (secondSecret seed)) = List.ofFn (publicPoly seed) := by
    simp only [publicPoly, List.ofFn_succ, List.ofFn_zero, List.map_cons, List.map_nil,
      List.zipWith_cons_cons, List.zipWith_nil_right]
  have low : (List.ofFn (publicPoly seed)).map (fun poly => (poly.map power2Round).map Prod.snd) =
      List.ofFn (lowPoly seed) := by
    simp only [List.map_ofFn, List.map_map, Function.comp_def]
    rfl
  have high : (List.ofFn (publicPoly seed)).map (fun poly => (poly.map power2Round).map Prod.fst) =
      List.ofFn (highPoly seed) := by
    simp only [List.map_ofFn, List.map_map, Function.comp_def]
    rfl
  simp only [KeyPair.ofSeed]
  rw [← matrixSeed, ← secretSeed, first, second, applyMatrix_matrixSeed, sum, List.map_map,
    List.map_map, Function.comp_def, Function.comp_def, low, high]
  exact ⟨rfl, rfl, rfl, rfl⟩

theorem length_matrixSeed : (matrixSeed seed).length = 32 := by
  rw [matrixSeed, List.length_take, Sponge.length_hash (by decide) (by decide)]
  rfl

theorem length_secretSeed : (secretSeed seed).length = 64 := by
  rw [secretSeed, List.length_take, List.length_drop, Sponge.length_hash (by decide) (by decide)]
  rfl

theorem length_ofSeed_secret : (KeyPair.ofSeed seed).secret.length = 32 := by
  rw [KeyPair.ofSeed, List.length_drop, Sponge.length_hash (by decide) (by decide)]

/-- The vector that the public key is made of, `t = A s₁ + s₂`. -/
def KeyPair.publicVector (pair : KeyPair) : List Poly :=
  List.zipWith Poly.add
    ((applyMatrix (expandMatrix pair.rho) (pair.s1.map ntt)).map inverseNtt) pair.s2

/-- The key pair is the one that key generation makes of a seed, by way of a seed for the secret
vectors. The seed is expanded together with the two dimensions of the matrix, and the secret
polynomials are numbered from the first of `s1` to the last of `s2`. -/
structure KeyPair.GeneratedFrom (pair : KeyPair) (seed small : Bytes) : Prop where
  expanded : shake256.hash 128 (seed ++ [4, 4]) = pair.rho ++ small ++ pair.secret
  length_rho : pair.rho.length = 32
  length_small : small.length = 64
  length_secret : pair.secret.length = 32
  s1_eq : pair.s1 = List.ofFn fun column : Fin 4 => sampleSmall small column
  s2_eq : pair.s2 = List.ofFn fun row : Fin 4 => sampleSmall small (4 + row)
  t0_eq : pair.t0 =
    pair.publicVector.map fun poly => poly.map fun coefficient => (power2Round coefficient).2
  publicKey_eq : pair.publicKey = pair.rho ++ pair.publicVector.flatMap fun poly =>
    packBits 10 (poly.map fun coefficient => (power2Round coefficient).1)

theorem rho_ofSeed : (KeyPair.ofSeed seed).rho = matrixSeed seed :=
  rfl

theorem publicVector_ofSeed :
    (KeyPair.ofSeed seed).publicVector = List.ofFn (publicPoly seed) := by
  obtain ⟨s1, s2, _, _⟩ := ofSeed_parts seed
  rw [KeyPair.publicVector, rho_ofSeed, s1, s2, applyMatrix_matrixSeed]
  simp only [publicPoly, List.ofFn_succ, List.ofFn_zero, List.map_cons, List.map_nil,
    List.zipWith_cons_cons, List.zipWith_nil_right]

/-- The parts of the expanded seed, one after the other. -/
theorem expanded_ofSeed :
    shake256.hash 128 (seed ++ [4, 4]) =
      (KeyPair.ofSeed seed).rho ++ secretSeed seed ++ (KeyPair.ofSeed seed).secret := by
  rw [rho_ofSeed, matrixSeed, secretSeed, KeyPair.ofSeed]
  generalize shake256.hash 128 (seed ++ [4, 4]) = expanded
  dsimp only
  rw [← List.drop_drop (i := 64) (j := 32), List.append_assoc, List.take_append_drop,
    List.take_append_drop]

theorem generatedFrom_ofSeed : (KeyPair.ofSeed seed).GeneratedFrom seed (secretSeed seed) := by
  obtain ⟨s1, s2, t0, publicKey⟩ := ofSeed_parts seed
  have vector := publicVector_ofSeed seed
  refine ⟨expanded_ofSeed seed, length_matrixSeed seed, length_secretSeed seed,
    length_ofSeed_secret seed, s1, s2, ?t0, ?publicKey⟩
  case t0 =>
    rw [t0, vector, List.map_ofFn, Function.comp_def]
    rfl
  case publicKey =>
    have high : List.ofFn (highPoly seed) = (List.ofFn (publicPoly seed)).map fun poly =>
        poly.map fun coefficient => (power2Round coefficient).1 := by
      rw [List.map_ofFn, Function.comp_def]
      rfl
    rw [publicKey, vector, rho_ofSeed, high, List.flatMap_map]

theorem reduced_matrixEntry (row column : Fin 4) : Reduced (matrixEntry seed row column) :=
  reduced_sampleUniform _ _ _

theorem reduced_firstSecret (column : Fin 4) : Reduced (firstSecret seed column) :=
  reduced_sampleSmall _ _

theorem reduced_secondSecret (row : Fin 4) : Reduced (secondSecret seed row) :=
  reduced_sampleSmall _ _

theorem reduced_product (row : Fin 4) :
    Reduced (product seed row) ∧ ∀ place < 256, entry (product seed row) place =
      ∑ column, entry (matrixEntry seed row column) place *
        entry (ntt (firstSecret seed column)) place := by
  have terms : ∀ poly ∈ List.ofFn fun column =>
      Poly.mul (matrixEntry seed row column) (ntt (firstSecret seed column)), Reduced poly := by
    intro poly among
    obtain ⟨column, rfl⟩ := List.mem_ofFn.mp among
    exact (reduced_matrixEntry seed row column).mul (reduced_firstSecret seed column).ntt
  obtain ⟨sumReduced, sum⟩ := foldl_add terms reduced_zero
  refine ⟨sumReduced, ?_⟩
  intro place inside
  rw [product, sum place inside, entry_zero, zero_add, List.map_ofFn, List.sum_ofFn]
  refine Finset.sum_congr rfl ?_
  intro column _
  exact entry_mul (reduced_matrixEntry seed row column) (reduced_firstSecret seed column).ntt inside

theorem reduced_publicPoly (row : Fin 4) : Reduced (publicPoly seed row) := by
  obtain ⟨reduced, _⟩ := reduced_product seed row
  have inverse : Reduced (inverseNtt (product seed row)) :=
    ⟨length_inverseNtt reduced.length, inverseNtt_lt reduced.lt⟩
  exact inverse.add (reduced_secondSecret seed row)

theorem length_lowPoly (row : Fin 4) : (lowPoly seed row).length = 256 := by
  rw [lowPoly, List.length_map, (reduced_publicPoly seed row).length]

theorem length_highPoly (row : Fin 4) : (highPoly seed row).length = 256 := by
  rw [highPoly, List.length_map, (reduced_publicPoly seed row).length]

theorem highPoly_lt (row : Fin 4) : ∀ coefficient ∈ highPoly seed row, coefficient < 1024 := by
  intro coefficient among
  obtain ⟨whole, inside, rfl⟩ := List.mem_map.mp among
  exact power2Round_fst_lt ((reduced_publicPoly seed row).lt whole inside)

theorem near_lowPoly (row : Fin 4) :
    ∀ coefficient ∈ lowPoly seed row, Near (-4095) 4096 coefficient := by
  intro coefficient among
  obtain ⟨whole, _, rfl⟩ := List.mem_map.mp among
  exact near_power2Round whole

theorem reduced_scaledNtt_highPoly (row : Fin 4) : Reduced (scaledNtt (highPoly seed row)) := by
  refine ⟨length_ntt ?_, ntt_lt _⟩
  rw [List.length_map, length_highPoly]

/-- The values of the scaled public vector. -/
theorem entry_scaledNtt_highPoly (row : Fin 4) {place : Nat} (inside : place < 256) :
    entry (scaledNtt (highPoly seed row)) place =
      ∑ column, entry (matrixEntry seed row column) place *
        entry (ntt (firstSecret seed column)) place +
      entry (ntt (secondSecret seed row)) place - entry (ntt (lowPoly seed row)) place := by
  obtain ⟨productReduced, sum⟩ := reduced_product seed row
  have secretReduced := reduced_secondSecret seed row
  have inverseLength := length_inverseNtt productReduced.length
  have scaledLength : ((highPoly seed row).map fun coefficient => coefficient <<< 13).length =
      256 := by
    rw [List.length_map, length_highPoly]
  have rounded : polynomial ((highPoly seed row).map fun coefficient => coefficient <<< 13) =
      polynomial (publicPoly seed row) - polynomial (lowPoly seed row) := by
    rw [highPoly, lowPoly, List.map_map]
    exact polynomial_map_sub natCast_power2Round _
  have added : polynomial (publicPoly seed row) =
      polynomial (inverseNtt (product seed row)) + polynomial (secondSecret seed row) := by
    have lengths : (inverseNtt (product seed row)).length = (secondSecret seed row).length := by
      rw [inverseLength, secretReduced.length]
    have linear : ∀ coefficient, ∀ other ∈ secondSecret seed row,
        (addMod coefficient other : Scalar) = coefficient + 1 * other := by
      intro coefficient other _
      rw [natCast_addMod, one_mul]
    rw [publicPoly, Poly.add, polynomial_zipWith lengths linear, C_1, one_mul]
  rw [scaledNtt, entry_ntt scaledLength inside, rounded, added, eval_sub, eval_add,
    ← entry_ntt inverseLength inside, ← entry_ntt secretReduced.length inside,
    ← entry_ntt (length_lowPoly seed row) inside,
    ntt_inverseNtt productReduced.length productReduced.lt, sum place inside]

/-- The expansion draws the same matrix and reads the high parts. -/
theorem ofPublicKey_ofSeed :
    ExpandedKey.ofPublicKey (KeyPair.ofSeed seed).publicKey = do
      let matrix ← (List.ofFn fun row => List.ofFn fun column =>
        matrixEntry seed row column).mapM fun row => row.mapM packPoly
      let t1 ← (List.ofFn (highPoly seed)).mapM fun poly => packPoly (scaledNtt poly)
      return ⟨matrix, publicKeyHash (KeyPair.ofSeed seed).publicKey, t1⟩ := by
  obtain ⟨_, _, _, publicKey⟩ := ofSeed_parts seed
  have lengths : ∀ poly ∈ List.ofFn (highPoly seed), poly.length = 256 := by
    intro poly among
    obtain ⟨row, rfl⟩ := List.mem_ofFn.mp among
    exact length_highPoly seed row
  have narrow : ∀ poly ∈ List.ofFn (highPoly seed), ∀ coefficient ∈ poly, coefficient < 1024 := by
    intro poly among
    obtain ⟨row, rfl⟩ := List.mem_ofFn.mp among
    exact highPoly_lt seed row
  have length : (KeyPair.ofSeed seed).publicKey.length = Algorithm.mlDsa44.publicKeyLength := by
    rw [publicKey, List.length_append, length_matrixSeed, length_packed lengths, List.length_ofFn]
    rfl
  have head : (KeyPair.ofSeed seed).publicKey.take 32 = matrixSeed seed := by
    rw [publicKey, List.take_left' (length_matrixSeed seed)]
  have rest : unpackT1 ((KeyPair.ofSeed seed).publicKey.drop 32) = List.ofFn (highPoly seed) := by
    rw [publicKey, List.drop_left' (length_matrixSeed seed), unpackT1_packed lengths narrow]
  rw [ExpandedKey.ofPublicKey, if_neg (not_not.mpr length), head, rest, expandMatrix_matrixSeed]

end Seed

end Countersign.Lattice.MlDsa
