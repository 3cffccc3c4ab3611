import Countersign.Proofs.Lattice.MlDsa.Expansion
import Countersign.Proofs.Lattice.MlDsa.Generation
import Countersign.Signer.Software

/-!
The key that is put on chain and the key that signs. What is expanded from the bytes of a public
key satisfies the equation of the key pair that the bytes were made of.
-/

namespace Countersign

namespace Lattice.MlDsa

open InPlace Polynomial

/-- The words of many polynomials, as vectors. -/
theorem exists_vectors {index : Type} {polys : index → Poly}
    (reduced : ∀ number, Reduced (polys number)) :
    ∃ vectors : index → Vector UInt32 256, ∀ number,
      words (polys number) = (vectors number).toList ∧
        ∀ place : Fin 256, (((vectors number).get place).toNat : Scalar) =
          entry (polys number) place := by
  have each (number : index) : ∃ vector : Vector UInt32 256,
      words (polys number) = vector.toList ∧
        ∀ place : Fin 256, ((vector.get place).toNat : Scalar) = entry (polys number) place := by
    obtain ⟨vector, toList, values⟩ :=
      exists_words (reduced number).length (fits_of_reduced (reduced number).lt)
    refine ⟨vector, toList.symm, ?_⟩
    intro place
    rw [entry, ← values, getElem?_coefficients, Option.getD_some]
    rfl
  choose vectors chosen using each
  exact ⟨vectors, chosen⟩

/-- The coefficients that are congruent to integers. -/
def residues {degree : Nat} (integers : Fin degree → Int) : Poly :=
  List.ofFn fun place => residue (integers place)

/-- The values of the polynomial with given integer coefficients at the odd powers of the root, in
bit-reversed order. -/
def valuesOf {degree : Nat} (integers : Fin degree → Int) (place : Fin 256) : Scalar :=
  ∑ power : Fin degree, (integers power : Scalar) *
    1753 ^ ((2 * (BitVec.ofNat 8 place).reverse.toNat + 1) * power)

theorem length_residues {degree : Nat} (integers : Fin degree → Int) :
    (residues integers).length = degree :=
  List.length_ofFn

theorem exists_integers {degree : Nat} {poly : Poly} (length : poly.length = degree)
    {low high : Int} (near : ∀ coefficient ∈ poly, Near low high coefficient) :
    ∃ integers : Fin degree → Int,
      (∀ place, low ≤ integers place ∧ integers place ≤ high) ∧ poly = residues integers := by
  have each (place : Fin degree) : ∃ integer : Int, (low ≤ integer ∧ integer ≤ high) ∧
      residue integer = poly[place] := by
    obtain ⟨integer, above, below, same⟩ := near poly[place] (List.getElem_mem _)
    exact ⟨integer, ⟨above, below⟩, same⟩
  choose integers bounds same using each
  refine ⟨integers, bounds, ?_⟩
  refine List.ext_getElem ?_ ?_
  · rw [residues, List.length_ofFn, length]
  · intro place inPoly inResidues
    simp only [residues, List.getElem_ofFn, same, Fin.getElem_fin]

theorem entry_ntt_residues (integers : Fin 256 → Int) (place : Fin 256) :
    entry (ntt (residues integers)) place = valuesOf integers place := by
  rw [entry_ntt (length_residues integers) place.isLt, residues, polynomial_ofFn, eval_finsetSum,
    valuesOf]
  refine Finset.sum_congr rfl ?_
  intro power _
  rw [eval_mul, eval_C, eval_pow, eval_X, intCast_residue, ← pow_mul]
  rfl

/-- What is expanded from the public key of a seed has the matrix and the scaled public vector in
its words. -/
theorem exists_expanded (seed : Bytes) :
    ∃ expanded, ExpandedKey.ofPublicKey (KeyPair.ofSeed seed).publicKey = .ok expanded ∧
      expanded.matrix.mapM (fun row => row.mapM (unpack 32)) =
        .ok (List.ofFn fun row => List.ofFn fun column => words (matrixEntry seed row column)) ∧
      expanded.hash = publicKeyHash (KeyPair.ofSeed seed).publicKey ∧
      expanded.t1.mapM (unpack 32) =
        .ok (List.ofFn fun row => words (scaledNtt (highPoly seed row))) := by
  have entries : ∀ row ∈ List.ofFn fun row => List.ofFn fun column => matrixEntry seed row column,
      ∃ packed, row.mapM packPoly = .ok packed ∧ packed.mapM (unpack 32) = .ok (row.map words) := by
    intro row inMatrix
    obtain ⟨number, rfl⟩ := List.mem_ofFn.mp inMatrix
    refine Result.exists_mapM ?_
    intro poly inRow
    obtain ⟨column, rfl⟩ := List.mem_ofFn.mp inRow
    exact exists_packPoly (reduced_matrixEntry seed number column).length
  have vector : ∀ poly ∈ List.ofFn (highPoly seed), ∃ packed,
      packPoly (scaledNtt poly) = .ok packed ∧
        unpack 32 packed = .ok (words (scaledNtt poly)) := by
    intro poly among
    obtain ⟨row, rfl⟩ := List.mem_ofFn.mp among
    exact exists_packPoly (reduced_scaledNtt_highPoly seed row).length
  obtain ⟨matrix, matrixMade, matrixRead⟩ := Result.exists_mapM entries
  obtain ⟨t1, t1Made, t1Read⟩ := Result.exists_mapM vector
  refine ⟨⟨matrix, publicKeyHash (KeyPair.ofSeed seed).publicKey, t1⟩, ?made, ?matrix, rfl, ?t1⟩
  case made =>
    rw [ofPublicKey_ofSeed, matrixMade, Result.ok_bind, t1Made]
    rfl
  case matrix =>
    rw [matrixRead, List.map_ofFn]
    simp only [Function.comp_def, List.map_ofFn]
  case t1 =>
    rw [t1Read, List.map_ofFn, Function.comp_def]

end Lattice.MlDsa

namespace MlDsaKey

open Digest Countersign.Lattice Countersign.Lattice.MlDsa

/-- The key that is put on chain for a seed expands to a matrix and a vector that satisfy, place by
place, the equation of the secrets which the signing key of the seed holds, and these are the ones
that key generation makes of the seed. -/
theorem expanded_matches_secrets (seed : Seed) :
    ∃ (expanded : ExpandedKey) (aHat : Fin 4 → Fin 4 → Vector UInt32 256)
      (t1 : Fin 4 → Vector UInt32 256) (s1 s2 t0 : Fin 4 → Fin 256 → Int),
      (∃ small, (ofSeed seed).pair.GeneratedFrom seed.bytes small) ∧
      Expansion.ofPublicKey (ofSeed seed).publicKey = .ok expanded ∧
      ExpandedKey.ofPublicKey (ofSeed seed).publicKey = .ok expanded ∧
      expanded.matrix.mapM (fun row => row.mapM (unpack 32)) =
        .ok (List.ofFn fun row => List.ofFn fun column => (aHat row column).toList) ∧
      expanded.hash = shake256.hash 64 (ofSeed seed).publicKey ∧ expanded.hash.length = 64 ∧
      expanded.t1.mapM (unpack 32) = .ok (List.ofFn fun row => (t1 row).toList) ∧
      (ofSeed seed).pair.s1 = List.ofFn (fun column => residues (s1 column)) ∧
      (∀ column place, -2 ≤ s1 column place ∧ s1 column place ≤ 2) ∧
      (ofSeed seed).pair.s2 = List.ofFn (fun row => residues (s2 row)) ∧
      (∀ row place, -2 ≤ s2 row place ∧ s2 row place ≤ 2) ∧
      (ofSeed seed).pair.t0 = List.ofFn (fun row => residues (t0 row)) ∧
      (∀ row place, -4096 < t0 row place ∧ t0 row place ≤ 4096) ∧
      ∀ row place, (((t1 row).get place).toNat : Scalar) =
        ∑ column, (((aHat row column).get place).toNat : Scalar) * valuesOf (s1 column) place +
          valuesOf (s2 row) place - valuesOf (t0 row) place := by
  obtain ⟨s1Parts, s2Parts, t0Parts, _⟩ := ofSeed_parts seed.bytes
  obtain ⟨expanded, made, matrixRead, hash, t1Read⟩ := exists_expanded seed.bytes
  choose aHat aHatEq using fun row => exists_vectors (reduced_matrixEntry seed.bytes row)
  obtain ⟨t1, t1Eq⟩ := exists_vectors (reduced_scaledNtt_highPoly seed.bytes)
  choose s1 s1Bounds s1Eq using fun column =>
    exists_integers (reduced_firstSecret seed.bytes column).length (near_sampleSmall _ _)
  choose s2 s2Bounds s2Eq using fun row =>
    exists_integers (reduced_secondSecret seed.bytes row).length (near_sampleSmall _ _)
  choose t0 t0Bounds t0Eq using fun row =>
    exists_integers (length_lowPoly seed.bytes row) (near_lowPoly seed.bytes row)
  have generated := generatedFrom_ofSeed seed.bytes
  refine ⟨expanded, aHat, t1, s1, s2, t0, ⟨_, generated⟩, ?words, made, ?matrix, hash, ?length,
    ?t1, ?s1, s1Bounds, ?s2, s2Bounds, ?t0, ?t0Bounds, ?equation⟩
  case words =>
    have fromBytes : ExpandedKey.ofPublicKey (ofSeed seed).publicKey = .ok expanded := made
    rw [Expansion.ofPublicKey_eq, fromBytes]
    rfl
  case matrix =>
    simp only [matrixRead, fun row column => (aHatEq row column).1]
  case length =>
    rw [hash, publicKeyHash, Sponge.length_hash (by decide) (by decide)]
  case t1 =>
    simp only [t1Read, fun row => (t1Eq row).1]
  case s1 =>
    exact s1Parts.trans (congrArg List.ofFn (funext s1Eq))
  case s2 =>
    exact s2Parts.trans (congrArg List.ofFn (funext s2Eq))
  case t0 =>
    exact t0Parts.trans (congrArg List.ofFn (funext t0Eq))
  case t0Bounds =>
    intro row place
    obtain ⟨above, below⟩ := t0Bounds row place
    exact ⟨by omega, below⟩
  case equation =>
    intro row place
    have first (column : Fin 4) : entry (ntt (firstSecret seed.bytes column)) place =
        valuesOf (s1 column) place := by
      rw [s1Eq, entry_ntt_residues]
    have second : entry (ntt (secondSecret seed.bytes row)) place = valuesOf (s2 row) place := by
      rw [s2Eq, entry_ntt_residues]
    have low : entry (ntt (lowPoly seed.bytes row)) place = valuesOf (t0 row) place := by
      rw [t0Eq, entry_ntt_residues]
    rw [(t1Eq row).2, entry_scaledNtt_highPoly seed.bytes row place.isLt, second, low]
    simp only [first, (aHatEq row _).2]

end MlDsaKey

end Countersign
