import Countersign.Lattice.MlDsa.Signing
import Countersign.Proofs.Lattice.MlDsa.Generation

/-!
How long a signature is: whichever attempt yields it, it is made of a challenge, four polynomials of
eighteen bits to a coefficient, and the places of the hints.
-/

namespace Countersign.Lattice.MlDsa

open Digest

/-- Four polynomials. -/
structure Shaped (vector : List Poly) : Prop where
  rows : vector.length = 4
  width : ∀ poly ∈ vector, poly.length = 256

namespace Shaped

variable {vector left right : List Poly}

theorem map {change : Poly → Poly} (shaped : Shaped vector)
    (keeps : ∀ poly, poly.length = 256 → (change poly).length = 256) :
    Shaped (vector.map change) := by
  refine ⟨by rw [List.length_map, shaped.rows], ?_⟩
  intro poly among
  obtain ⟨original, inVector, rfl⟩ := List.mem_map.mp among
  exact keeps original (shaped.width original inVector)

theorem zipWith {combine : Poly → Poly → Poly} (leftShaped : Shaped left)
    (rightShaped : Shaped right)
    (keeps : ∀ poly other, poly.length = 256 → other.length = 256 →
      (combine poly other).length = 256) : Shaped (List.zipWith combine left right) := by
  refine ⟨by rw [List.length_zipWith, leftShaped.rows, rightShaped.rows, Nat.min_self], ?_⟩
  intro poly among
  obtain ⟨place, inside, rfl⟩ := List.mem_iff_getElem.mp among
  rw [List.getElem_zipWith]
  exact keeps _ _ (leftShaped.width _ (List.getElem_mem _))
    (rightShaped.width _ (List.getElem_mem _))

theorem ofFn {polys : Fin 4 → Poly} (width : ∀ row, (polys row).length = 256) :
    Shaped (List.ofFn polys) := by
  refine ⟨List.length_ofFn, ?_⟩
  intro poly among
  obtain ⟨row, rfl⟩ := List.mem_ofFn.mp among
  exact width row

end Shaped

theorem length_scatter (signs place : Nat) (poly : Poly) (bytes : Bytes) :
    (scatter signs place poly bytes).length = poly.length := by
  induction bytes generalizing place poly with
  | nil => rfl
  | cons byte rest inductionHypothesis =>
      rw [scatter]
      split
      · rfl
      · split
        · rw [inductionHypothesis, List.length_set, List.length_set]
        · exact inductionHypothesis place poly

theorem length_sampleInBall (challenge : Bytes) : (sampleInBall challenge).length = 256 := by
  rw [sampleInBall, length_scatter, Poly.zero, List.length_replicate]

theorem shaped_expandMask (seed : Bytes) (counter : Nat) : Shaped (expandMask seed counter) := by
  refine ⟨rfl, ?_⟩
  intro poly among
  obtain ⟨index, _, rfl⟩ := List.mem_map.mp among
  have drawn : (shake256.hash 576 (seed ++ Bytes.ofNatLE 2 (counter + index))).length = 32 * 18 :=
    Sponge.length_hash (by decide) (by decide) _ _
  rw [List.length_map, length_unpackBits (by decide) 32 drawn]

theorem length_flatMap_packBits {vector : List Poly} (shaped : Shaped vector)
    (change : Nat → Nat) :
    (vector.flatMap fun poly => packBits 18 (poly.map change)).length = 2304 := by
  have each : ∀ poly ∈ vector, (packBits 18 (poly.map change)).length = 576 := by
    intro poly among
    have whole : (poly.map change).length = 32 * 8 := by
      rw [List.length_map, shaped.width poly among]
    exact length_packBits 32 whole
  rw [List.length_flatMap, List.map_congr_left each, List.map_const', List.sum_replicate,
    shaped.rows]
  rfl

theorem length_counts {count : List Nat × Nat → List Nat → List Nat × Nat}
    (grows : ∀ counted poly, (count counted poly).1.length = counted.1.length + 1)
    (places : List (List Nat)) (counted : List Nat × Nat) :
    (places.foldl count counted).1.length = counted.1.length + places.length := by
  induction places generalizing counted with
  | nil => rfl
  | cons poly rest inductionHypothesis =>
      rw [List.foldl_cons, inductionHypothesis, grows, List.length_cons]
      omega

theorem length_encodeHints {places : List (List Nat)} (rows : places.length = 4)
    (few : places.flatten.length ≤ 80) : (encodeHints places).length = 84 := by
  rw [encodeHints, List.length_map, List.length_append, List.length_append, List.length_replicate,
    length_counts, rows, List.length_nil]
  · omega
  · intro counted poly
    rw [List.length_append, List.length_singleton]

/-- The parts of a key that every attempt uses have their sizes. -/
structure Prepared.Sized (prepared : Prepared) : Prop where
  matrix : prepared.matrix.length = 4
  s1 : Shaped prepared.s1
  s2 : prepared.s2.length = 4
  t0 : prepared.t0.length = 4

/-- What an attempt yields is made of a digest, a vector of full width, and few hints. -/
theorem parts_of_attempt {prepared : Prepared} (sized : prepared.Sized) {counter : Nat}
    {signature : Bytes} (found : attempt prepared counter = some signature) :
    ∃ hashed vector places,
      signature = shake256.hash 32 hashed ++
          vector.flatMap (fun poly => packBits 18 (poly.map (subMod maskRange))) ++
            encodeHints places ∧
        Shaped vector ∧ places.length = 4 ∧ places.flatten.length ≤ 80 := by
  unfold attempt at found
  dsimp only at found
  split at found
  · cases found
  · split at found
    · cases found
    · rename_i few
      rw [Bool.or_eq_true, not_or, decide_eq_true_eq, Nat.not_lt] at few
      cases found
      refine ⟨_, _, _, rfl, ?_, ?_, few.2⟩
      · refine (shaped_expandMask _ _).zipWith (sized.s1.map ?_) ?_
        · intro poly width
          refine length_inverseNtt ?_
          rw [Poly.mul, List.length_zipWith, length_ntt (length_sampleInBall _), width, Nat.min_self]
        · intro poly other width otherWidth
          rw [Poly.add, List.length_zipWith, width, otherWidth, Nat.min_self]
      · simp only [applyMatrix, List.length_zipWith, List.length_map, sized.matrix, sized.s2,
          sized.t0, Nat.min_self]

theorem length_attempt {prepared : Prepared} (sized : prepared.Sized) {counter : Nat}
    {signature : Bytes} (found : attempt prepared counter = some signature) :
    signature.length = Algorithm.mlDsa44.signatureLength := by
  obtain ⟨hashed, vector, places, rfl, shaped, rows, few⟩ := parts_of_attempt sized found
  rw [List.length_append, List.length_append, length_flatMap_packBits shaped,
    length_encodeHints rows few, Sponge.length_hash (by decide) (by decide)]
  rfl

theorem length_attempts {prepared : Prepared} (sized : prepared.Sized) {count counter : Nat}
    {signature : Bytes} (found : attempts prepared count counter = some signature) :
    signature.length = Algorithm.mlDsa44.signatureLength := by
  induction count generalizing counter with
  | zero => cases found
  | succ count inductionHypothesis =>
      rw [attempts] at found
      rcases tried : attempt prepared counter with _ | yielded
      · rw [tried] at found
        exact inductionHypothesis found
      · rw [tried] at found
        cases found
        exact length_attempt sized tried

/-- Whatever is signed with the key pair of a seed, the signature has the length of one. -/
theorem length_sign {seed message signature : Bytes}
    (signed : (KeyPair.ofSeed seed).sign? message = some signature) :
    signature.length = Algorithm.mlDsa44.signatureLength := by
  obtain ⟨s1, s2, t0, _⟩ := ofSeed_parts seed
  refine length_attempts ?_ signed
  refine ⟨rfl, ?_, ?_, ?_⟩
  · rw [s1]
    exact (Shaped.ofFn fun column => (reduced_firstSecret seed column).length).map
      fun _ width => length_ntt width
  · rw [s2, List.length_map, List.length_ofFn]
  · rw [t0, List.length_map, List.length_ofFn]

end Countersign.Lattice.MlDsa
