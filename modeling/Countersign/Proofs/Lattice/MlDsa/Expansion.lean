import Countersign.Proofs.Lattice.MlDsa.Encoding
import Countersign.Proofs.Lattice.MlDsa.Inverse
import Countersign.Proofs.Lattice.MlDsa.Sampling
import Countersign.Proofs.Lattice.Packing

/-!
The expansion in words is the expansion in lists: output that is read three bytes at a time gives
the values that whole blocks hold, coefficients put together from five bytes are digits of the
number of ten bytes, and the transform in place is the transform. Every key of the right length is
expanded, and the transformed vector is as good as the second part of the key, because all that is
done to it can be undone.
-/

namespace Countersign.Lattice.MlDsa.Expansion

open InPlace

/-- The low ten bits of a byte, shifted or not, below a shifted one. -/
theorem toNat_tenBits {low : UInt32} (high : UInt8) {shift : Nat} (small : shift ≤ 8)
    (fits : low.toNat < 2 ^ shift) :
    ((low ||| (high.toUInt32 <<< UInt32.ofNat shift)) &&& 0x3ff).toNat =
      (low.toNat + 2 ^ shift * high.toNat) % 1024 := by
  have mask : (0x3ff : UInt32).toNat = 2 ^ 10 - 1 := rfl
  have bound := high.toNat_lt
  have shiftValue : (UInt32.ofNat shift).toNat % 32 = shift := by
    rw [UInt32.toNat_ofNat']
    omega
  have below : high.toNat * 2 ^ shift < 2 ^ 32 := by
    calc high.toNat * 2 ^ shift < 2 ^ 8 * 2 ^ 8 :=
          Nat.mul_lt_mul_of_lt_of_le bound (Nat.pow_le_pow_right (by decide) small) (by decide)
      _ ≤ 2 ^ 32 := by decide
  rw [UInt32.toNat_and, mask, Nat.and_two_pow_sub_one_eq_mod, UInt32.toNat_or,
    UInt32.toNat_shiftLeft, shiftValue, UInt8.toNat_toUInt32, Nat.shiftLeft_eq,
    Nat.mod_eq_of_lt below, Nat.mul_comm, Nat.or_comm, ← Nat.two_pow_add_eq_or_of_lt fits,
    Nat.add_comm]

theorem tenBits_eq (b₀ b₁ b₂ b₃ b₄ : UInt8) :
    tenBits [b₀, b₁, b₂, b₃, b₄] =
      words (digits 1024 4 (Bytes.toNatLE [b₀, b₁, b₂, b₃, b₄])) := by
  have shifted (byte : UInt8) {shift : Nat} (small : shift < 32) :
      (byte.toUInt32 >>> UInt32.ofNat shift).toNat = byte.toNat / 2 ^ shift := by
    rw [UInt32.toNat_shiftRight, UInt32.toNat_ofNat', UInt8.toNat_toUInt32,
      Nat.shiftRight_eq_div_pow]
    congr 2
    omega
  have bound₀ := b₀.toNat_lt
  have bound₁ := b₁.toNat_lt
  have bound₂ := b₂.toNat_lt
  have bound₃ := b₃.toNat_lt
  have first := @toNat_tenBits b₀.toUInt32 b₁ 8 (by decide) (by simpa using bound₀)
  have second := @toNat_tenBits (b₁.toUInt32 >>> UInt32.ofNat 2) b₂ 6 (by decide)
    (by rw [shifted _ (by decide)]; omega)
  have third := @toNat_tenBits (b₂.toUInt32 >>> UInt32.ofNat 4) b₃ 4 (by decide)
    (by rw [shifted _ (by decide)]; omega)
  have fourth := @toNat_tenBits (b₃.toUInt32 >>> UInt32.ofNat 6) b₄ 2 (by decide)
    (by rw [shifted _ (by decide)]; omega)
  rw [UInt8.toNat_toUInt32] at first
  rw [shifted _ (by decide)] at second third fourth
  have words_of {word : UInt32} {number digit : Nat} (value : word.toNat = number)
      (same : number = digit) : word = UInt32.ofNat digit := by
    rw [← same, ← value, UInt32.ofNat_toNat]
  simp only [tenBits, digits, words, List.map_cons, List.map_nil, Bytes.toNatLE]
  congr 1
  · exact words_of first (by omega)
  · congr 1
    · exact words_of second (by omega)
    · congr 1
      · exact words_of third (by omega)
      · congr 1
        exact words_of fourth (by omega)

/-- Four digits of five bytes at a time are the digits that eight of ten bytes are. -/
theorem coefficients_eq {bytes : Bytes} (groups : Nat) (whole : bytes.length = groups * 10) :
    coefficients bytes = words (unpackBits 10 bytes) := by
  have fives : bytes.length = groups * 2 * 5 := by omega
  have each : ∀ group ∈ Bytes.pieces 5 bytes,
      tenBits group = words (digits 1024 4 (Bytes.toNatLE group)) := by
    intro group among
    have five := Bytes.length_of_mem_pieces (by decide) (groups * 2) fives group among
    match group, five with
    | [b₀, b₁, b₂, b₃, b₄], _ => exact tenBits_eq b₀ b₁ b₂ b₃ b₄
  have cut := flatMap_digits (by decide) (by norm_num : 1024 ^ 4 = 256 ^ 5) (groups * 2) fives
  have count : groups * 2 * 4 = groups * 8 := Nat.mul_assoc groups 2 4
  rw [count] at cut
  calc coefficients bytes
      = (Bytes.pieces 5 bytes).flatMap fun group => words (digits 1024 4 (Bytes.toNatLE group)) :=
        List.flatMap_congr each
    _ = words ((Bytes.pieces 5 bytes).flatMap fun group => digits 1024 4 (Bytes.toNatLE group)) :=
        List.map_flatMap.symm
    _ = words (unpackBits 10 bytes) := by
        rw [cut, unpackBits_eq_digits (by decide) groups whole]
        rfl

/-- The scaled coefficients are words, and are transformed in place. -/
theorem scaled_eq {bytes : Bytes} (whole : bytes.length = t1Length) :
    scaled (coefficients bytes) =
      (packPoly (scaledNtt (unpackBits 10 bytes))).mapError .failure := by
  have length : (unpackBits 10 bytes).length = 256 := length_unpackBits (by decide) 32 whole
  have narrow : ∀ coefficient ∈ unpackBits 10 bytes, coefficient < 1024 := unpackBits_lt bytes
  have shifted : (words (unpackBits 10 bytes)).map (fun word : UInt32 => word <<< (13 : UInt32)) =
      words ((unpackBits 10 bytes).map fun coefficient => coefficient <<< 13) := by
    rw [words, words, List.map_map, List.map_map]
    refine List.map_congr_left ?_
    intro coefficient among
    apply UInt32.toNat_inj.mp
    have shift : (13 : UInt32).toNat % 32 = 13 := rfl
    rw [Function.comp_apply, Function.comp_apply, UInt32.toNat_shiftLeft, shift,
      UInt32.toNat_ofNat', UInt32.toNat_ofNat', Nat.shiftLeft_eq, Nat.shiftLeft_eq,
      Nat.mod_mul_mod]
  have fits : Fits ((unpackBits 10 bytes).map fun coefficient => coefficient <<< 13) := by
    intro number among
    obtain ⟨coefficient, inside, rfl⟩ := List.mem_map.mp among
    have below := narrow coefficient inside
    rw [Nat.shiftLeft_eq]
    omega
  rw [scaled, coefficients_eq 32 whole, shifted,
    transform_words (by rw [List.length_map, length]) fits]
  rfl

theorem expandMatrix_eq (rho : Bytes) :
    expandMatrix rho = (List.range 4).map fun row => (List.range 4).map fun column =>
      sampleUniform rho (UInt8.ofNat row) (UInt8.ofNat column) :=
  rfl

theorem entries_eq (rho : Bytes) :
    ((List.range 4).mapM fun row => (List.range 4).mapM fun column =>
      (pack 32 (cell rho row column)).mapError Halt.failure) =
        ((expandMatrix rho).mapM fun row : List Poly => row.mapM packPoly).mapError
          Halt.failure := by
  simp only [expandMatrix_eq, List.mapM_map, Result.mapError_mapM, cell_eq, packPoly, words,
    Function.comp_apply]

theorem vector_eq {bytes : Bytes} (whole : bytes.length = 4 * t1Length) :
    ((Bytes.pieces t1Length bytes).mapM fun chunk => scaled (coefficients chunk)) =
      ((unpackT1 bytes).mapM fun poly => packPoly (scaledNtt poly)).mapError Halt.failure := by
  have each : ∀ chunk ∈ Bytes.pieces t1Length bytes,
      scaled (coefficients chunk) =
        (packPoly (scaledNtt (unpackBits 10 chunk))).mapError Halt.failure := by
    intro chunk among
    exact scaled_eq (Bytes.length_of_mem_pieces (by decide) 4 whole chunk among)
  rw [Result.mapM_congr each, Result.mapError_mapM, unpackT1, List.mapM_map, Function.comp_def]

/-- The expansion in words of a public key, right or not, is its expansion. -/
theorem ofPublicKey_eq (publicKey : Bytes) :
    ofPublicKey publicKey = (ExpandedKey.ofPublicKey publicKey).mapError .failure := by
  rw [ofPublicKey, ExpandedKey.ofPublicKey]
  by_cases wrong : publicKey.length ≠ Algorithm.mlDsa44.publicKeyLength
  · rw [if_pos wrong, if_pos wrong]
    rfl
  · have whole : (publicKey.drop 32).length = 4 * t1Length := by
      rw [List.length_drop, not_not.mp wrong]
      rfl
    rw [if_neg wrong, if_neg wrong]
    simp only [Result.mapError_bind, ← entries_eq, ← vector_eq whole]
    rfl

end Countersign.Lattice.MlDsa.Expansion

namespace Countersign.Lattice.MlDsa

open InPlace

theorem exists_packPoly {poly : Poly} (length : poly.length = 256) :
    ∃ packed, packPoly poly = .ok packed ∧ unpack 32 packed = .ok (words poly) := by
  have fills : coefficientsPerWord 32 = .ok 8 := rfl
  have whole : 8 ∣ (words poly).length := by
    rw [length_words, length]
    decide
  have narrow : Narrow 32 (words poly) := by
    intro word _
    exact word.toNat_lt
  have packed := (pack_eq_ok_iff fills).mpr ⟨whole, narrow, rfl⟩
  exact ⟨_, packed, unpack_pack packed⟩

/-- Eight coefficients go into a word. -/
theorem length_of_packPoly {poly : Poly} {packed : List Word} (length : poly.length = 256)
    (made : packPoly poly = .ok packed) : packed.length = 32 := by
  have fills : coefficientsPerWord 32 = .ok 8 := rfl
  obtain ⟨_, _, rfl⟩ := (pack_eq_ok_iff fills).mp made
  rw [List.length_map]
  exact Bytes.length_pieces (by decide) 32 (by rw [List.length_map, length])

/-- Ten bits that are shifted by thirteen stay in the field. -/
theorem shifted_lt {coefficient : Nat} (narrow : coefficient < 1024) :
    coefficient <<< 13 < modulus := by
  have modulusEq : modulus = 8380417 := rfl
  rw [Nat.shiftLeft_eq, modulusEq]
  omega

/-- The polynomial that was scaled and transformed into given words. -/
def unscaled (values : List UInt32) : Poly :=
  (inverseNtt (values.map UInt32.toNat)).map fun coefficient => coefficient >>> 13

theorem unscaled_words {poly : Poly} (length : poly.length = 256)
    (narrow : ∀ coefficient ∈ poly, coefficient < 1024) :
    unscaled (words (scaledNtt poly)) = poly := by
  have reduced : ∀ coefficient ∈ poly.map fun coefficient => coefficient <<< 13,
      coefficient < modulus := by
    intro coefficient among
    obtain ⟨small, inside, rfl⟩ := List.mem_map.mp among
    exact shifted_lt (narrow small inside)
  have shiftedBack : ∀ coefficient ∈ poly, coefficient <<< 13 >>> 13 = coefficient := by
    intro coefficient _
    exact Nat.shiftLeft_shiftRight coefficient 13
  rw [unscaled, scaledNtt, toNat_words (fits_of_reduced (ntt_lt _)),
    inverseNtt_ntt (by rw [List.length_map, length]) reduced, List.map_map]
  exact (List.map_congr_left shiftedBack).trans (List.map_id _)

section Key

variable {publicKey : Bytes}

theorem length_second (length : publicKey.length = Algorithm.mlDsa44.publicKeyLength) :
    (publicKey.drop 32).length = 4 * t1Length := by
  rw [List.length_drop, length]
  rfl

theorem length_of_mem_unpackT1 (length : publicKey.length = Algorithm.mlDsa44.publicKeyLength) :
    ∀ poly ∈ unpackT1 (publicKey.drop 32), poly.length = 256 := by
  intro poly among
  obtain ⟨chunk, inside, rfl⟩ := List.mem_map.mp among
  exact length_unpackBits (by decide) 32
    (Bytes.length_of_mem_pieces (by decide) 4 (length_second length) chunk inside)

theorem narrow_of_mem_unpackT1 (bytes : Bytes) :
    ∀ poly ∈ unpackT1 bytes, ∀ coefficient ∈ poly, coefficient < 1024 := by
  intro poly among
  obtain ⟨chunk, _, rfl⟩ := List.mem_map.mp among
  exact unpackBits_lt chunk

theorem length_of_mem_expandMatrix {rho : Bytes} :
    ∀ row ∈ expandMatrix rho, ∀ poly ∈ row, poly.length = 256 := by
  intro row among poly inRow
  obtain ⟨number, _, rfl⟩ := List.mem_map.mp among
  obtain ⟨column, _, rfl⟩ := List.mem_map.mp inRow
  exact (reduced_sampleUniform rho number column).length

/-- Every key of the right length is expanded, and its polynomials can be read off the words. -/
theorem exists_parts (length : publicKey.length = Algorithm.mlDsa44.publicKeyLength) :
    ∃ matrix t1, ExpandedKey.ofPublicKey publicKey = .ok ⟨matrix, publicKeyHash publicKey, t1⟩ ∧
      (expandMatrix (publicKey.take 32)).mapM (fun row => row.mapM packPoly) = .ok matrix ∧
      (unpackT1 (publicKey.drop 32)).mapM (fun poly => packPoly (scaledNtt poly)) = .ok t1 ∧
      t1.mapM (unpack 32) =
        .ok ((unpackT1 (publicKey.drop 32)).map fun poly => words (scaledNtt poly)) := by
  have rows : ∀ row ∈ expandMatrix (publicKey.take 32), ∃ packed,
      row.mapM packPoly = .ok packed ∧ packed.mapM (unpack 32) = .ok (row.map words) := by
    intro row among
    refine Result.exists_mapM ?_
    intro poly inRow
    exact exists_packPoly (length_of_mem_expandMatrix row among poly inRow)
  have vector : ∀ poly ∈ unpackT1 (publicKey.drop 32), ∃ packed,
      packPoly (scaledNtt poly) = .ok packed ∧
        unpack 32 packed = .ok (words (scaledNtt poly)) := by
    intro poly among
    refine exists_packPoly (length_ntt ?_)
    rw [List.length_map, length_of_mem_unpackT1 length poly among]
  obtain ⟨matrix, matrixMade, _⟩ := Result.exists_mapM rows
  obtain ⟨t1, t1Made, t1Read⟩ := Result.exists_mapM vector
  refine ⟨matrix, t1, ?_, matrixMade, t1Made, t1Read⟩
  rw [ExpandedKey.ofPublicKey, if_neg (not_not.mpr length), matrixMade, Result.ok_bind, t1Made]
  rfl

/-- What is read off the transformed vector, taken back, is the second part of the key. -/
theorem second_of_words (length : publicKey.length = Algorithm.mlDsa44.publicKeyLength) :
    (((unpackT1 (publicKey.drop 32)).map fun poly => words (scaledNtt poly)).map unscaled).flatMap
      (packBits 10) = publicKey.drop 32 := by
  have undone : ∀ poly ∈ unpackT1 (publicKey.drop 32),
      unscaled (words (scaledNtt poly)) = poly := by
    intro poly among
    exact unscaled_words (length_of_mem_unpackT1 length poly among)
      (narrow_of_mem_unpackT1 _ poly among)
  rw [List.map_map, Function.comp_def, (List.map_congr_left undone).trans (List.map_id _),
    packed_unpackT1 4 (length_second length)]

end Key

/-- The transformed vector of an expanded key is the same for two public keys exactly if they have
the same last 1280 bytes. -/
theorem ExpandedKey.vector_determines_bytes {left right : Bytes}
    (leftLength : left.length = 1312) (rightLength : right.length = 1312) :
    ∃ leftKey rightKey,
      Expansion.ofPublicKey left = .ok leftKey ∧ ofPublicKey left = .ok leftKey ∧
      Expansion.ofPublicKey right = .ok rightKey ∧ ofPublicKey right = .ok rightKey ∧
      (leftKey.t1 = rightKey.t1 ↔ left.drop 32 = right.drop 32) := by
  obtain ⟨_, leftVector, leftMade, _, leftPacked, leftRead⟩ := exists_parts leftLength
  obtain ⟨_, rightVector, rightMade, _, rightPacked, rightRead⟩ := exists_parts rightLength
  refine ⟨_, _, ?_, leftMade, ?_, rightMade, ?_, ?_⟩
  · rw [Expansion.ofPublicKey_eq, leftMade]
    rfl
  · rw [Expansion.ofPublicKey_eq, rightMade]
    rfl
  · intro same
    dsimp only at same
    rw [same, rightRead] at leftRead
    rw [← second_of_words leftLength, ← second_of_words rightLength, Except.ok.inj leftRead]
  · intro same
    rw [same, rightPacked] at leftPacked
    exact (Except.ok.inj leftPacked).symm

theorem ExpandedKey.vector_determines_last_byte :
    ∃ leftKey rightKey,
      ofPublicKey (Bytes.zeros 1312) = .ok leftKey ∧
      ofPublicKey (Bytes.zeros 1311 ++ [1]) = .ok rightKey ∧ leftKey.t1 ≠ rightKey.t1 := by
  have leftLength : (Bytes.zeros 1312).length = 1312 := by simp
  have rightLength : (Bytes.zeros 1311 ++ [1]).length = 1312 := by simp
  obtain ⟨leftKey, rightKey, _, leftMade, _, rightMade, same⟩ :=
    vector_determines_bytes leftLength rightLength
  refine ⟨leftKey, rightKey, leftMade, rightMade, fun vectors => ?_⟩
  have bytes := congrArg List.getLast? (same.mp vectors)
  rw [List.drop_append_of_le_length (by simp), List.getLast?_concat, Bytes.zeros,
    List.drop_replicate, List.getLast?_replicate, if_neg (by decide)] at bytes
  exact absurd (Option.some.inj bytes) (by decide)

end Countersign.Lattice.MlDsa
