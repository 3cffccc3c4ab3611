import Countersign.Algorithm.Checked
import Countersign.Proofs.Abi
import Countersign.Proofs.Lattice.MlDsa.Expansion
import Mathlib.Data.Set.Function

/-!
What the words of an expanded key hold, and its encoding, read back. The matrix is what was drawn
for each of its places, and the vector is the transform of coefficients that stand in the public key
as runs of ten bits. No two vectors are read from the same bytes, and every vector is read from
some. An encoding has the one length of its shape.
-/

namespace Countersign.Lattice.MlDsa

open Expansion InPlace

/-- Every coefficient is the number in its run of bits. -/
theorem getElem?_unpackBits {width : Nat} (positive : 0 < width) {groups : Nat} {bytes : Bytes}
    (whole : bytes.length = groups * width) {place : Nat} (inside : place < groups * 8) :
    (unpackBits width bytes)[place]? = some (bytes.bitField (width * place) width) := by
  rw [unpackBits_eq_digits positive groups whole, getElem?_digits inside, Bytes.bitField_eq,
    Nat.one_shiftLeft, ← Nat.pow_mul]

/-- The words of the polynomials that are read from the bytes of a vector. -/
def decodeVector (bytes : Bytes) : List (List UInt32) :=
  (Bytes.pieces t1Length bytes).map Expansion.coefficients

theorem decodeVector_eq {bytes : Bytes} (whole : bytes.length = 1280) :
    decodeVector bytes = (unpackT1 bytes).map words := by
  rw [decodeVector, unpackT1, List.map_map]
  refine List.map_congr_left ?_
  intro block among
  exact coefficients_eq 32 (Bytes.length_of_mem_pieces (by decide) 4 whole block among)

/-- The bytes that polynomials are read from. -/
def encodeVector (polys : List (List UInt32)) : Bytes :=
  (polys.map fun poly => poly.map UInt32.toNat).flatMap (packBits 10)

/-- Four polynomials with coefficients of ten bits. -/
def TenBitVector (polys : List (List UInt32)) : Prop :=
  polys.length = 4 ∧
    ∀ poly ∈ polys, poly.length = 256 ∧ ∀ coefficient ∈ poly, coefficient.toNat < 1024

theorem toNat_words_of_narrow {poly : Poly} (narrow : ∀ coefficient ∈ poly, coefficient < 1024) :
    (words poly).map UInt32.toNat = poly :=
  toNat_words fun coefficient among => Nat.lt_trans (narrow coefficient among) (by decide)

theorem encode_decodeVector {bytes : Bytes} (whole : bytes.length = 1280) :
    encodeVector (decodeVector bytes) = bytes := by
  have numbers : ∀ poly ∈ unpackT1 bytes, (words poly).map UInt32.toNat = poly := by
    intro poly among
    exact toNat_words_of_narrow (narrow_of_mem_unpackT1 bytes poly among)
  rw [encodeVector, decodeVector_eq whole, List.map_map]
  exact (congrArg _ ((List.map_congr_left numbers).trans (List.map_id _))).trans
    (packed_unpackT1 4 whole)

section Encode

variable {polys : List (List UInt32)}

theorem length_of_mem_numbers (vector : TenBitVector polys) :
    ∀ poly ∈ polys.map fun poly => poly.map UInt32.toNat, poly.length = 256 := by
  intro numbers among
  obtain ⟨poly, inside, rfl⟩ := List.mem_map.mp among
  rw [List.length_map]
  exact (vector.2 poly inside).1

theorem length_encodeVector (vector : TenBitVector polys) : (encodeVector polys).length = 1280 := by
  rw [encodeVector, length_packed (length_of_mem_numbers vector), List.length_map, vector.1]
  rfl

theorem decode_encodeVector (vector : TenBitVector polys) :
    decodeVector (encodeVector polys) = polys := by
  have narrow : ∀ poly ∈ polys.map fun poly => poly.map UInt32.toNat,
      ∀ coefficient ∈ poly, coefficient < 1024 := by
    intro numbers among coefficient inNumbers
    obtain ⟨poly, inside, rfl⟩ := List.mem_map.mp among
    obtain ⟨word, inPoly, rfl⟩ := List.mem_map.mp inNumbers
    exact (vector.2 poly inside).2 word inPoly
  have same : ∀ poly ∈ polys, words (poly.map UInt32.toNat) = poly := fun poly _ => words_toNat poly
  rw [decodeVector_eq (length_encodeVector vector), encodeVector,
    unpackT1_packed (length_of_mem_numbers vector) narrow, List.map_map]
  exact (List.map_congr_left same).trans (List.map_id _)

end Encode

theorem tenBitVector_decodeVector {bytes : Bytes} (whole : bytes.length = 1280) :
    TenBitVector (decodeVector bytes) := by
  rw [decodeVector_eq whole]
  refine ⟨?_, ?_⟩
  · rw [List.length_map, unpackT1, List.length_map]
    exact Bytes.length_pieces (by decide) 4 whole
  · intro _ among
    obtain ⟨poly, inside, rfl⟩ := List.mem_map.mp among
    refine ⟨?_, ?_⟩
    · obtain ⟨block, inBytes, rfl⟩ := List.mem_map.mp inside
      rw [length_words]
      exact length_unpackBits (by decide) 32
        (Bytes.length_of_mem_pieces (by decide) 4 whole block inBytes)
    · intro word inWords
      have narrow := narrow_of_mem_unpackT1 bytes poly inside
      refine narrow word.toNat ?_
      rw [← toNat_words_of_narrow narrow]
      exact List.mem_map_of_mem inWords

/-- The bytes of one polynomial among those of a vector. -/
def vectorBlock (bytes : Bytes) (place : Nat) : Bytes :=
  (bytes.drop (320 * place)).take 320

section Blocks

variable {bytes : Bytes} (whole : bytes.length = 1280) (place : Fin 4)

include whole

theorem length_vectorBlock : (vectorBlock bytes place).length = t1Length := by
  have bound := place.isLt
  rw [vectorBlock, List.length_take, List.length_drop, whole, t1Length]
  omega

theorem getElem?_pieces_vector :
    (Bytes.pieces t1Length bytes)[place.val]? = some (vectorBlock bytes place) := by
  have inside : place.val < (Bytes.pieces t1Length bytes).length := by
    rw [Bytes.length_pieces (by decide) 4 whole]
    exact place.isLt
  rw [List.getElem?_eq_getElem inside, Bytes.getElem_pieces (by decide), Nat.mul_comm]
  rfl

/-- A decoded coefficient is the number in its run of ten bits. -/
theorem getElem?_decodeVector (number : Fin 256) :
    ∃ poly, (decodeVector bytes)[place.val]? = some poly ∧
      (poly[number.val]?).map UInt32.toNat =
        some ((vectorBlock bytes place).bitField (10 * number) 10) := by
  have length : (vectorBlock bytes place).length = 32 * 10 := length_vectorBlock whole place
  have narrow : (vectorBlock bytes place).bitField (10 * number) 10 < 2 ^ 10 := by
    rw [Bytes.bitField_eq]
    exact Nat.mod_lt _ (by decide)
  refine ⟨Expansion.coefficients (vectorBlock bytes place), ?_, ?_⟩
  · rw [decodeVector, List.getElem?_map, getElem?_pieces_vector whole]
    rfl
  · rw [coefficients_eq 32 length, words, List.getElem?_map,
      getElem?_unpackBits (by decide) length number.isLt, Option.map_some, Option.map_some,
      UInt32.toNat_ofNat_of_lt' (Nat.lt_trans narrow (by decide))]

end Blocks

theorem bijOn_decodeVector :
    Set.BijOn decodeVector {bytes | bytes.length = 1280} {polys | TenBitVector polys} := by
  refine @Set.InvOn.bijOn _ _ _ _ _ encodeVector ⟨?decoded, ?encoded⟩ ?vectors ?bytes
  case decoded => exact fun bytes whole => encode_decodeVector whole
  case encoded => exact fun polys vector => decode_encodeVector vector
  case vectors => exact fun bytes whole => tenBitVector_decodeVector whole
  case bytes => exact fun polys vector => length_encodeVector vector

/-- The words of the polynomial whose coefficients are the runs of ten bits of a block, times
`2¹³`. -/
def scaledFields (block : Bytes) : Vector UInt32 256 :=
  Vector.ofFn fun place => UInt32.ofNat (2 ^ 13 * block.bitField (10 * place) 10)

theorem getElem?_scaledFields (block : Bytes) (place : Fin 256) :
    (coefficients (scaledFields block))[place.val]? =
      some (2 ^ 13 * block.bitField (10 * place) 10) := by
  have narrow : block.bitField (10 * place) 10 < 2 ^ 10 := by
    rw [Bytes.bitField_eq]
    exact Nat.mod_lt _ (by decide)
  have fits : 2 ^ 13 * block.bitField (10 * place) 10 < 2 ^ 32 := by omega
  rw [getElem?_coefficients, scaledFields, Fin.getElem_fin, Vector.getElem_ofFn,
    UInt32.toNat_ofNat_of_lt' fits]

theorem coefficients_scaledFields {block : Bytes} (whole : block.length = t1Length) :
    coefficients (scaledFields block) =
      (unpackBits 10 block).map fun coefficient => coefficient <<< 13 := by
  have length : (unpackBits 10 block).length = 256 := length_unpackBits (by decide) 32 whole
  apply List.ext_getElem?
  intro place
  by_cases inside : place < 256
  · have groups : block.length = 32 * 10 := whole
    have field : (unpackBits 10 block)[place]? = some (block.bitField (10 * place) 10) :=
      getElem?_unpackBits (by decide) groups inside
    rw [getElem?_scaledFields block ⟨place, inside⟩, List.getElem?_map, field, Option.map_some,
      Nat.shiftLeft_eq, Nat.mul_comm]
  · rw [List.getElem?_eq_none (by rw [length_coefficients]; omega),
      List.getElem?_eq_none (by rw [List.length_map, length]; omega)]

/-- The transform of a scaled polynomial is its values at the odd powers of the root in
bit-reversed order. -/
theorem transform_scaledFields (block : Bytes) : ∃ values : Vector UInt32 256,
    InPlace.transform (scaledFields block).toList = some values.toList ∧
    coefficients values = ntt (coefficients (scaledFields block)) ∧
    ∀ number : Fin 256, ∃ value, values.toList[number.val]? = some value ∧
      value.toNat < 8380417 ∧ value.toNat = (∑ power : Fin 256,
        2 ^ 13 * block.bitField (10 * power) 10 *
          1753 ^ ((2 * (BitVec.ofNat 8 number).reverse.toNat + 1) * power)) % 8380417 := by
  obtain ⟨values, transformed, same, evaluated⟩ := exists_transform (scaledFields block)
  refine ⟨values, transformed, same, ?_⟩
  intro number
  obtain ⟨reduced, value⟩ := evaluated number
  refine ⟨values[number], ?_, reduced, ?_⟩
  · rw [Vector.getElem?_toList, Fin.getElem_fin]
    exact Vector.getElem?_eq_getElem number.isLt
  · refine value.trans (congrArg (fun sum => sum % 8380417) (Finset.sum_congr rfl ?_))
    intro power _
    have word := getElem?_coefficients (scaledFields block) power
    rw [getElem?_scaledFields] at word
    rw [Option.some.inj word]

/-! ## The key -/

section Key

variable {publicKey : Bytes}

/-- The entry of the matrix in a given row and column is what was drawn for it. -/
theorem unpack_matrix {rho : Bytes} {matrix : List (List (List Word))}
    (made : (expandMatrix rho).mapM (fun row => row.mapM packPoly) = .ok matrix)
    (row column : Fin 4) :
    ∃ entries packed, matrix[row.val]? = some entries ∧ entries[column.val]? = some packed ∧
      unpack 32 packed = .ok (cell rho row column) := by
  have rowDrawn : (expandMatrix rho)[row.val]? = some ((List.range 4).map fun column =>
      sampleUniform rho (UInt8.ofNat row) (UInt8.ofNat column)) := by
    rw [expandMatrix_eq, List.getElem?_map, List.getElem?_range row.isLt]
    rfl
  obtain ⟨entries, entriesMade, inRow⟩ := Result.getElem?_mapM made rowDrawn
  have drawn : ((List.range 4).map fun column =>
      sampleUniform rho (UInt8.ofNat row) (UInt8.ofNat column))[column.val]? =
        some (sampleUniform rho (UInt8.ofNat row) (UInt8.ofNat column)) := by
    rw [List.getElem?_map, List.getElem?_range column.isLt]
    rfl
  obtain ⟨packed, packedMade, inColumn⟩ := Result.getElem?_mapM entriesMade drawn
  obtain ⟨_, same, unpacked⟩ := exists_packPoly (reduced_sampleUniform rho _ _).length
  cases packedMade.symm.trans same
  exact ⟨entries, packed, inRow, inColumn, by rw [unpacked, cell_eq]⟩

theorem cell_lt (rho : Bytes) (row column : Nat) :
    ∀ value ∈ cell rho row column, value.toNat < 8380417 := by
  have reduced := reduced_sampleUniform rho (UInt8.ofNat row) (UInt8.ofNat column)
  intro value among
  refine reduced.lt value.toNat ?_
  rw [← toNat_words (fits_of_reduced reduced.lt), ← cell_eq]
  exact List.mem_map_of_mem among

/-- An entry of the vector is the transform of its block. -/
theorem unpack_vector {t1 : List (List Word)} (length : publicKey.length = 1312)
    (made : (unpackT1 (publicKey.drop 32)).mapM (fun poly => packPoly (scaledNtt poly)) = .ok t1)
    (place : Fin 4) {values : Vector UInt32 256}
    (transformed : coefficients values =
      ntt (coefficients (scaledFields (vectorBlock (publicKey.drop 32) place)))) :
    ∃ packed, t1[place.val]? = some packed ∧ unpack 32 packed = .ok values.toList := by
  have whole : (publicKey.drop 32).length = 1280 := length_second length
  have block := length_vectorBlock whole place
  have here : (unpackT1 (publicKey.drop 32))[place.val]? =
      some (unpackBits 10 (vectorBlock (publicKey.drop 32) place)) := by
    rw [unpackT1, List.getElem?_map, getElem?_pieces_vector whole]
    rfl
  obtain ⟨packed, packedMade, found⟩ := Result.getElem?_mapM made here
  have poly : scaledNtt (unpackBits 10 (vectorBlock (publicKey.drop 32) place)) =
      coefficients values := by
    rw [scaledNtt, ← coefficients_scaledFields block, transformed]
  rw [poly] at packedMade
  obtain ⟨_, same, unpacked⟩ := exists_packPoly (length_coefficients values)
  cases packedMade.symm.trans same
  exact ⟨packed, found, by rw [unpacked, words_coefficients]⟩

end Key

/-- A public key of any length but the right one is refused, and one of the right length is
expanded. The matrix then holds what is drawn for its places from the first 32 bytes. The vector
holds the transforms, which are values at the odd powers of the root in bit-reversed order, of
polynomials whose coefficients are the runs of ten bits of the other bytes times `2¹³`. Everything
that is held is below the modulus. The reading of runs of ten bits is one to one between strings of
1280 bytes and vectors of four polynomials with coefficients of ten bits. -/
theorem ExpandedKey.holds_what_is_prescribed (publicKey : Bytes) :
    (publicKey.length ≠ 1312 → Expansion.ofPublicKey publicKey =
      .error (.failure (.publicKey (.latticeLength .mlDsa44 publicKey.length)))) ∧
    (publicKey.length = 1312 → ∃ key,
      Expansion.ofPublicKey publicKey = .ok key ∧ ofPublicKey publicKey = .ok key ∧
      key.matrix.length = 4 ∧ (∀ entries ∈ key.matrix, entries.length = 4) ∧ key.t1.length = 4 ∧
      (∀ row column : Fin 4, ∃ entries packed,
        key.matrix[row.val]? = some entries ∧ entries[column.val]? = some packed ∧
        unpack 32 packed = .ok (cell (publicKey.take 32) row column) ∧
        ∀ value ∈ cell (publicKey.take 32) row column, value.toNat < 8380417) ∧
      ∀ place : Fin 4, ∃ packed values,
        key.t1[place.val]? = some packed ∧ unpack 32 packed = .ok values ∧ values.length = 256 ∧
        InPlace.transform (scaledFields (vectorBlock (publicKey.drop 32) place)).toList =
          some values ∧
        ∀ number : Fin 256, ∃ value, values[number.val]? = some value ∧ value.toNat < 8380417 ∧
          value.toNat = (∑ power : Fin 256,
            2 ^ 13 * (vectorBlock (publicKey.drop 32) place).bitField (10 * power) 10 *
              1753 ^ ((2 * (BitVec.ofNat 8 number).reverse.toNat + 1) * power)) % 8380417) ∧
    (∀ bytes : Bytes, bytes.length = 1280 → ∀ (place : Fin 4) (number : Fin 256), ∃ poly,
      (decodeVector bytes)[place.val]? = some poly ∧
      (poly[number.val]?).map UInt32.toNat =
        some ((vectorBlock bytes place).bitField (10 * number) 10)) ∧
    Set.BijOn decodeVector {bytes | bytes.length = 1280} {polys | TenBitVector polys} := by
  refine ⟨?refused, ?expanded, fun _ whole => getElem?_decodeVector whole, bijOn_decodeVector⟩
  case refused =>
    intro wrong
    have mismatch : publicKey.length ≠ Algorithm.mlDsa44.publicKeyLength := wrong
    rw [Expansion.ofPublicKey_eq, ofPublicKey, if_pos mismatch]
    rfl
  case expanded =>
    intro length
    obtain ⟨matrix, t1, made, matrixMade, t1Made, _⟩ := exists_parts length
    have columns : ∀ entries ∈ matrix, entries.length = 4 := by
      intro entries among
      obtain ⟨row, inMatrix, rowMade⟩ := Result.exists_of_mem_mapM matrixMade among
      obtain ⟨number, _, rfl⟩ := List.mem_map.mp inMatrix
      rw [Result.length_of_mapM rowMade]
      rfl
    have places : t1.length = 4 := by
      rw [Result.length_of_mapM t1Made, unpackT1, List.length_map]
      exact Bytes.length_pieces (by decide) 4 (length_second length)
    refine ⟨_, ?_, made, Result.length_of_mapM matrixMade, columns, places, ?_, ?_⟩
    · rw [Expansion.ofPublicKey_eq, made]
      rfl
    · intro row column
      obtain ⟨entries, packed, inRow, inColumn, unpacked⟩ := unpack_matrix matrixMade row column
      exact ⟨entries, packed, inRow, inColumn, unpacked, cell_lt _ _ _⟩
    · intro place
      obtain ⟨values, transformed, same, evaluated⟩ :=
        transform_scaledFields (vectorBlock (publicKey.drop 32) place)
      obtain ⟨packed, found, unpacked⟩ := unpack_vector length t1Made place same
      exact ⟨packed, values.toList, found, unpacked, Vector.length_toList, transformed, evaluated⟩

end Countersign.Lattice.MlDsa

namespace Countersign.Lattice.MlDsa.ExpandedKey

/-- The three parts as members of a sequence. -/
def parts (key : ExpandedKey) : List Abi.Part :=
  [Abi.member (.array (.array (.array .word))) key.matrix,
    Abi.member .bytes key.hash,
    Abi.member (.array (.array .word)) key.t1]

theorem encode_eq (key : ExpandedKey) : key.encode = Abi.sequence key.parts :=
  rfl

theorem uniform_parts (key : ExpandedKey) : Abi.Uniform key.parts := by
  simp [parts, Abi.Uniform, Abi.placeLength_member]

/-- A part is read from its place. -/
theorem readMember?_encode {key : ExpandedKey} (fits : key.encode.length < UInt64.size)
    {kind : Abi.Kind} {value : kind.Value} (left : List Abi.Part) {right : List Abi.Part}
    (among : key.parts = left ++ Abi.member kind value :: right) :
    Abi.readMember? kind (Abi.read? key.encode kind) key.encode 0 left.length = some value := by
  have whole : key.encode = [] ++ (Abi.sequence key.parts ++ []) := by
    rw [List.nil_append, List.append_nil, encode_eq]
  exact Abi.readMember?_of_members among key.uniform_parts fits whole

theorem decode?_encode {key : ExpandedKey} (fits : key.encode.length < UInt64.size) :
    decode? key.encode = some key := by
  have matrix := readMember?_encode fits [] rfl
  have hash := readMember?_encode fits [_] rfl
  have t1 := readMember?_encode fits [_, _] rfl
  rw [List.length_nil] at matrix
  rw [List.length_singleton] at hash
  rw [List.length_cons, List.length_singleton] at t1
  simp only [decode?, matrix, hash, t1]
  rfl

theorem dvd_length_encode (key : ExpandedKey) : 32 ∣ key.encode.length := by
  refine Abi.dvd_length_sequence key.uniform_parts ?_
  intro part among
  simp only [List.mem_cons, List.not_mem_nil, or_false] at among
  rcases among with rfl | rfl | rfl
  · exact Abi.dvd_length_tail_member (Abi.dvd_length_encode _ _)
  · exact Abi.dvd_length_tail_member (Abi.dvd_length_encode _ _)
  · exact Abi.dvd_length_tail_member (Abi.dvd_length_encode _ _)

/-- Four rows of four polynomials, a hash of sixty-four bytes, and four polynomials, each
polynomial in thirty-two words. -/
structure Shaped (key : ExpandedKey) : Prop where
  rows : key.matrix.length = 4
  columns : ∀ row ∈ key.matrix, row.length = 4
  entries : ∀ row ∈ key.matrix, ∀ poly ∈ row, poly.length = 32
  hash : key.hash.length = 64
  vector : key.t1.length = 4
  polys : ∀ poly ∈ key.t1, poly.length = 32

theorem Shaped.length_encode {key : ExpandedKey} (shaped : key.Shaped) :
    key.encode.length = 22272 := by
  have poly {words : List Word} (length : words.length = 32) :
      (Abi.encode (.array .word) words).length = 1056 := by
    rw [Abi.length_encode_words, length]
  have row {polys : List (List Word)} (length : polys.length = 4)
      (lengths : ∀ words ∈ polys, words.length = 32) :
      (Abi.encode (.array (.array .word)) polys).length = 4384 := by
    rw [Abi.length_encode_arrays fun words among => poly (lengths words among), length]
  have matrix : (Abi.encode (.array (.array (.array .word))) key.matrix).length = 17696 := by
    rw [Abi.length_encode_arrays fun polys among =>
      row (shaped.columns polys among) (shaped.entries polys among), shaped.rows]
  have hash : (Abi.encode .bytes key.hash).length = 96 := by
    rw [Abi.encode, Abi.length_byteString, shaped.hash]
  have t1 := row shaped.vector shaped.polys
  have tails : Abi.tailsLength key.parts =
      (Abi.encode (.array (.array (.array .word))) key.matrix).length +
        ((Abi.encode .bytes key.hash).length +
          (Abi.encode (.array (.array .word)) key.t1).length) := by
    simp only [parts, Abi.tailsLength_cons, Abi.tailsLength_nil, Nat.add_zero]
    rfl
  have three : key.parts.length = 3 := rfl
  rw [encode_eq, Abi.length_sequence, Abi.placesLength_uniform key.uniform_parts, three, tails,
    matrix, hash, t1]

/-- What is expanded from a public key has the one shape. -/
theorem exists_shaped {publicKey : Bytes}
    (length : publicKey.length = Algorithm.mlDsa44.publicKeyLength) :
    ∃ key : ExpandedKey, ofPublicKey publicKey = .ok key ∧ key.Shaped := by
  obtain ⟨matrix, t1, made, matrixMade, t1Made, _⟩ := exists_parts length
  refine ⟨_, made, ?rows, ?columns, ?entries, ?hash, ?vector, ?polys⟩
  case rows => exact Result.length_of_mapM matrixMade
  case columns =>
    intro row among
    obtain ⟨polys, inMatrix, rowMade⟩ := Result.exists_of_mem_mapM matrixMade among
    obtain ⟨number, _, rfl⟩ := List.mem_map.mp inMatrix
    exact Result.length_of_mapM rowMade
  case entries =>
    intro row among packed inRow
    obtain ⟨polys, inMatrix, rowMade⟩ := Result.exists_of_mem_mapM matrixMade among
    obtain ⟨poly, inPolys, polyMade⟩ := Result.exists_of_mem_mapM rowMade inRow
    exact length_of_packPoly (length_of_mem_expandMatrix polys inMatrix poly inPolys) polyMade
  case hash =>
    change (publicKeyHash publicKey).length = 64
    rw [publicKeyHash, Digest.Sponge.length_hash (by decide) (by decide)]
  case vector =>
    have count : (unpackT1 (publicKey.drop 32)).length = 4 := by
      rw [unpackT1, List.length_map, Bytes.length_pieces (by decide) 4 (length_second length)]
    exact (Result.length_of_mapM t1Made).trans count
  case polys =>
    intro packed among
    obtain ⟨poly, inVector, polyMade⟩ := Result.exists_of_mem_mapM t1Made among
    refine length_of_packPoly (length_ntt ?_) polyMade
    rw [List.length_map, length_of_mem_unpackT1 length poly inVector]

/-- A key of any shape is read back from its encoding, as far as the encoding has a length of
sixty-four bits; and whatever public key is expanded, the encoding has the same length. -/
theorem encoding_read_back :
    (∀ key : ExpandedKey, key.encode.length < UInt64.size → decode? key.encode = some key) ∧
      (∀ key : ExpandedKey, 32 ∣ key.encode.length) ∧
      ∀ publicKey : Bytes, publicKey.length = 1312 →
        ∃ key : ExpandedKey, Expansion.ofPublicKey publicKey = .ok key ∧
          ofPublicKey publicKey = .ok key ∧
          Algorithm.mlDsa44.encodePublicKey publicKey = .ok key.encode ∧
          decode? key.encode = some key ∧ key.Shaped ∧ key.encode.length = 22272 := by
  refine ⟨fun _ => decode?_encode, dvd_length_encode, ?_⟩
  intro publicKey length
  obtain ⟨key, made, shaped⟩ := exists_shaped length
  have short : key.encode.length < UInt64.size := by
    rw [shaped.length_encode]
    decide
  refine ⟨key, ?_, made, ?_, decode?_encode short, shaped, shaped.length_encode⟩
  · rw [Expansion.ofPublicKey_eq, made]
    rfl
  · rw [Algorithm.encodePublicKey, made]
    rfl

theorem encoding_read_back_ragged :
    decode? (encode ⟨[[], [[], [7, 8]]], [1, 2, 3], [[5], []]⟩) =
        some ⟨[[], [[], [7, 8]]], [1, 2, 3], [[5], []]⟩ ∧
      ∃ key : ExpandedKey, ofPublicKey (Bytes.zeros 1312) = .ok key ∧
        decode? key.encode = some key ∧ key.Shaped := by
  obtain ⟨readBack, _, expanded⟩ := encoding_read_back
  obtain ⟨key, _, made, _, read, shaped, _⟩ := expanded (Bytes.zeros 1312) (by simp)
  exact ⟨readBack _ (by decide +kernel), key, made, read, shaped⟩

end Countersign.Lattice.MlDsa.ExpandedKey
