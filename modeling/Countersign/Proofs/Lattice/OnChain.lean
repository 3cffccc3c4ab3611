import Countersign.Algorithm.Checked
import Countersign.Proofs.Lattice.Falcon.Compression
import Countersign.Proofs.Lattice.Packing

/-!
Whatever the signing primitive puts out: what is passed on has the length that the verifying
contract reads.
-/

namespace Countersign

namespace Lattice

/-- Coefficients of sixteen bits that are packed at all fill whole words. -/
theorem length_pack {count : Nat} {coefficients : List UInt32} {words : List Word}
    (whole : coefficients.length = count * 16) (packed : pack 16 coefficients = .ok words) :
    words.length = count := by
  have fills : coefficientsPerWord 16 = .ok 16 := rfl
  obtain ⟨_, _, made⟩ := (pack_eq_ok_iff fills).mp packed
  rw [made, List.length_map, Bytes.length_pieces (by decide) count whole]

end Lattice

namespace Lattice.Falcon

theorem length_decompress {body : Bytes} {coefficients : List Int}
    (read : decompress body = .ok coefficients) : coefficients.length = degree :=
  (decompress_eq_ok_iff.mp read).1

/-- A body holds as many coefficients as a polynomial has, compressed or not. -/
theorem length_bodyCoefficients {body : Bytes} {coefficients : List UInt32}
    (read : bodyCoefficients body = .ok coefficients) : coefficients.length = degree := by
  unfold bodyCoefficients at read
  split at read
  · rename_i plain
    cases read
    rw [List.length_map]
    exact Bytes.length_pieces (by decide) degree plain
  · split at read
    · rename_i polynomial decompressed
      cases read
      rw [List.length_map]
      exact length_decompress decompressed
    · cases read

theorem length_compact {signedMessage signature : Bytes} {messageLength : UInt64}
    (compacted : compact signedMessage messageLength = .ok signature) :
    signature.length = Algorithm.falcon512.signatureLength := by
  unfold compact at compacted
  dsimp only at compacted
  split at compacted
  · cases compacted
  · split at compacted
    · cases compacted
    · rename_i mark body found
      have long : headLength + messageLength.toNat < signedMessage.length := by
        have some := congrArg List.length found
        rw [List.length_drop, List.length_cons] at some
        omega
      split at compacted
      · cases compacted
      · split at compacted
        · cases compacted
        · split at compacted
          · cases compacted
          · rename_i words packedBody
            cases compacted
            obtain ⟨coefficients, read, packed⟩ := Result.bind_eq_ok packedBody
            have whole : coefficients.length = 32 * 16 := length_bodyCoefficients read
            rw [List.length_append, length_wordBytes, length_pack whole packed, List.length_drop,
              List.length_take]
            have head : min headLength signedMessage.length = headLength :=
              Nat.min_eq_left (by omega)
            rw [head]
            rfl

end Lattice.Falcon

/-- What is passed on as a signature has the length of one. -/
theorem Algorithm.length_finalizeSignature {algorithm : Algorithm} {raw signature : Bytes}
    {messageLength : UInt64}
    (finalized : algorithm.finalizeSignature raw messageLength = .ok signature) :
    signature.length = algorithm.signatureLength := by
  cases algorithm with
  | mlDsa44 =>
      unfold finalizeSignature at finalized
      dsimp only at finalized
      split at finalized
      · rename_i exact
        cases finalized
        exact exact
      · cases finalized
  | falcon512 => exact Lattice.Falcon.length_compact finalized

end Countersign
