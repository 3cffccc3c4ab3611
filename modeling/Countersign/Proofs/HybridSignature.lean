import Countersign.Proofs.Lattice.MlDsa.Signing
import Countersign.Proofs.Lattice.OnChain
import Countersign.Proofs.Signature
import Countersign.Signer.Software

/-!
The encoding of a pair of signatures in both directions. A pair is laid out by the lengths of its
components alone and is read back whatever they are; and of arbitrary data exactly those are read
whose places point to byte strings inside them.
-/

namespace Countersign

/-- What signers of a scheme pass on: what a secure element has put out, in finished form, or what
an ML-DSA-44 key in memory has signed. -/
inductive Algorithm.Yields : Algorithm → Bytes → Prop
  | finished {algorithm : Algorithm} {raw signature : Bytes} {messageLength : UInt64}
      (finalized : algorithm.finalizeSignature raw messageLength = .ok signature) :
      algorithm.Yields signature
  | inMemory {seed : Seed} {message signature : Bytes}
      (signed : (MlDsaKey.ofSeed seed).sign message = .ok signature) :
      Algorithm.mlDsa44.Yields signature

theorem MlDsaKey.length_sign {seed : Seed} {message signature : Bytes}
    (signed : (ofSeed seed).sign message = .ok signature) :
    signature.length = Algorithm.mlDsa44.signatureLength := by
  rw [sign] at signed
  rcases found : (ofSeed seed).pair.sign? message with _ | made
  · rw [found] at signed
    cases signed
  · rw [found] at signed
    cases signed
    exact Lattice.MlDsa.length_sign found

theorem Algorithm.Yields.length {algorithm : Algorithm} {signature : Bytes}
    (yielded : algorithm.Yields signature) : signature.length = algorithm.signatureLength := by
  cases yielded with
  | finished finalized => exact length_finalizeSignature finalized
  | inMemory signed => exact MlDsaKey.length_sign signed

namespace HybridSignature

/-- Two places, and for each component its length, its bytes and zero bytes up to a whole word. -/
theorem encode_laid_out (signature : HybridSignature) :
    signature.encode =
      Abi.wordBytes 64 ++ Abi.wordBytes (96 + 32 * ((signature.classical.length + 31) / 32)) ++
        (Abi.wordBytes signature.classical.length ++ signature.classical ++
          Bytes.zeros (32 * ((signature.classical.length + 31) / 32) -
            signature.classical.length)) ++
        (Abi.wordBytes signature.postQuantum.length ++ signature.postQuantum ++
          Bytes.zeros (32 * ((signature.postQuantum.length + 31) / 32) -
            signature.postQuantum.length)) := by
  rw [encode_eq, Abi.length_byteString, ← Nat.add_assoc, Abi.byteString, Abi.byteString,
    Abi.wordPadding_eq, Abi.wordPadding_eq, ← List.append_assoc]

theorem encode_injective {left right : HybridSignature} (leftStorable : left.Storable)
    (rightStorable : right.Storable) (same : left.encode = right.encode) : left = right := by
  have readLeft := decode_encode leftStorable
  rw [same, decode_encode rightStorable] at readLeft
  exact (Except.ok.inj readLeft).symm

/-- What is written is read back, and how it is laid out depends on the lengths of the components
alone, so that a stand-in is as long as a signature. -/
theorem encode_faithful (signature : HybridSignature) :
    (signature.Storable → decode signature.encode = .ok signature) ∧
      signature.encode =
        Abi.wordBytes 64 ++ Abi.wordBytes (96 + 32 * ((signature.classical.length + 31) / 32)) ++
          (Abi.wordBytes signature.classical.length ++ signature.classical ++
            Bytes.zeros (32 * ((signature.classical.length + 31) / 32) -
              signature.classical.length)) ++
          (Abi.wordBytes signature.postQuantum.length ++ signature.postQuantum ++
            Bytes.zeros (32 * ((signature.postQuantum.length + 31) / 32) -
              signature.postQuantum.length)) ∧
      signature.encode.length =
        128 + 32 * ((signature.classical.length + 31) / 32) +
          32 * ((signature.postQuantum.length + 31) / 32) ∧
      (∀ other : HybridSignature, other.classical.length = signature.classical.length →
        other.postQuantum.length = signature.postQuantum.length →
          other.encode.length = signature.encode.length) ∧
      (∀ (classical : Signature) (algorithm : Algorithm) (postQuantum : Bytes),
        algorithm.Yields postQuantum →
          (make classical postQuantum).encode.length = (dummy algorithm).encode.length) ∧
      ∀ other : HybridSignature, signature.Storable → other.Storable → other ≠ signature →
        other.encode ≠ signature.encode := by
  refine ⟨decode_encode, encode_laid_out signature, length_encode signature, ?_, ?_, ?_⟩
  · intro other classical postQuantum
    rw [length_encode, length_encode, classical, postQuantum]
  · intro classical algorithm postQuantum yielded
    exact length_encode_eq_dummy classical.length_toBytes yielded.length
  · intro other storable otherStorable different same
    exact different (encode_injective otherStorable storable same)

theorem encode_faithful_odd :
    decode (encode ⟨List.replicate 33 7, [1]⟩) = .ok ⟨List.replicate 33 7, [1]⟩ ∧
      encode ⟨List.replicate 33 7, [1]⟩ ≠ encode ⟨List.replicate 33 7, [1, 0]⟩ := by
  have storable (last : Bytes) (short : last.length ≤ 2) :
      Storable ⟨List.replicate 33 7, last⟩ :=
    ⟨by simp, by simp; omega⟩
  obtain ⟨read, _⟩ := encode_faithful ⟨List.replicate 33 7, [1]⟩
  obtain ⟨_, _, _, _, _, distinct⟩ := encode_faithful ⟨List.replicate 33 7, [1, 0]⟩
  exact ⟨read (storable _ (by decide)),
    distinct _ (storable _ (by decide)) (storable _ (by decide)) (by decide)⟩

/-- Data hold a pair: two places stand at the start, each of which points to one component. -/
structure HeldBy (signature : HybridSignature) (data : Bytes) : Prop where
  head : 64 ≤ data.length
  classical : Abi.PointsTo data 0 signature.classical
  postQuantum : Abi.PointsTo data 1 signature.postQuantum

theorem decode_eq_ok_iff {data : Bytes} {signature : HybridSignature} :
    decode data = .ok signature ↔ signature.HeldBy data := by
  constructor
  · intro read
    rcases first : Abi.readBytesMember? data 0 with _ | classical
    · simp [decode, first] at read
    · rcases second : Abi.readBytesMember? data 1 with _ | postQuantum
      · simp [decode, first, second] at read
      · rw [decode, first, second] at read
        cases read
        rw [Abi.readBytesMember?_eq_some_iff] at first second
        obtain ⟨offset, placed, _⟩ := second
        exact ⟨placed.inside, first, _, placed, ‹_›⟩
  · rintro ⟨_, classical, postQuantum⟩
    rw [decode, Abi.readBytesMember?_eq_some_iff.mpr classical,
      Abi.readBytesMember?_eq_some_iff.mpr postQuantum]

theorem HeldBy.append {data : Bytes} {signature : HybridSignature}
    (held : signature.HeldBy data) (suffix : Bytes) : signature.HeldBy (data ++ suffix) := by
  refine ⟨?_, held.classical.append suffix, held.postQuantum.append suffix⟩
  rw [List.length_append]
  exact Nat.le_add_right_of_le held.head

theorem decode_cases (data : Bytes) :
    (∃ signature, decode data = .ok signature) ∨ decode data = .error (.abiDecode .malformed) := by
  unfold decode
  split
  · exact .inl ⟨_, rfl⟩
  · exact .inr rfl

/-- Reading returns the one pair that the data hold, or refuses data that hold none; what follows
them does not matter. -/
theorem decode_exact (data : Bytes) :
    (∀ signature, decode data = .ok signature ↔ signature.HeldBy data) ∧
      (decode data = .error (.abiDecode .malformed) ↔
        ¬ ∃ signature : HybridSignature, signature.HeldBy data) ∧
      ∀ (signature : HybridSignature) (suffix : Bytes), decode data = .ok signature →
        decode (data ++ suffix) = .ok signature := by
  refine ⟨fun _ => decode_eq_ok_iff, ?_, ?_⟩
  · constructor
    · rintro refused ⟨signature, held⟩
      rw [decode_eq_ok_iff.mpr held] at refused
      cases refused
    · intro unheld
      rcases decode_cases data with ⟨signature, read⟩ | refused
      · exact absurd ⟨signature, decode_eq_ok_iff.mp read⟩ unheld
      · exact refused
  · intro signature suffix read
    exact decode_eq_ok_iff.mpr ((decode_eq_ok_iff.mp read).append suffix)

example : decode (Bytes.zeros 64) = .ok ⟨[], []⟩ := by decide

end HybridSignature

end Countersign
