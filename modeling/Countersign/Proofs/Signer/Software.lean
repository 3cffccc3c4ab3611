import Countersign.Proofs.Signature.Normalization
import Countersign.Signer.Software

/-!
What a key in memory signs is accepted as signed by its account, for every usable seed and every
digest.
-/

namespace Countersign

namespace Signature

variable {digest : Hash} {point : Curve.Group} {scalars : Curve.Scalars}
  (valid : scalars.RecoverTo (digest.toNat % Curve.order) point)

include valid

theorem toNat_ofScalars_r : (ofScalars scalars).r.toNat = scalars.r :=
  Octets.toNat_ofNat ((Curve.isScalar_iff.mp valid.r).2.trans Curve.order_lt)

theorem toNat_ofScalars_s : (ofScalars scalars).s.toNat = scalars.s :=
  Octets.toNat_ofNat ((Curve.isScalar_iff.mp valid.s).2.trans Curve.order_lt)

theorem wellFormed_ofScalars : (ofScalars scalars).WellFormed where
  r := by
    rw [toNat_ofScalars_r valid, valid.r]
  s := by
    rw [toNat_ofScalars_s valid, valid.s]
  recovery := by
    rcases valid.recovery with even | odd
    · simp [ofScalars, even]
    · simp [ofScalars, odd]

theorem recoversTo_ofScalars : (ofScalars scalars).RecoversTo digest point := by
  have parity : decide ((ofScalars scalars).v = 28) = decide (scalars.recovery = 1) := by
    rcases valid.recovery with even | odd
    · simp [ofScalars, even]
    · simp [ofScalars, odd]
  have recovers := Curve.recovers_mod_iff.mp valid.recovers
  rwa [RecoversTo, toNat_ofScalars_r valid, toNat_ofScalars_s valid, parity]

end Signature

namespace SoftwareKey

variable {seed : Seed}

theorem ofSeed_of_isScalar (scalar : Curve.isScalar seed.octets.toNat = true) :
    ofSeed seed = .ok ⟨seed.octets.toNat, Address.ofPoint
      (Curve.generated seed.octets.toNat).encode⟩ := by
  rw [ofSeed, if_pos scalar, Curve.encode_generated scalar]

theorem ofSeed_of_not_isScalar (unusable : ¬ Curve.isScalar seed.octets.toNat = true) :
    ofSeed seed = .error (.seed .notAScalar) := by
  rw [ofSeed, if_neg unusable]

theorem exists_ofSeed_iff :
    (∃ key, ofSeed seed = .ok key) ↔ Curve.isScalar seed.octets.toNat = true := by
  constructor
  · rintro ⟨key, made⟩
    by_contra unusable
    rw [ofSeed_of_not_isScalar unusable] at made
    cases made
  · intro scalar
    exact ⟨_, ofSeed_of_isScalar scalar⟩

theorem ofSeed_eq_ok {key : SoftwareKey} (made : ofSeed seed = .ok key) :
    key.scalar = seed.octets.toNat ∧ Curve.isScalar key.scalar = true ∧
      key.address = Address.ofPoint (Curve.generated key.scalar).encode := by
  by_cases scalar : Curve.isScalar seed.octets.toNat = true
  · rw [ofSeed_of_isScalar scalar] at made
    cases made
    exact ⟨rfl, scalar, rfl⟩
  · rw [ofSeed_of_not_isScalar scalar] at made
    cases made

/-- The point of the nonce for a digest has an abscissa below the order. -/
def NonceUnreduced (key : SoftwareKey) (digest : Hash) : Prop :=
  ∃ nonce x y, Curve.nonce? (Bytes.ofNatBE 32 key.scalar) digest.bytes = some nonce ∧
    Curve.Point.scale nonce Curve.Point.generator = .affine x y ∧ x < Curve.order

/-- What is signed has been written from scalars by which the key is recovered. -/
theorem sign_eq_ok {key : SoftwareKey} {digest : Hash} {signature : Signature}
    (scalar : Curve.isScalar key.scalar = true) (unreduced : key.NonceUnreduced digest)
    (signed : key.sign digest = .ok signature) :
    ∃ scalars, signature = Signature.ofScalars scalars ∧ Curve.isHigh scalars.s = false ∧
      scalars.RecoverTo (digest.toNat % Curve.order) (Curve.generated key.scalar) := by
  obtain ⟨nonce, x, y, drawn, noncePoint, reduced⟩ := unreduced
  rw [sign, scalars?, drawn, Option.bind_some] at signed
  rcases made : Curve.Scalars.sign? key.scalar (digest.toNat % Curve.order) nonce with _ | scalars
  · rw [made] at signed
    cases signed
  · rw [made] at signed
    obtain ⟨valid, low⟩ := Curve.Scalars.sign?_recovers noncePoint reduced scalar
      (Curve.nonce?_isScalar drawn) made
    exact ⟨scalars, (Except.ok.inj signed).symm, low, valid⟩

/-- A seed in the range of scalars makes a key, no other does, and the account of the key is the
one that its signatures are by. -/
theorem signatures_recover (seed : Seed) :
    ((∃ key, ofSeed seed = .ok key) ↔
      1 ≤ seed.octets.toNat ∧ seed.octets.toNat ≤ Curve.order - 1) ∧
    ((¬ ∃ key, ofSeed seed = .ok key) → ofSeed seed = .error (.seed .notAScalar)) ∧
    ∀ (key : SoftwareKey) (digest : Hash) (signature : Signature),
      ofSeed seed = .ok key → key.sign digest = .ok signature → key.NonceUnreduced digest →
        (signature.v = 27 ∨ signature.v = 28) ∧
          signature.s.toNat ≤ (Curve.order - 1) / 2 ∧
          signature.ensureSigner digest key.address = .ok () := by
  refine ⟨?_, ?_, ?_⟩
  · rw [exists_ofSeed_iff, Curve.isScalar_iff]
    omega
  · intro unusable
    rw [exists_ofSeed_iff] at unusable
    exact ofSeed_of_not_isScalar unusable
  · intro key digest signature made signed unreduced
    obtain ⟨_, scalar, account⟩ := ofSeed_eq_ok made
    obtain ⟨scalars, rfl, low, valid⟩ := sign_eq_ok scalar unreduced signed
    have formed := Signature.wellFormed_ofScalars valid
    have notHigh : Curve.isHigh (Signature.ofScalars scalars).s.toNat = false := by
      rw [Signature.toNat_ofScalars_s valid, low]
    have recovered := Signature.recoverAddress_of_recoversTo formed notHigh
      (Signature.recoversTo_ofScalars valid)
    rw [← account] at recovered
    exact ⟨formed.recovery, Signature.low_of_not_isHigh notHigh,
      Signature.ensureSigner_of_recoverAddress recovered⟩

def sampleSeed : Seed :=
  ⟨Octets.ofNat 32 4⟩

/-- A digest above the order. -/
def sampleDigest : Hash :=
  Octets.ofNat 32 (2 ^ 256 - 1)

def sampleNonce : Nat :=
  89931975776848810714417739749781495217480943544359048526055308040480534571723

set_option maxRecDepth 100000 in
theorem nonce?_sample :
    Curve.nonce? (Bytes.ofNatBE 32 4) sampleDigest.bytes = some sampleNonce := by
  decide +kernel

def sampleAbscissa : Nat :=
  83988830215972585837853763237973464717523017134159683205083743306641979372761

def sampleOrdinate : Nat :=
  36834447876268058170509643762580261278137053716099278851848497932530862336322

theorem scale_sampleNonce :
    Curve.Point.scale sampleNonce Curve.Point.generator =
      .affine sampleAbscissa sampleOrdinate := by
  rw [Curve.Point.scale_eq_windowed]
  decide +kernel

theorem sampleAbscissa_lt : sampleAbscissa < Curve.order := by
  decide

theorem sample_not_degenerate :
    ¬ (sampleAbscissa = 0 ∨
      Curve.Scalars.secondScalar 4 (sampleDigest.toNat % Curve.order) sampleNonce
        sampleAbscissa = 0) := by
  decide +kernel

theorem toNat_sampleSeed : sampleSeed.octets.toNat = 4 :=
  Octets.toNat_ofNat (by decide)

theorem sign_sample {key : SoftwareKey} (four : key.scalar = 4) :
    ∃ signature, key.sign sampleDigest = .ok signature := by
  rw [sign, scalars?, four, nonce?_sample, Option.bind_some,
    Curve.Scalars.sign?_eq scale_sampleNonce sampleAbscissa_lt, if_neg sample_not_degenerate]
  exact ⟨_, rfl⟩

theorem nonceUnreduced_sample {key : SoftwareKey} (four : key.scalar = 4) :
    key.NonceUnreduced sampleDigest := by
  refine ⟨sampleNonce, sampleAbscissa, sampleOrdinate, ?_, scale_sampleNonce, sampleAbscissa_lt⟩
  rw [four, nonce?_sample]

theorem signatures_recover_sample :
    ∃ key signature, ofSeed sampleSeed = .ok key ∧ key.sign sampleDigest = .ok signature ∧
      signature.ensureSigner sampleDigest key.address = .ok () := by
  obtain ⟨made, _, recover⟩ := signatures_recover sampleSeed
  obtain ⟨key, ofSample⟩ := made.mpr (by rw [toNat_sampleSeed]; decide)
  have four : key.scalar = 4 := by
    rw [(ofSeed_eq_ok ofSample).1, toNat_sampleSeed]
  obtain ⟨signature, signed⟩ := sign_sample four
  obtain ⟨_, _, passed⟩ := recover key sampleDigest signature ofSample signed
    (nonceUnreduced_sample four)
  exact ⟨key, signature, ofSample, signed, passed⟩

end SoftwareKey

end Countersign
