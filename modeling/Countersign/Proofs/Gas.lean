import Countersign.Config

/-!
Limits after the policy has raised them. They are never below its floors; for what precedes
verification the product with the percentage stops at the highest number of 64 bits and is divided
after that, so that from a hundredth of this number on a limit may come out below its estimate.
-/

namespace Countersign

namespace GasPolicy

theorem le_max_iff {value left right : UInt64} :
    value ≤ max left right ↔ value ≤ left ∨ value ≤ right := by
  by_cases order : left ≤ right
  · have highest : max left right = right := by simp [max, order]
    rw [highest]
    exact ⟨.inr, fun below => below.elim (UInt64.le_trans · order) id⟩
  · have highest : max left right = left := by simp [max, order]
    have above : right ≤ left := UInt64.le_of_lt (UInt64.not_le.mp order)
    rw [highest]
    exact ⟨.inl, fun below => below.elim id (UInt64.le_trans · above)⟩

/-- The limits are not below the floors of a policy. -/
structure Met (policy : GasPolicy) (algorithm : Algorithm) (limits : GasLimits) : Prop where
  verification : policy.verificationFloor algorithm ≤ limits.verification
  preVerification : policy.preVerificationFloor ≤ limits.preVerification

theorem met_fallback (policy : GasPolicy) (algorithm : Algorithm) :
    policy.Met algorithm (policy.fallback algorithm) :=
  ⟨UInt64.le_refl _, UInt64.le_refl _⟩

theorem met_apply (policy : GasPolicy) (estimate : GasLimits) (algorithm : Algorithm) :
    policy.Met algorithm (policy.apply estimate algorithm) :=
  ⟨le_max_iff.mpr (.inr (UInt64.le_refl _)), le_max_iff.mpr (.inr (UInt64.le_refl _))⟩

theorem toNat_scale (value percent : UInt64) :
    (scale value percent).toNat = min (value.toNat * percent.toNat) (UInt64.size - 1) / 100 := by
  have bound : min (value.toNat * percent.toNat) (UInt64.size - 1) ≤ UInt64.size - 1 :=
    Nat.min_le_right _ _
  have quotient : min (value.toNat * percent.toNat) (UInt64.size - 1) / 100 < UInt64.size := by
    simp only [UInt64.size] at bound ⊢
    omega
  exact UInt64.toNat_ofNat_of_lt' quotient

/-- A hundred percent or more do not lower a number, unless the product stops short of a hundred
times the number. -/
theorem le_scale_iff {value percent : UInt64} (raising : 100 ≤ percent) :
    value ≤ scale value percent ↔ value.toNat ≤ (UInt64.size - 1) / 100 := by
  have least : 100 ≤ percent.toNat := UInt64.le_iff_toNat_le.mp raising
  have product : value.toNat * 100 ≤ value.toNat * percent.toNat :=
    Nat.mul_le_mul_left value.toNat least
  rw [UInt64.le_iff_toNat_le, toNat_scale]
  omega

/-- These limits are below neither the estimate nor the floors of a policy, but for one case. What
precedes verification has less than was estimated if the estimate is above its floor and above a
hundredth of the highest number of 64 bits. -/
structure Corrects (policy : GasPolicy) (algorithm : Algorithm) (estimate limits : GasLimits) :
    Prop where
  floors : policy.Met algorithm limits
  verification : estimate.verification ≤ limits.verification
  call : estimate.call ≤ limits.call
  preVerification : estimate.preVerification ≤ limits.preVerification ↔
    estimate.preVerification.toNat ≤ (UInt64.size - 1) / 100 ∨
      estimate.preVerification ≤ policy.preVerificationFloor

end GasPolicy

namespace Config

theorem raising_of_valid {config : Config} (valid : config.validate = .ok ()) :
    100 ≤ config.gas.multiplierPercent := by
  by_cases low : config.gas.multiplierPercent < 100
  · by_cases chainless : config.chainId = 0
    · simp [validate, chainless] at valid
    · simp [validate, chainless, low] at valid
  · exact UInt64.not_lt.mp low

theorem corrects_estimates {config : Config} (valid : config.validate = .ok ())
    (algorithm : Algorithm) (estimate : GasLimits) :
    config.gas.Corrects algorithm estimate (config.gas.apply estimate algorithm) where
  floors := GasPolicy.met_apply config.gas estimate algorithm
  verification := GasPolicy.le_max_iff.mpr (.inl (UInt64.le_refl _))
  call := UInt64.le_refl _
  preVerification := by
    rw [GasPolicy.apply, GasPolicy.le_max_iff, GasPolicy.le_scale_iff (raising_of_valid valid)]

theorem corrects_low_estimate :
    standard.validate = .ok () ∧
      GasPolicy.standard.Corrects .mlDsa44 ⟨150000, 80000, 60000⟩ ⟨8000000, 80000, 400000⟩ :=
  have valid : standard.validate = .ok () := rfl
  ⟨valid, corrects_estimates valid .mlDsa44 ⟨150000, 80000, 60000⟩⟩

/-- The highest estimate of what precedes verification comes out as a hundredth of it. -/
theorem lowers_highest_estimate :
    standard.validate = .ok () ∧
      standard.gas.apply ⟨0, 0, 18446744073709551615⟩ .mlDsa44 =
        ⟨8000000, 0, 184467440737095516⟩ ∧
      ¬ (18446744073709551615 : UInt64) ≤ 184467440737095516 :=
  ⟨rfl, by decide, by decide⟩

end Config

end Countersign
