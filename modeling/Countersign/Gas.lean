import Countersign.Json.Codec

/-!
What an operation pays for its gas, gas limits, and the policy that raises the limits that an
estimator suggests. Verifying a lattice signature costs far more than an estimator expects, so that
the limits of verification have floors.
-/

namespace Countersign

/-- The most that is paid for a unit of gas, and the part of it that is a tip. -/
structure Fees where
  maximum : BitVec 128
  priority : BitVec 128
deriving DecidableEq

namespace Fees

def json (fees : Fees) : String :=
  Json.writeRecord
    [("maxFeePerGas", Json.writeNat fees.maximum.toNat),
      ("maxPriorityFeePerGas", Json.writeNat fees.priority.toNat)]

def keys : List String := ["maxFeePerGas", "maxPriorityFeePerGas"]

def ofValue? (value : Json.Value) : Option Fees :=
  match Json.fields? keys value with
  | some [maximum, priority] => do
      return {
        maximum := ← Json.required Json.uint128? maximum
        priority := ← Json.required Json.uint128? priority }
  | _ => none

def ofJson (document : String) : Except Error Fees :=
  Json.readDocument .any ofValue? document

end Fees

/-- The fees that are paid when nobody suggests any. -/
structure FeeDefaults where
  maximum : UInt64
  priority : UInt64
deriving DecidableEq

namespace FeeDefaults

def standard : FeeDefaults :=
  ⟨50000000000, 2000000000⟩

def toFees (defaults : FeeDefaults) : Fees :=
  ⟨BitVec.ofNat 128 defaults.maximum.toNat, BitVec.ofNat 128 defaults.priority.toNat⟩

def json (defaults : FeeDefaults) : String :=
  Json.writeRecord
    [("maxFeePerGas", Json.writeNat defaults.maximum.toNat),
      ("maxPriorityFeePerGas", Json.writeNat defaults.priority.toNat)]

def keys : List String := ["maxFeePerGas", "maxPriorityFeePerGas"]

/-- Reads fees; what is left out is as in the standard ones. -/
def ofValue? (value : Json.Value) : Option FeeDefaults :=
  match Json.fields? keys value with
  | some [maximum, priority] => do
      return {
        maximum := ← Json.optional standard.maximum Json.uint64? maximum
        priority := ← Json.optional standard.priority Json.uint64? priority }
  | _ => none

end FeeDefaults

/-- The three gas limits of an operation, as they are estimated and as they are signed. -/
structure GasLimits where
  verification : UInt64
  call : UInt64
  preVerification : UInt64
deriving DecidableEq

namespace GasLimits

def json (limits : GasLimits) : String :=
  Json.writeRecord
    [("verificationGasLimit", Json.writeNat limits.verification.toNat),
      ("callGasLimit", Json.writeNat limits.call.toNat),
      ("preVerificationGas", Json.writeNat limits.preVerification.toNat)]

def keys : List String :=
  ["verificationGasLimit", "callGasLimit", "preVerificationGas"]

def ofValue? (value : Json.Value) : Option GasLimits :=
  match Json.fields? keys value with
  | some [verification, call, preVerification] => do
      return {
        verification := ← Json.required Json.uint64? verification
        call := ← Json.required Json.uint64? call
        preVerification := ← Json.required Json.uint64? preVerification }
  | _ => none

def ofJson (document : String) : Except Error GasLimits :=
  Json.readDocument .any ofValue? document

end GasLimits

/-- Floors for the limits of an operation, the percentage by which an estimate for what precedes
verification is raised, and the call gas for when there is no estimate. -/
structure GasPolicy where
  mlDsa44Floor : UInt64
  falcon512Floor : UInt64
  multiplierPercent : UInt64
  preVerificationFloor : UInt64
  defaultCall : UInt64
deriving DecidableEq

namespace GasPolicy

def standard : GasPolicy :=
  ⟨8000000, 4000000, 150, 400000, 500000⟩

/-- The floor of the verification gas. -/
def verificationFloor (policy : GasPolicy) : Algorithm → UInt64
  | .mlDsa44 => policy.mlDsa44Floor
  | .falcon512 => policy.falcon512Floor

/-- A percentage of a number. The product stops at the highest number of 64 bits before it is
divided. -/
def scale (value percent : UInt64) : UInt64 :=
  UInt64.ofNat (min (value.toNat * percent.toNat) (UInt64.size - 1) / 100)

/-- The limits for an estimate. -/
def apply (policy : GasPolicy) (estimate : GasLimits) (algorithm : Algorithm) : GasLimits where
  verification := max estimate.verification (policy.verificationFloor algorithm)
  call := estimate.call
  preVerification :=
    max (scale estimate.preVerification policy.multiplierPercent) policy.preVerificationFloor

/-- The limits when there is no estimate. -/
def fallback (policy : GasPolicy) (algorithm : Algorithm) : GasLimits where
  verification := policy.verificationFloor algorithm
  call := policy.defaultCall
  preVerification := policy.preVerificationFloor

def json (policy : GasPolicy) : String :=
  Json.writeRecord
    [("mlDsa44VerificationGasFloor", Json.writeNat policy.mlDsa44Floor.toNat),
      ("falcon512VerificationGasFloor", Json.writeNat policy.falcon512Floor.toNat),
      ("preVerificationGasMultiplierPercent", Json.writeNat policy.multiplierPercent.toNat),
      ("preVerificationGasFloor", Json.writeNat policy.preVerificationFloor.toNat),
      ("defaultCallGasLimit", Json.writeNat policy.defaultCall.toNat)]

def keys : List String :=
  ["mlDsa44VerificationGasFloor", "falcon512VerificationGasFloor",
    "preVerificationGasMultiplierPercent", "preVerificationGasFloor", "defaultCallGasLimit"]

/-- Reads a policy; what is left out is as in the standard policy. -/
def ofValue? (value : Json.Value) : Option GasPolicy :=
  match Json.fields? keys value with
  | some [mlDsa44Floor, falcon512Floor, multiplierPercent, preVerificationFloor, defaultCall] => do
      return {
        mlDsa44Floor := ← Json.optional standard.mlDsa44Floor Json.uint64? mlDsa44Floor
        falcon512Floor := ← Json.optional standard.falcon512Floor Json.uint64? falcon512Floor
        multiplierPercent :=
          ← Json.optional standard.multiplierPercent Json.uint64? multiplierPercent
        preVerificationFloor :=
          ← Json.optional standard.preVerificationFloor Json.uint64? preVerificationFloor
        defaultCall := ← Json.optional standard.defaultCall Json.uint64? defaultCall }
  | _ => none

def ofJson (document : String) : Except Error GasPolicy :=
  Json.readDocument .any ofValue? document

end GasPolicy

end Countersign
