import Countersign.Pipeline
import Countersign.Proofs.Gas
import Countersign.Proofs.Operation
import Countersign.Proofs.Signature
import Countersign.Proofs.Task

/-!
An operation is built from a request and the answers of the services, of which each is asked once
and none can stop the way. What is returned in the end is what the signer was shown, with the
signature filled in.
-/

namespace Countersign

variable {ω : Type}

/-- What a pipeline is told while it builds an operation, by each service and by the signer. -/
structure Answers where
  nonce : Except Error Word
  fees : Except Error Fees
  estimate : Except Error GasLimits
  signing : Except Halt HybridSignature

namespace Answers

section Operations

variable (answers : Answers) (pipeline : Pipeline ω) (request : Request)

def usedNonce : Word :=
  answers.nonce.toOption.getD (Pipeline.firstNonce request.nonceKey)

def usedFees : Fees :=
  answers.fees.toOption.getD pipeline.config.fees.toFees

def usedLimits : GasLimits :=
  match answers.estimate with
  | .ok estimate => pipeline.config.gas.apply estimate pipeline.signer.algorithm
  | .error _ => pipeline.config.gas.fallback pipeline.signer.algorithm

/-- The operation that the estimator is shown. -/
def draft : Operation :=
  pipeline.draft request (answers.usedNonce request) (answers.usedFees pipeline)

/-- The operation that the signer is shown. -/
def unsigned : Operation :=
  Pipeline.withLimits (answers.draft pipeline request) (answers.usedLimits pipeline)

/-- What is returned for a signature. -/
def signed (signature : HybridSignature) : SignedOperation :=
  let operation := { answers.unsigned pipeline request with signature := signature.encode }
  ⟨operation, operation.hash pipeline.config.entryPoint pipeline.config.chainId,
    pipeline.config.entryPoint, pipeline.config.chainId⟩

def outcome : Except Error SignedOperation :=
  match answers.signing with
  | .ok signature => .ok (answers.signed pipeline request signature)
  | .error (.failure error) => .error error
  | .error .crash => .error (.signing .crashed)

/-- The answers are given one after the other, each to the question that the ones before it
lead to. -/
def GivenBy (before after : ω) : Prop :=
  ∃ afterNonce afterFees afterEstimate,
    pipeline.services.nonce request.sender request.nonceKey before =
        (answers.nonce, afterNonce) ∧
      pipeline.services.fees afterNonce = (answers.fees, afterFees) ∧
      pipeline.services.estimate (answers.draft pipeline request) pipeline.config.entryPoint
        afterFees = (answers.estimate, afterEstimate) ∧
      pipeline.signer.sign (answers.unsigned pipeline request) pipeline.config.entryPoint
        pipeline.config.chainId afterEstimate = (answers.signing, after)

end Operations

/-- Whoever is asked answers. -/
theorem exists_givenBy (pipeline : Pipeline ω) (request : Request) (before : ω) :
    ∃ answers after, GivenBy answers pipeline request before after := by
  let nonce := pipeline.services.nonce request.sender request.nonceKey before
  let fees := pipeline.services.fees nonce.2
  let priced : Answers := ⟨nonce.1, fees.1, .error .recovery, .error .crash⟩
  let estimate := pipeline.services.estimate (priced.draft pipeline request)
    pipeline.config.entryPoint fees.2
  let estimated : Answers := { priced with estimate := estimate.1 }
  let signing := pipeline.signer.sign (estimated.unsigned pipeline request)
    pipeline.config.entryPoint pipeline.config.chainId estimate.2
  exact ⟨{ estimated with signing := signing.1 }, signing.2, nonce.2, fees.2, estimate.2,
    rfl, rfl, rfl, rfl⟩

end Answers

/-- The gas words of an operation are these limits. -/
structure Operation.Limited (operation : Operation) (limits : GasLimits) : Prop where
  verification : operation.verificationGasLimit.toNat = limits.verification.toNat
  call : operation.callGasLimit.toNat = limits.call.toNat
  preVerification : operation.preVerificationGas.toNat = limits.preVerification.toNat

theorem Operation.Limited.of_signature {operation : Operation} {limits : GasLimits}
    (limited : operation.Limited limits) (signature : Bytes) :
    Limited { operation with signature } limits :=
  ⟨limited.verification, limited.call, limited.preVerification⟩

theorem Pipeline.limited_withLimits (operation : Operation) (limits : GasLimits) :
    (withLimits operation limits).Limited limits := by
  have verification := limits.verification.toNat_lt
  have call := limits.call.toNat_lt
  have preVerification := limits.preVerification.toNat_lt
  constructor
  · simp [withLimits, Operation.verificationGasLimit]
    omega
  · simp [withLimits, Operation.callGasLimit]
    omega
  · simp [withLimits]
    omega

theorem Answers.met_usedLimits (answers : Answers) (pipeline : Pipeline ω) :
    pipeline.config.gas.Met pipeline.signer.algorithm (answers.usedLimits pipeline) := by
  rcases answer : answers.estimate with error | estimate
  · rw [usedLimits, answer]
    exact GasPolicy.met_fallback _ _
  · rw [usedLimits, answer]
    exact GasPolicy.met_apply _ _ _

namespace Pipeline

variable {pipeline : Pipeline ω} {request : Request} {answers : Answers} {before after : ω}

theorem nonce_apply
    (asked : pipeline.services.nonce request.sender request.nonceKey before =
      (answers.nonce, after)) :
    pipeline.nonce request before = (answers.usedNonce request, after) := by
  rw [nonce, Attempt.orUse_apply, asked, Answers.usedNonce]

theorem fees_apply (asked : pipeline.services.fees before = (answers.fees, after)) :
    pipeline.fees before = (answers.usedFees pipeline, after) := by
  rw [fees, Attempt.orUse_apply, asked, Answers.usedFees]

theorem limits_apply {operation : Operation}
    (asked : pipeline.services.estimate operation pipeline.config.entryPoint before =
      (answers.estimate, after)) :
    pipeline.limits operation before = (answers.usedLimits pipeline, after) := by
  rcases answer : answers.estimate with error | estimate <;>
    simp [limits, ExceptT.run, asked, Answers.usedLimits, answer]

/-- The beginning of building, which settles all fields but the signature. -/
def prepare (pipeline : Pipeline ω) (request : Request) : StateM ω Operation := do
  let nonce ← pipeline.nonce request
  let fees ← pipeline.fees
  let draft := pipeline.draft request nonce fees
  let limits ← pipeline.limits draft
  return withLimits draft limits

/-- The end of building, when all fields but the signature are settled. -/
def conclude (pipeline : Pipeline ω) (unsigned : Operation) : Attempt ω SignedOperation := do
  let contract := pipeline.config.entryPoint
  let chainId := pipeline.config.chainId
  let signature ← Attempt.ofSigning (pipeline.signer.sign unsigned contract chainId)
  let operation := { unsigned with signature := signature.encode }
  return ⟨operation, operation.hash contract chainId, contract, chainId⟩

theorem conclude_apply
    (asked : pipeline.signer.sign (answers.unsigned pipeline request) pipeline.config.entryPoint
      pipeline.config.chainId before = (answers.signing, after)) :
    pipeline.conclude (answers.unsigned pipeline request) before =
      (answers.outcome pipeline request, after) := by
  rcases answer : answers.signing with (error | _) | signature
  · rw [answer] at asked
    rw [conclude, Task.bind_error (Attempt.ofSigning_failure asked), Answers.outcome, answer]
  · rw [answer] at asked
    rw [conclude, Task.bind_error (Attempt.ofSigning_crash asked), Answers.outcome, answer]
  · rw [answer] at asked
    rw [conclude, Task.bind_ok (Attempt.ofSigning_ok asked), Answers.outcome, answer]
    rfl

theorem build_eq_conclude (pipeline : Pipeline ω) (request : Request) (before : ω) :
    pipeline.build request before =
      pipeline.conclude (pipeline.prepare request before).1 (pipeline.prepare request before).2 := by
  rw [build, Task.bind_lift, Task.bind_lift, Task.bind_lift]
  rfl

/-- Building comes to what the answers lead to. -/
theorem build_apply (given : answers.GivenBy pipeline request before after) :
    pipeline.build request before = (answers.outcome pipeline request, after) := by
  obtain ⟨afterNonce, afterFees, afterEstimate, nonce, fees, estimate, signing⟩ := given
  have limits : pipeline.limits
      (pipeline.draft request (answers.usedNonce request) (answers.usedFees pipeline)) afterFees =
        (answers.usedLimits pipeline, afterEstimate) :=
    limits_apply estimate
  rw [← conclude_apply signing, build, Task.bind_lift, nonce_apply nonce, Task.bind_lift,
    fees_apply fees, Task.bind_lift, limits]
  rfl

end Pipeline

/-- A signed operation carries what was asked for and what was answered, and the given signature
belongs to it. -/
structure SignedOperation.Settles (signed : SignedOperation) (pipeline : Pipeline ω)
    (request : Request) (answers : Answers) (signature : HybridSignature) : Prop where
  sender : signed.operation.sender = request.sender
  initCode : signed.operation.initCode = request.initCode
  callData : signed.operation.callData = request.callData
  paymasterAndData : signed.operation.paymasterAndData = request.paymasterAndData
  nonce :
    match answers.nonce with
    | .ok nonce => signed.operation.nonce = nonce
    | .error _ => signed.operation.nonce.toNat = request.nonceKey.toNat * 2 ^ 64
  fees :
    match answers.fees with
    | .ok fees =>
        signed.operation.maxPriorityFeePerGas = fees.priority ∧
          signed.operation.maxFeePerGas = fees.maximum
    | .error _ =>
        signed.operation.maxPriorityFeePerGas.toNat = pipeline.config.fees.priority.toNat ∧
          signed.operation.maxFeePerGas.toNat = pipeline.config.fees.maximum.toNat
  limits :
    match answers.estimate with
    | .ok estimate =>
        signed.operation.Limited (pipeline.config.gas.apply estimate pipeline.signer.algorithm)
    | .error _ =>
        signed.operation.Limited (pipeline.config.gas.fallback pipeline.signer.algorithm)
  verificationFloor :
    (pipeline.config.gas.verificationFloor pipeline.signer.algorithm).toNat ≤
      signed.operation.verificationGasLimit.toNat
  preVerificationFloor :
    pipeline.config.gas.preVerificationFloor.toNat ≤ signed.operation.preVerificationGas.toNat
  unsigned :
    signed.operation = { answers.unsigned pipeline request with signature := signature.encode }
  signature :
    signature.Storable → HybridSignature.decode signed.operation.signature = .ok signature
  entryPoint : signed.entryPoint = pipeline.config.entryPoint
  chainId : signed.chainId = pipeline.config.chainId
  hash : signed.hash = signed.operation.hash signed.entryPoint signed.chainId
  hash_unsigned :
    signed.hash = (answers.unsigned pipeline request).hash signed.entryPoint signed.chainId

namespace Answers

variable (answers : Answers) (pipeline : Pipeline ω) (request : Request)

theorem toNat_firstNonce (key : BitVec 192) :
    (Pipeline.firstNonce key).toNat = key.toNat * 2 ^ 64 := by
  have small : key.toNat * 2 ^ 64 < 2 ^ 256 := by
    have bound := key.isLt
    omega
  rw [Pipeline.firstNonce, BitVec.toNat_shiftLeft, BitVec.toNat_setWidth, Nat.shiftLeft_eq,
    Nat.mod_eq_of_lt (Nat.lt_trans key.isLt (by decide)), Nat.mod_eq_of_lt small]

theorem limited_signed (signature : HybridSignature) :
    (answers.signed pipeline request signature).operation.Limited
      (answers.usedLimits pipeline) :=
  (Pipeline.limited_withLimits _ _).of_signature _

theorem gasFees_signed (signature : HybridSignature) :
    (answers.signed pipeline request signature).operation.gasFees =
      packPair (answers.usedFees pipeline).priority (answers.usedFees pipeline).maximum :=
  rfl

theorem nonce_signed (signature : HybridSignature) :
    (answers.signed pipeline request signature).operation.nonce = answers.usedNonce request :=
  rfl

theorem toNat_toFees (defaults : FeeDefaults) :
    defaults.toFees.priority.toNat = defaults.priority.toNat ∧
      defaults.toFees.maximum.toNat = defaults.maximum.toNat := by
  have priority := defaults.priority.toNat_lt
  have maximum := defaults.maximum.toNat_lt
  simp only [FeeDefaults.toFees, BitVec.toNat_ofNat]
  omega

/-- What is returned for a signature is settled by the request, the answers and the signature. -/
theorem settles_signed (signature : HybridSignature) :
    (answers.signed pipeline request signature).Settles pipeline request answers signature where
  sender := rfl
  initCode := rfl
  callData := rfl
  paymasterAndData := rfl
  nonce := by
    rw [nonce_signed, usedNonce]
    rcases answers.nonce with error | nonce
    · exact toNat_firstNonce request.nonceKey
    · rfl
  fees := by
    rw [Operation.maxPriorityFeePerGas, Operation.maxFeePerGas, gasFees_signed, highHalf_packPair,
      lowHalf_packPair, usedFees]
    rcases answers.fees with error | fees
    · exact toNat_toFees pipeline.config.fees
    · exact ⟨rfl, rfl⟩
  limits := by
    have limited := answers.limited_signed pipeline request signature
    rcases answer : answers.estimate with error | estimate
    · rwa [usedLimits, answer] at limited
    · rwa [usedLimits, answer] at limited
  verificationFloor := by
    rw [(answers.limited_signed pipeline request signature).verification]
    exact UInt64.le_iff_toNat_le.mp (answers.met_usedLimits pipeline).verification
  preVerificationFloor := by
    rw [(answers.limited_signed pipeline request signature).preVerification]
    exact UInt64.le_iff_toNat_le.mp (answers.met_usedLimits pipeline).preVerification
  unsigned := rfl
  signature := fun storable => HybridSignature.decode_encode storable
  entryPoint := rfl
  chainId := rfl
  hash := rfl
  hash_unsigned := Operation.hash_of_signature _ _ _ _

end Answers

/-- Only the signer can make building fail, with its own failure or by a crash. What is returned
otherwise is the operation that the signer was shown, with its signature filled in: it says what
was asked for and answered, with the floors in force, and its hash is the one that was signed. -/
theorem Pipeline.build_returns_what_was_signed (pipeline : Pipeline ω) (request : Request)
    (before : ω) :
    ∃ answers after, Answers.GivenBy answers pipeline request before after ∧
      match answers.signing with
      | .error (.failure error) => pipeline.build request before = (.error error, after)
      | .error .crash => pipeline.build request before = (.error (.signing .crashed), after)
      | .ok signature =>
          ∃ signed, pipeline.build request before = (.ok signed, after) ∧
            signed.Settles pipeline request answers signature := by
  obtain ⟨answers, after, given⟩ := Answers.exists_givenBy pipeline request before
  have built := build_apply given
  refine ⟨answers, after, given, ?_⟩
  rcases answer : answers.signing with (error | _) | signature
  · rwa [Answers.outcome, answer] at built
  · rwa [Answers.outcome, answer] at built
  · rw [Answers.outcome, answer] at built
    exact ⟨_, built, answers.settles_signed pipeline request signature⟩

end Countersign
