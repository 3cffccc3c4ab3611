import Countersign.Proofs.HybridSignature
import Countersign.Proofs.Pipeline.Execution
import Countersign.Proofs.Signer.Soundness

/-!
What an estimator is shown and what is signed in the end are the same operation but for the limits
that the estimate is about and for the signature, which is as long as the stand-in for it.
-/

namespace Countersign

variable {ω : Type}

/-- The signers of operations: an ML-DSA-44 key in memory or a lattice key on an element, beside a
classical signer of any kind, or both keys on an element together. Each works on its part of the
state of the whole. -/
inductive OperationSigner.Measured : OperationSigner ω → Prop
  | inMemory (classical : ClassicalSigner ω) (seed : Seed) :
      Measured (HybridSigner.toOperationSigner ⟨classical, (MlDsaKey.ofSeed seed).toSigner⟩)
  | sideBySide {σ : Type} (transport : Transport σ) (get : ω → SharedSession σ)
      (set : SharedSession σ → ω → ω) (classical : ClassicalSigner (SharedSession σ))
      (key : Element.LatticeKey) :
      Measured ((HybridSigner.toOperationSigner
        ⟨classical, key.toSigner transport⟩).focus get set)
  | together {σ : Type} (transport : Transport σ) (get : ω → SharedSession σ)
      (set : SharedSession σ → ω → ω) (key : Element.HybridKey) :
      Measured ((key.toSigner transport).focus get set)

theorem Element.LatticeKey.sign_eq_ok {σ : Type} {transport : Transport σ} {key : LatticeKey}
    {message signature : Bytes} {shared : SharedSession σ}
    (signed : (key.sign transport message shared).1 = .ok signature) :
    key.algorithm.Yields signature := by
  obtain ⟨raw, later, _, finished⟩ := Task.bind_eq_ok signed
  have finalized : key.algorithm.finalizeSignature raw (UInt64.ofNat message.length) =
      .ok signature := finished
  exact .finished finalized

theorem MlDsaKey.signer_eq_ok {σ : Type} {key : MlDsaKey} {message signature : Bytes}
    {before after : σ} (signed : key.toSigner.sign message before = (.ok signature, after)) :
    key.sign message = .ok signature :=
  Task.ofExcept_eq_ok signed

/-- A hybrid signer passes on what its parts have made. -/
theorem HybridSigner.sign_eq_ok {σ : Type} {signer : HybridSigner σ} {operation : Operation}
    {contract : Address} {chainId : UInt64} {state : σ} {signature : HybridSignature}
    (signed : (signer.sign operation contract chainId state).1 = .ok signature) :
    ∃ classical postQuantum between later,
      signature = HybridSignature.make classical postQuantum ∧
        signer.postQuantum.sign (operation.hash contract chainId).bytes between =
          (.ok postQuantum, later) := by
  obtain ⟨classical, between, _, signedFurther⟩ := Task.bind_eq_ok signed
  obtain ⟨postQuantum, later, made, returned⟩ := Task.bind_eq_ok signedFurther
  cases returned
  exact ⟨classical, postQuantum, between, later, rfl, made⟩

namespace OperationSigner.Measured

variable {signer : OperationSigner ω}

theorem dummy_eq (measured : signer.Measured) :
    signer.dummy = HybridSignature.dummy signer.algorithm := by
  cases measured <;> rfl

theorem sign_eq_ok (measured : signer.Measured) {operation : Operation} {contract : Address}
    {chainId : UInt64} {state : ω} {signature : HybridSignature}
    (signed : (signer.sign operation contract chainId state).1 = .ok signature) :
    ∃ classical postQuantum, signature = HybridSignature.make classical postQuantum ∧
      signer.algorithm.Yields postQuantum := by
  cases measured with
  | inMemory classical seed =>
      obtain ⟨classicalSignature, postQuantum, between, later, made, yielded⟩ :=
        HybridSigner.sign_eq_ok signed
      exact ⟨classicalSignature, postQuantum, made, .inMemory (MlDsaKey.signer_eq_ok yielded)⟩
  | sideBySide transport get set classical key =>
      have signedWithin : (HybridSigner.sign ⟨classical, key.toSigner transport⟩ operation contract
          chainId (get state)).1 = .ok signature := signed
      obtain ⟨classicalSignature, postQuantum, between, later, made, yielded⟩ :=
        HybridSigner.sign_eq_ok signedWithin
      exact ⟨classicalSignature, postQuantum, made,
        Element.LatticeKey.sign_eq_ok (congrArg Prod.fst yielded)⟩
  | together transport get set key =>
      obtain ⟨classical, raw, postQuantum, made, _, finalized⟩ :=
        Element.HybridKey.sign_eq_ok signed
      exact ⟨classical, postQuantum, made, .finished finalized⟩

/-- Whatever is signed, the signature is as long as the stand-in. -/
theorem length_encode (measured : signer.Measured) {operation : Operation} {contract : Address}
    {chainId : UInt64} {state : ω} {signature : HybridSignature}
    (signed : (signer.sign operation contract chainId state).1 = .ok signature) :
    signature.encode.length = signer.dummy.encode.length := by
  obtain ⟨classical, postQuantum, rfl, yielded⟩ := measured.sign_eq_ok signed
  rw [measured.dummy_eq]
  exact HybridSignature.length_encode_eq_dummy classical.length_toBytes yielded.length

end OperationSigner.Measured

/-- Data hold a stand-in for the signatures of a scheme: a pair with their lengths, whose bytes are
all `0xFF`. -/
def HybridSignature.StandsIn (algorithm : Algorithm) (data : Bytes) : Prop :=
  ∃ signature : HybridSignature, data = signature.encode ∧ decode data = .ok signature ∧
    signature.classical.length = 65 ∧
    signature.postQuantum.length = algorithm.signatureLength ∧
    (∀ byte ∈ signature.classical, byte = 0xFF) ∧ ∀ byte ∈ signature.postQuantum, byte = 0xFF

theorem HybridSignature.standsIn_dummy (algorithm : Algorithm) :
    StandsIn algorithm (dummy algorithm).encode := by
  have classical : (dummy algorithm).classical.length = 65 := List.length_replicate
  have postQuantum : (dummy algorithm).postQuantum.length = algorithm.signatureLength :=
    List.length_replicate
  have short : algorithm.signatureLength < 2 ^ 63 := by
    cases algorithm <;> decide
  have storable : (dummy algorithm).Storable := ⟨by omega, by omega⟩
  exact ⟨dummy algorithm, rfl, decode_encode storable, classical, postQuantum,
    fun _ => List.eq_of_mem_replicate, fun _ => List.eq_of_mem_replicate⟩

/-- An operation was priced as another one: they differ in the limits that were asked for and in
their signatures alone, of which the one has the length of the other. What was priced has the
limits of the policy and a stand-in for the signature. -/
structure SignedOperation.PricedAs (signed : SignedOperation) (pipeline : Pipeline ω)
    (shown : Operation) : Prop where
  same : signed.operation = { shown with
    accountGasLimits := signed.operation.accountGasLimits
    preVerificationGas := signed.operation.preVerificationGas
    signature := signed.operation.signature }
  length_signature : shown.signature.length = signed.operation.signature.length
  limits : shown.Limited (pipeline.config.gas.fallback pipeline.signer.algorithm)
  signature : HybridSignature.StandsIn pipeline.signer.algorithm shown.signature

namespace Pipeline

variable {pipeline : Pipeline ω} {request : Request} {answers : Answers} {before after : ω}

theorem pricedAs_draft (measured : pipeline.signer.Measured)
    (given : answers.GivenBy pipeline request before after) {signature : HybridSignature}
    (signing : answers.signing = .ok signature) :
    (answers.signed pipeline request signature).PricedAs pipeline
      (answers.draft pipeline request) where
  same := rfl
  length_signature := by
    obtain ⟨_, _, afterEstimate, _, _, _, signed⟩ := given
    rw [signing] at signed
    exact (measured.length_encode (congrArg Prod.fst signed)).symm
  limits := limited_withLimits _ _
  signature := by
    change HybridSignature.StandsIn _ pipeline.signer.dummy.encode
    rw [measured.dummy_eq]
    exact HybridSignature.standsIn_dummy pipeline.signer.algorithm

theorem outcome_eq_ok {signed : SignedOperation}
    (built : answers.outcome pipeline request = .ok signed) :
    ∃ signature, answers.signing = .ok signature ∧
      signed = answers.signed pipeline request signature := by
  rcases answer : answers.signing with (error | _) | signature
  · rw [Answers.outcome, answer] at built
    cases built
  · rw [Answers.outcome, answer] at built
    cases built
  · rw [Answers.outcome, answer] at built
    cases built
    exact ⟨signature, rfl, rfl⟩

/-- Whenever an operation is built, an estimator is shown one operation, once, and what is signed
in the end was priced as that. -/
theorem signed_as_priced (pipeline : Pipeline ω) (measured : pipeline.signer.Measured)
    (request : Request) (before : ω) (signed : SignedOperation)
    (built : (pipeline.build request before).1 = .ok signed) :
    ∃ shown unsigned after,
      pipeline.build request before = (.ok signed, after) ∧
      pipeline.recorded.build request (.start before) =
        (.ok signed, ⟨after, [.nonce request.sender request.nonceKey, .fees,
          .estimate shown pipeline.config.entryPoint, .sign unsigned]⟩) ∧
      signed.PricedAs pipeline shown := by
  obtain ⟨answers, after, given⟩ := Answers.exists_givenBy pipeline request before
  have plain := build_apply given
  have noted := build_apply (given.recorded [])
  have ended : answers.outcome pipeline request = .ok signed := by
    rw [← built, plain]
  have endedNoted : answers.outcome pipeline.recorded request = .ok signed := ended
  rw [ended] at plain
  rw [endedNoted, List.nil_append] at noted
  obtain ⟨signature, signing, rfl⟩ := outcome_eq_ok ended
  exact ⟨answers.draft pipeline request, answers.unsigned pipeline request, after, plain, noted,
    pricedAs_draft measured given signing⟩

/-- A pipeline with both keys on an element, whose estimator asks for more gas than the policy. No
other service answers. -/
def estimated : Pipeline (SharedSession (List Bytes)) where
  signer :=
    let address := Octets.ofNat 20 0xafdc65bc47f4532a84e87d26aa6c2517115eb036
    let key : Element.HybridKey := ⟨.root, .mlDsa44, .hash, address, []⟩
    (key.toSigner scripted).focus id fun part _ => part
  services := {
    nonce := fun _ _ => throw (.rpc "no answer")
    fees := throw (.rpc "no answer")
    estimate := fun _ _ => return ⟨9000000, 60000, 300000⟩
    send := fun _ _ => throw (.rpc "no answer")
    receipt := fun _ _ => return (.error (.rpc "no answer"), 0) }
  config := .standard

/-- A call of the zero address that carries nothing. -/
def emptyCall : Request :=
  ⟨Octets.zero 20, Octets.zero 20, 0, [], [], [], 0⟩

/-- The responses to the commands by which the call is signed. The classical signature is one over
its hash; the lattice signature is not looked at. -/
def emptyCallReplies : List Bytes :=
  let scalar := Bytes.ofNatBE 32
    30669884682278036256847456177162831810622191263771322330352289300560402346243
  [[0x90, 0x00], 27 :: scalar ++ scalar ++ [0x90, 0x00]] ++
    (Session.chunkLengths 2420).map fun length => Bytes.zeros length ++ [0x90, 0x00]

set_option maxRecDepth 100000 in
theorem estimated_built :
    (estimated.build emptyCall (.ofSession (.start emptyCallReplies))).1.toBool = true := by
  decide +kernel

theorem signed_as_priced_estimated :
    estimated.signer.Measured ∧
      ∃ signed shown,
        (estimated.build emptyCall (.ofSession (.start emptyCallReplies))).1 = .ok signed ∧
          signed.PricedAs estimated shown := by
  have measured : estimated.signer.Measured :=
    .together scripted id (fun part _ => part) _
  obtain ⟨signed, built⟩ := Result.eq_ok_of_toBool estimated_built
  obtain ⟨shown, _, _, _, _, priced⟩ :=
    signed_as_priced estimated measured emptyCall _ signed built
  exact ⟨measured, signed, shown, built, priced⟩

end Pipeline

end Countersign
