import Countersign.Proofs.Pipeline.Pricing

/-!
Rehearsing an operation. While the services keep to what they have said, all of an operation is
foreseen but its signature: of the signer only the scheme goes into what is hashed. So the hash of
an operation that was signed with one key is the name under which it is sent when it is signed with
another.
-/

namespace Countersign

variable {ω τ : Type}

/-- What is said to every question, whenever it is asked. -/
structure Replies where
  nonce : Address → BitVec 192 → Except Error Word
  fees : Except Error Fees
  estimate : Operation → Address → Except Error GasLimits

/-- Whatever has happened to the services, their answers are these. -/
structure Services.AnswerBy (services : Services ω) (replies : Replies) : Prop where
  nonce : ∀ sender key state, (services.nonce sender key state).1 = replies.nonce sender key
  fees : ∀ state, (services.fees state).1 = replies.fees
  estimate : ∀ operation entryPoint state,
    (services.estimate operation entryPoint state).1 = replies.estimate operation entryPoint

/-- Operations that are sent are named by their hashes for a chain. -/
def Services.NamesByHash (services : Services ω) (chainId : UInt64) : Prop :=
  ∀ operation entryPoint state id,
    (services.send operation entryPoint state).1 = .ok id →
      id = operation.hash entryPoint chainId

/-- Two pipelines follow the same rules, sign for the same scheme with the usual stand-in, and are
told the same by their services. Their signers may have any keys and make any signatures. -/
structure Pipeline.Alike (first : Pipeline ω) (second : Pipeline τ) : Prop where
  config : first.config = second.config
  algorithm : first.signer.algorithm = second.signer.algorithm
  firstDummy : first.signer.dummy = HybridSignature.dummy first.signer.algorithm
  secondDummy : second.signer.dummy = HybridSignature.dummy second.signer.algorithm
  replies : ∃ replies, first.services.AnswerBy replies ∧ second.services.AnswerBy replies

namespace Answers

/-- What a pipeline is told is what is said to its questions. -/
theorem GivenBy.eq_replies {answers : Answers} {pipeline : Pipeline ω} {request : Request}
    {before after : ω} {replies : Replies} (given : answers.GivenBy pipeline request before after)
    (fixed : pipeline.services.AnswerBy replies) :
    answers.nonce = replies.nonce request.sender request.nonceKey ∧ answers.fees = replies.fees ∧
      answers.estimate =
        replies.estimate (answers.draft pipeline request) pipeline.config.entryPoint := by
  obtain ⟨afterNonce, afterFees, afterEstimate, nonce, fees, estimate, _⟩ := given
  refine ⟨?_, ?_, ?_⟩
  · rw [← fixed.nonce _ _ before, nonce]
  · rw [← fixed.fees afterNonce, fees]
  · rw [← fixed.estimate _ _ afterFees, estimate]

end Answers

namespace Pipeline.Alike

variable {first : Pipeline ω} {second : Pipeline τ} {request : Request}

theorem draft_eq (alike : first.Alike second) (nonce : Word) (fees : Fees) :
    first.draft request nonce fees = second.draft request nonce fees := by
  rw [draft, draft, alike.firstDummy, alike.secondDummy, alike.algorithm, alike.config]

variable {firstAnswers secondAnswers : Answers} {firstBefore firstAfter : ω}
  {secondBefore secondAfter : τ}

/-- What the signers are shown does not depend on which of them it is. -/
theorem unsigned_eq (alike : first.Alike second)
    (firstGiven : firstAnswers.GivenBy first request firstBefore firstAfter)
    (secondGiven : secondAnswers.GivenBy second request secondBefore secondAfter) :
    firstAnswers.unsigned first request = secondAnswers.unsigned second request := by
  obtain ⟨replies, firstFixed, secondFixed⟩ := alike.replies
  obtain ⟨firstNonce, firstFees, firstEstimate⟩ := firstGiven.eq_replies firstFixed
  obtain ⟨secondNonce, secondFees, secondEstimate⟩ := secondGiven.eq_replies secondFixed
  have nonce : firstAnswers.usedNonce request = secondAnswers.usedNonce request := by
    rw [Answers.usedNonce, Answers.usedNonce, firstNonce, secondNonce]
  have fees : firstAnswers.usedFees first = secondAnswers.usedFees second := by
    rw [Answers.usedFees, Answers.usedFees, firstFees, secondFees, alike.config]
  have draft : firstAnswers.draft first request = secondAnswers.draft second request := by
    rw [Answers.draft, Answers.draft, nonce, fees, alike.draft_eq]
  have estimate : firstAnswers.estimate = secondAnswers.estimate := by
    rw [firstEstimate, secondEstimate, draft, alike.config]
  have limits : firstAnswers.usedLimits first = secondAnswers.usedLimits second := by
    rw [Answers.usedLimits, Answers.usedLimits, estimate, alike.algorithm, alike.config]
  rw [Answers.unsigned, Answers.unsigned, draft, limits]

end Pipeline.Alike

/-- Two signed operations differ in their signatures alone. -/
structure SignedOperation.SameButSignature (left right : SignedOperation) : Prop where
  operation : left.operation = { right.operation with signature := left.operation.signature }
  hash : left.hash = right.hash
  entryPoint : left.entryPoint = right.entryPoint
  chainId : left.chainId = right.chainId

namespace Pipeline

variable {pipeline : Pipeline ω} {request : Request} {before : ω} {signed : SignedOperation}

theorem signed_of_build (built : (pipeline.build request before).1 = .ok signed) :
    ∃ answers after signature, Answers.GivenBy answers pipeline request before after ∧
      signed = answers.signed pipeline request signature := by
  obtain ⟨answers, after, given⟩ := Answers.exists_givenBy pipeline request before
  rw [build_apply given] at built
  obtain ⟨signature, _, same⟩ := outcome_eq_ok built
  exact ⟨answers, after, signature, given, same⟩

theorem hash_of_build (built : (pipeline.build request before).1 = .ok signed) :
    signed.hash = signed.operation.hash signed.entryPoint pipeline.config.chainId := by
  obtain ⟨answers, after, signature, _, rfl⟩ := signed_of_build built
  rfl

theorem Alike.sameButSignature {first : Pipeline ω} {second : Pipeline τ}
    (alike : first.Alike second) {later : τ} {rehearsed : SignedOperation}
    (firstBuilt : (first.build request before).1 = .ok rehearsed)
    (secondBuilt : (second.build request later).1 = .ok signed) :
    signed.SameButSignature rehearsed := by
  obtain ⟨firstAnswers, _, firstSignature, firstGiven, rfl⟩ := signed_of_build firstBuilt
  obtain ⟨secondAnswers, _, secondSignature, secondGiven, rfl⟩ := signed_of_build secondBuilt
  have same := alike.unsigned_eq firstGiven secondGiven
  constructor
  · simp only [Answers.signed, same]
  · simp only [Answers.signed, same, alike.config, Operation.hash_of_signature]
  · exact congrArg Config.entryPoint alike.config.symm
  · exact congrArg Config.chainId alike.config.symm

theorem sent_of_submit {state : ω} {id : Hash}
    (submitted : (pipeline.submit signed state).1 = .ok id) :
    (pipeline.services.send signed.operation signed.entryPoint state).1 = .ok id := by
  rw [submit, Task.adapt_apply] at submitted
  cases sent : (pipeline.services.send signed.operation signed.entryPoint state).1 with
  | error error =>
      rw [sent] at submitted
      cases submitted
  | ok found =>
      rw [sent] at submitted
      cases submitted
      rfl

/-- Receipts are looked for only under the name that a signed operation was given when it was
sent. -/
theorem Course.sent_of_receipt {result : Except Error (Outcome × Nat)} {last : ω}
    {events : List PipelineCall} {id : Hash} {time : Nat}
    (course : pipeline.Course request before result last events)
    (looked : .receipt id time ∈ events) :
    ∃ signed after, pipeline.build request before = (.ok signed, after) ∧
      (pipeline.services.send signed.operation signed.entryPoint after).1 = .ok id := by
  cases course with
  | unsigned given failed => simp [Answers.questions] at looked
  | crashed given crashed => simp [Answers.questions] at looked
  | unsent given built failed report => simp [Answers.questions] at looked
  | @sent answers after _ _ signed named _ times given built taken waited =>
      have asked : time ∈ times ∧ named = id := by
        simpa [Answers.questions] using looked
      rw [asked.2] at taken
      exact ⟨signed, after, built, congrArg Prod.fst taken⟩

/-- What one pipeline has signed foretells what another one signs that has a signer of the same
scheme: the signature alone is new. Where operations are named by their hashes, the hash is the name
that the operation gets, and the only one under which a receipt is looked for. -/
theorem rehearsal_foretells (rehearsing : Pipeline ω) (acting : Pipeline τ)
    (alike : rehearsing.Alike acting) (request : Request) (before : ω) (later : τ)
    (rehearsed signed : SignedOperation)
    (rehearsedBuilt : (rehearsing.build request before).1 = .ok rehearsed)
    (built : (acting.build request later).1 = .ok signed) :
    signed.SameButSignature rehearsed ∧
      (acting.services.NamesByHash acting.config.chainId →
        (∀ state id, (acting.submit signed state).1 = .ok id → id = rehearsed.hash) ∧
          ∀ id time,
            .receipt id time ∈ (acting.recorded.execute request (.start later)).2.events →
              id = rehearsed.hash) := by
  have same := alike.sameButSignature rehearsedBuilt built
  refine ⟨same, fun named => ?_⟩
  have name : ∀ state id,
      (acting.services.send signed.operation signed.entryPoint state).1 = .ok id →
        id = rehearsed.hash := by
    intro state id sent
    rw [named _ _ _ _ sent, ← same.hash, hash_of_build built]
  refine ⟨fun state id submitted => name state id (sent_of_submit submitted), ?_⟩
  intro id time looked
  obtain ⟨result, last, events, recorded, _, course⟩ :=
    execute_follows_course acting request later
  rw [recorded] at looked
  obtain ⟨found, after, foundBuilt, sent⟩ := course.sent_of_receipt looked
  rw [foundBuilt] at built
  cases built
  exact name after id sent

/-- What the services of the pipeline with both keys on an element say. -/
def estimatedReplies : Replies where
  nonce _ _ := .error (.rpc "no answer")
  fees := .error (.rpc "no answer")
  estimate _ _ := .ok ⟨9000000, 60000, 300000⟩

/-- A pipeline whose services say the same and name operations by their hashes. Its signer never
makes the same signature twice. -/
def counting : Pipeline Nat where
  signer := {
    algorithm := .mlDsa44
    sign := fun _ _ _ count => (.ok ⟨[], Bytes.ofNatBE 8 count⟩, count + 1) }
  services := {
    nonce := fun sender key count => (estimatedReplies.nonce sender key, count)
    fees := fun count => (estimatedReplies.fees, count)
    estimate := fun operation entryPoint count =>
      (estimatedReplies.estimate operation entryPoint, count)
    send := fun operation entryPoint => return operation.hash entryPoint Config.standard.chainId
    receipt := fun _ _ => return (.ok none, 0) }
  config := .standard

theorem alike_estimated_counting : estimated.Alike counting where
  config := rfl
  algorithm := rfl
  firstDummy := rfl
  secondDummy := rfl
  replies := ⟨estimatedReplies, ⟨fun _ _ _ => rfl, fun _ => rfl, fun _ _ _ => rfl⟩,
    fun _ _ _ => rfl, fun _ => rfl, fun _ _ _ => rfl⟩

theorem namesByHash_counting : counting.services.NamesByHash counting.config.chainId := by
  intro operation entryPoint count id sent
  cases sent
  rfl

theorem rehearsal_foretells_counting :
    estimated.Alike counting ∧
      ∃ rehearsed first second,
        (estimated.build emptyCall (.ofSession (.start emptyCallReplies))).1 = .ok rehearsed ∧
          (counting.build emptyCall 0).1 = .ok first ∧ (counting.build emptyCall 1).1 = .ok second ∧
          first.operation.signature ≠ second.operation.signature ∧
          first.hash = rehearsed.hash ∧ second.hash = rehearsed.hash ∧
          (counting.submit second 2).1 = .ok rehearsed.hash := by
  have built (count : Nat) : ∃ signed, (counting.build emptyCall count).1 = .ok signed ∧
      signed.operation.signature = HybridSignature.encode ⟨[], Bytes.ofNatBE 8 count⟩ :=
    ⟨_, rfl, rfl⟩
  obtain ⟨rehearsed, rehearsedBuilt⟩ := Result.eq_ok_of_toBool estimated_built
  obtain ⟨first, firstBuilt, firstSignature⟩ := built 0
  obtain ⟨second, secondBuilt, secondSignature⟩ := built 1
  obtain ⟨firstSame, _⟩ := rehearsal_foretells estimated counting alike_estimated_counting
    emptyCall _ 0 rehearsed first rehearsedBuilt firstBuilt
  obtain ⟨secondSame, named⟩ := rehearsal_foretells estimated counting alike_estimated_counting
    emptyCall _ 1 rehearsed second rehearsedBuilt secondBuilt
  obtain ⟨name, _⟩ := named namesByHash_counting
  obtain ⟨id, submitted⟩ : ∃ id, (counting.submit second 2).1 = .ok id := ⟨_, rfl⟩
  have differ : first.operation.signature ≠ second.operation.signature := by
    rw [firstSignature, secondSignature]
    decide
  exact ⟨alike_estimated_counting, rehearsed, first, second, rehearsedBuilt, firstBuilt,
    secondBuilt, differ, firstSame.hash, secondSame.hash, by rw [submitted, name 2 id submitted]⟩

end Pipeline

end Countersign
