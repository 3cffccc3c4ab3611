import Countersign.Config
import Countersign.Operation.Json
import Countersign.Signer

/-!
From a request to a signed operation on the chain: look up the nonce and the fees, have the gas
estimated with a stand-in for the signature, sign, send, and wait for the receipt. Of the lookups
none can stop the way; what they do not tell is replaced.
-/

namespace Countersign

/-- Whom a pipeline asks: for the nonce of a sender, for fees, for estimates, to send an operation,
and for receipts. Looking for a receipt is told the time, counted in milliseconds from the start of
the wait, and answers with how long it took as well. -/
structure Services (ω : Type) where
  nonce : Address → BitVec 192 → Attempt ω Word
  fees : Attempt ω Fees
  estimate : Operation → Address → Attempt ω GasLimits
  send : Operation → Address → Attempt ω Hash
  receipt : Hash → Nat → StateM ω (Except Error (Option Receipt) × Nat)

/-- A signer, the services that it works with, and the rules. -/
structure Pipeline (ω : Type) where
  signer : OperationSigner ω
  services : Services ω
  config : Config

/-- An operation with its signatures, the hash they are made over, and what the hash binds them
to. -/
structure SignedOperation where
  operation : Operation
  hash : Hash
  entryPoint : Address
  chainId : UInt64
deriving DecidableEq

namespace Pipeline

variable {ω : Type}

/-- The nonce of the first operation under a key. -/
def firstNonce (key : BitVec 192) : Word :=
  key.setWidth 256 <<< 64

def nonce (pipeline : Pipeline ω) (request : Request) : StateM ω Word :=
  (pipeline.services.nonce request.sender request.nonceKey).orUse (firstNonce request.nonceKey)

def fees (pipeline : Pipeline ω) : StateM ω Fees :=
  pipeline.services.fees.orUse pipeline.config.fees.toFees

/-- The limits for an operation: those of its estimate after the policy has raised them, or those
of the policy alone. -/
def limits (pipeline : Pipeline ω) (operation : Operation) : StateM ω GasLimits := do
  let policy := pipeline.config.gas
  let algorithm := pipeline.signer.algorithm
  match ← (pipeline.services.estimate operation pipeline.config.entryPoint).run with
  | .ok estimate => return policy.apply estimate algorithm
  | .error _ => return policy.fallback algorithm

/-- An operation with other limits. -/
def withLimits (operation : Operation) (limits : GasLimits) : Operation :=
  { operation with
    accountGasLimits :=
      packPair (BitVec.ofNat 128 limits.verification.toNat) (BitVec.ofNat 128 limits.call.toNat)
    preVerificationGas := BitVec.ofNat 256 limits.preVerification.toNat }

/-- The operation whose gas is estimated. It has the limits of the policy and a signature as long
as the real one will be. -/
def draft (pipeline : Pipeline ω) (request : Request) (nonce : Word) (fees : Fees) : Operation :=
  withLimits
    { Operation.blank with
      sender := request.sender
      nonce
      initCode := request.initCode
      callData := request.callData
      gasFees := packPair fees.priority fees.maximum
      paymasterAndData := request.paymasterAndData
      signature := pipeline.signer.dummy.encode }
    (pipeline.config.gas.fallback pipeline.signer.algorithm)

/-- Builds the operation of a request and signs it. Only the signer can make this fail. -/
def build (pipeline : Pipeline ω) (request : Request) : Attempt ω SignedOperation := do
  let nonce ← pipeline.nonce request
  let fees ← pipeline.fees
  let draft := pipeline.draft request nonce fees
  let limits ← pipeline.limits draft
  let unsigned := withLimits draft limits
  let contract := pipeline.config.entryPoint
  let chainId := pipeline.config.chainId
  let signature ← Attempt.ofSigning (pipeline.signer.sign unsigned contract chainId)
  let operation := { unsigned with signature := signature.encode }
  return ⟨operation, operation.hash contract chainId, contract, chainId⟩

/-- A failure to send: what is no refusal and no failure to reach the service counts as a refusal
in the words of the failure. -/
def submissionError : Error → Error
  | .submission text => .submission text
  | .rpc text => .rpc text
  | other => .submission other.message

/-- Sends a signed operation and returns the name under which its receipt will be found. -/
def submit (pipeline : Pipeline ω) (signed : SignedOperation) : Attempt ω Hash :=
  ExceptT.adapt submissionError (pipeline.services.send signed.operation signed.entryPoint)

/-- The longest time, in milliseconds, that the clock moves on at once: thirty years of 365 days,
beyond which the timer that a wait sleeps by cannot be set. It is a limit of that timer and not of
the wait, which is written as if every pause were kept. A longer pause ends after it, and of a
longer look it is all that counts. -/
def longestWait : Nat :=
  30 * 365 * 24 * 60 * 60 * 1000

/-- Looks for a receipt at a time and then, at most `rounds` times in all, after each interval. The
last look is at the deadline, never after it. Returns the outcome and the time. -/
def pollFrom (pipeline : Pipeline ω) (id : Hash) : Nat → Nat → StateM ω (Outcome × Nat)
  | 0, now => return (.pending id, now)
  | rounds + 1, start => do
      let (answer, duration) ← pipeline.services.receipt id start
      let now := start + min duration longestWait
      match answer with
      | .ok (some receipt) => return (.included receipt, now)
      | .ok none | .error _ =>
          let deadline := pipeline.config.poll.timeout.toNat
          if deadline ≤ now then
            return (.pending id, now)
          else
            let pause := min pipeline.config.poll.interval.toNat (deadline - now)
            pollFrom pipeline id rounds (now + min pause longestWait)

/-- The bound on the looks for a receipt. As a pause takes a millisecond at least, a wait never
comes to it; only with an interval of zero can it be met. -/
def pollRounds (poll : Poll) : Nat :=
  poll.timeout.toNat + (1 <<< 32)

/-- Waits for a receipt, for at most the time that is configured. -/
def poll (pipeline : Pipeline ω) (id : Hash) : StateM ω (Outcome × Nat) :=
  pipeline.pollFrom id (pollRounds pipeline.config.poll) 0

/-- The whole way from a request to the outcome and the time that the wait for it took. -/
def execute (pipeline : Pipeline ω) (request : Request) : Attempt ω (Outcome × Nat) := do
  let signed ← pipeline.build request
  let id ← pipeline.submit signed
  pipeline.poll id

end Pipeline

end Countersign
