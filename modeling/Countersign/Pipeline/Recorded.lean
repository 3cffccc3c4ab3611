import Countersign.Pipeline
import Countersign.Session.Recorded

/-!
A pipeline that writes down whom it asks for what, in order.
-/

namespace Countersign

/-- Something that a pipeline asked for. -/
inductive PipelineCall
  | nonce (sender : Address) (key : BitVec 192)
  | fees
  | estimate (operation : Operation) (entryPoint : Address)
  | sign (operation : Operation)
  | send (operation : Operation) (entryPoint : Address)
  | receipt (id : Hash) (time : Nat)
deriving DecidableEq

variable {ω : Type}

/-- The services with the calls to them written down. -/
def Services.recorded (services : Services ω) : Services (Recorded ω PipelineCall) where
  nonce sender key := Recorded.note (fun _ => .nonce sender key) (services.nonce sender key)
  fees := Recorded.note (fun _ => .fees) services.fees
  estimate operation entryPoint :=
    Recorded.note (fun _ => .estimate operation entryPoint) (services.estimate operation entryPoint)
  send operation entryPoint :=
    Recorded.note (fun _ => .send operation entryPoint) (services.send operation entryPoint)
  receipt id time := Recorded.note (fun _ => .receipt id time) (services.receipt id time)

/-- The signer with the calls to it written down. -/
def OperationSigner.recorded (signer : OperationSigner ω) :
    OperationSigner (Recorded ω PipelineCall) where
  algorithm := signer.algorithm
  sign operation contract chainId :=
    Recorded.note (fun _ => .sign operation) (signer.sign operation contract chainId)
  dummy := signer.dummy

/-- The pipeline with all its calls written down. -/
def Pipeline.recorded (pipeline : Pipeline ω) : Pipeline (Recorded ω PipelineCall) where
  signer := pipeline.signer.recorded
  services := pipeline.services.recorded
  config := pipeline.config

end Countersign
