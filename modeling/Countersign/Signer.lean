import Countersign.Algorithm.Checked
import Countersign.Operation
import Countersign.Signature

/-!
What a signer can do, wherever it keeps its keys. A signer may work on a state, such as a session
with a secure element, and may halt.
-/

namespace Countersign

/-- Makes classical signatures that recover to one address. -/
structure ClassicalSigner (σ : Type) where
  address : Address
  sign : Hash → Task σ Signature

/-- Makes post-quantum signatures in the form that the verifying contract reads. -/
structure PostQuantumSigner (σ : Type) where
  algorithm : Algorithm
  publicKey : Bytes
  sign : Bytes → Task σ Bytes

/-- Signs whole operations for a contract and a chain. A signer may have a stand-in of its own for
the signatures that it makes. -/
structure OperationSigner (σ : Type) where
  algorithm : Algorithm
  sign : Operation → Address → UInt64 → Task σ HybridSignature
  dummy : HybridSignature := HybridSignature.dummy algorithm

variable {σ : Type}

/-- The public key in the form that the verifying contract reads. -/
def PostQuantumSigner.encodedPublicKey (signer : PostQuantumSigner σ) : Except Error Bytes :=
  signer.algorithm.encodePublicKey signer.publicKey

/-- A signer as one that works on a part of a larger state. -/
def OperationSigner.focus {τ : Type} (get : τ → σ) (set : σ → τ → τ) (signer : OperationSigner σ) :
    OperationSigner τ where
  algorithm := signer.algorithm
  sign operation contract chainId := Task.focus get set (signer.sign operation contract chainId)
  dummy := signer.dummy

/-- A classical and a post-quantum signer side by side. -/
structure HybridSigner (σ : Type) where
  classical : ClassicalSigner σ
  postQuantum : PostQuantumSigner σ

namespace HybridSigner

/-- Signs the hash of an operation with both signers, the classical one first. -/
def sign (signer : HybridSigner σ) (operation : Operation) (contract : Address)
    (chainId : UInt64) : Task σ HybridSignature := do
  let hash := operation.hash contract chainId
  let classical ← signer.classical.sign hash
  let postQuantum ← signer.postQuantum.sign hash.bytes
  return HybridSignature.make classical postQuantum

def toOperationSigner (signer : HybridSigner σ) : OperationSigner σ where
  algorithm := signer.postQuantum.algorithm
  sign := signer.sign

def summary (signer : HybridSigner σ) : String :=
  "HybridSigner \x7b address: " ++ signer.classical.address.plain ++ ", algorithm: " ++
    signer.postQuantum.algorithm.label ++ ", .. \x7d"

end HybridSigner

end Countersign
