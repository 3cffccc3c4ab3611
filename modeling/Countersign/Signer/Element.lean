import Countersign.Session.Action
import Countersign.Signer

/-!
Signers whose keys are on a secure element. Each remembers the public side of its key; nothing that
the element signs is passed on unless it recovers to the remembered address.
-/

namespace Countersign.Element

variable {σ : Type}

/-- A classical key on the element, with its address. -/
structure ClassicalKey where
  path : Path
  address : Address
deriving DecidableEq

namespace ClassicalKey

/-- Looks up the key at a path. -/
def ofPath (transport : Transport σ) (path : Path) : Task (SharedSession σ) ClassicalKey := do
  let address ← SharedSession.locked (Session.readAddress transport path)
  return ⟨path, address⟩

def sign (transport : Transport σ) (key : ClassicalKey) (hash : Hash) :
    Task (SharedSession σ) Signature := do
  let signature ← SharedSession.locked (Session.signHash transport key.path hash)
  Task.ofExcept (Signature.ensureSigner hash signature key.address)
  return signature

def toSigner (transport : Transport σ) (key : ClassicalKey) :
    ClassicalSigner (SharedSession σ) :=
  ⟨key.address, key.sign transport⟩

end ClassicalKey

/-- The end of a task that halts or not by itself. -/
def finish (algorithm : Algorithm) (raw : Bytes) (messageLength : Nat) :
    Task (SharedSession σ) Bytes :=
  fun shared => (algorithm.finalizeSignature raw (UInt64.ofNat messageLength), shared)

/-- A lattice key on the element, with its public key. -/
structure LatticeKey where
  path : Path
  algorithm : Algorithm
  publicKey : Bytes
deriving DecidableEq

namespace LatticeKey

/-- Makes the key at a path and looks up its public key. -/
def ofPath (transport : Transport σ) (path : Path) (algorithm : Algorithm) :
    Task (SharedSession σ) LatticeKey := do
  let publicKey ← SharedSession.locked do
    Session.deriveSeed transport path algorithm
    Session.generateKey transport algorithm
  return ⟨path, algorithm, publicKey⟩

def sign (transport : Transport σ) (key : LatticeKey) (message : Bytes) :
    Task (SharedSession σ) Bytes := do
  let raw ← SharedSession.locked do
    Session.ensureSeed transport key.path key.algorithm
    Session.signMessage transport key.algorithm message
  finish key.algorithm raw message.length

def toSigner (transport : Transport σ) (key : LatticeKey) :
    PostQuantumSigner (SharedSession σ) :=
  ⟨key.algorithm, key.publicKey, key.sign transport⟩

end LatticeKey

/-- How the element is asked to sign an operation: by its hash alone, or by all its fields. -/
inductive SigningMode
  | hash
  | fields
deriving DecidableEq

/-- Both keys at a path, which sign together after one confirmation. -/
structure HybridKey where
  path : Path
  algorithm : Algorithm
  mode : SigningMode
  address : Address
  publicKey : Bytes
deriving DecidableEq

namespace HybridKey

/-- Looks up the address at a path, then makes the lattice key and looks up its public key. -/
def ofPath (transport : Transport σ) (path : Path) (algorithm : Algorithm) (mode : SigningMode) :
    Task (SharedSession σ) HybridKey := do
  let (address, publicKey) ← SharedSession.locked do
    let address ← Session.readAddress transport path
    Session.deriveSeed transport path algorithm
    let publicKey ← Session.generateKey transport algorithm
    return (address, publicKey)
  return ⟨path, algorithm, mode, address, publicKey⟩

/-- Signs an operation. A signature that does not recover to the key's address tells that the
element hashed something else. -/
def sign (transport : Transport σ) (key : HybridKey) (operation : Operation) (contract : Address)
    (chainId : UInt64) : Task (SharedSession σ) HybridSignature := do
  let hash := operation.hash contract chainId
  let (classical, raw) ← SharedSession.locked <|
    match key.mode with
    | .hash => Session.hybridSign transport key.path key.algorithm hash
    | .fields => Session.clearSign transport key.path key.algorithm operation contract chainId
  Task.ofExcept (Signature.ensureSigner hash classical key.address)
  let postQuantum ← finish key.algorithm raw hash.bytes.length
  return HybridSignature.make classical postQuantum

def toSigner (transport : Transport σ) (key : HybridKey) : OperationSigner (SharedSession σ) where
  algorithm := key.algorithm
  sign := key.sign transport

end HybridKey

end Countersign.Element
