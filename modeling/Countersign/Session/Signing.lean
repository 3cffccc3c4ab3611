import Countersign.Operation
import Countersign.Session.Chunked
import Countersign.Signature

/-!
The keys of a secure element, its classical keys, each named by a path, and the one seed for a
lattice key that it holds at a time; and signing with them: a hash with the classical key, a message
with the lattice key, and a hash or a whole operation with both keys after one confirmation.
-/

namespace Countersign.Session

variable {σ : Type}

/-- Accepts an uncompressed point: sixty-five bytes of which the first is its mark. -/
def checkPoint (key : Bytes) : Except Error Unit :=
  if key.length = 65 ∧ key.head? = some 0x04 then .ok ()
  else .error (.protocol (.publicKeyForm key.length))

/-- Reads the classical public key at a path. -/
def readClassicalKey (transport : Transport σ) (path : Path) : Task (Session σ) Bytes := do
  let key ← transmit transport .readClassicalKey 0 0 path.toPayload
  Task.ofExcept (checkPoint key)
  return key

/-- Reads the address of the classical key at a path. -/
def readAddress (transport : Transport σ) (path : Path) : Task (Session σ) Address := do
  let key ← readClassicalKey transport path
  Task.ofExcept (Address.ofPublicKey key)

/-- Makes the element derive the seed of a lattice key. The seed that it held is forgotten before
anything is sent. -/
def deriveSeed (transport : Transport σ) (path : Path) (algorithm : Algorithm) :
    Task (Session σ) Unit := do
  modify fun session => { session with derived := none }
  let _ ← transmit transport .deriveSeed 0 algorithm.deviceCode path.toPayload
  modify fun session => { session with derived := some (path, algorithm) }

/-- Derives a seed unless the element holds it. -/
def ensureSeed (transport : Transport σ) (path : Path) (algorithm : Algorithm) :
    Task (Session σ) Unit := do
  if (← get).derived = some (path, algorithm) then
    return ()
  else
    deriveSeed transport path algorithm

/-- Refuses to go on without a seed for a scheme, at whatever path. -/
def requireSeed (algorithm : Algorithm) : Task (Session σ) Unit := do
  if (← get).derived.map Prod.snd = some algorithm then
    return ()
  else
    Task.fail (.validation (.seedMissing algorithm))

/-- Makes the element generate the key pair of its seed, and reads the public key. -/
def generateKey (transport : Transport σ) (algorithm : Algorithm) : Task (Session σ) Bytes := do
  requireSeed algorithm
  let _ ← transmit transport .generateKey 0 algorithm.deviceCode []
  readAnswer transport .readPublicKey algorithm (.ofPublicKey algorithm)

/-- Reads a classical signature from a response and brings it to its low form. -/
def readClassicalSignature (response : Bytes) : Except Error Signature :=
  match Signature.ofDeviceBytes response with
  | .ok signature => signature.normalize
  | .error _ => .error (.protocol (.signatureForm response.length))

/-- A path and a hash to be signed. -/
def hashPayload (path : Path) (hash : Hash) : Bytes :=
  path.toPayload ++ hash.bytes

/-- Signs a hash with the classical key at a path. -/
def signHash (transport : Transport σ) (path : Path) (hash : Hash) :
    Task (Session σ) Signature := do
  let response ← transmit transport .signHash 0 0 (hashPayload path hash)
  Task.ofExcept (readClassicalSignature response)

/-- The most bytes of a message that one command carries. -/
def absorbLength : Nat := 250

/-- Sends a message piece by piece. -/
def absorb (transport : Transport σ) (algorithm : Algorithm) : List Bytes → Task (Session σ) Unit
  | [] => return ()
  | piece :: later => do
      let _ ← transmit transport .signMessage 1 algorithm.deviceCode piece
      absorb transport algorithm later

/-- Signs a message with the lattice key. The element is told that a message begins, is sent its
pieces, and is told its length; the signature is read then. -/
def signMessage (transport : Transport σ) (algorithm : Algorithm) (message : Bytes) :
    Task (Session σ) Bytes := do
  requireSeed algorithm
  if 65535 < message.length then
    Task.fail (.validation (.messageTooLong message.length))
  else
    let _ ← transmit transport .signMessage 0 algorithm.deviceCode []
    absorb transport algorithm (Bytes.pieces absorbLength message)
    let _ ← transmit transport .signMessage 2 algorithm.deviceCode
      (Bytes.ofNatBE 2 message.length)
    readAnswer transport .readSignature algorithm (.ofSignature algorithm message.length)

/-- Takes a response with the classical signature and reads the lattice signature, which is over a
hash. -/
def readBoth (transport : Transport σ) (algorithm : Algorithm) (response : Bytes) :
    Task (Session σ) (Signature × Bytes) := do
  let classical ← Task.ofExcept (readClassicalSignature response)
  let postQuantum ← readAnswer transport .readSignature algorithm (.ofSignature algorithm 32)
  return (classical, postQuantum)

/-- Signs a hash with both keys. The element cannot show what the hash stands for. -/
def hybridSign (transport : Transport σ) (path : Path) (algorithm : Algorithm) (hash : Hash) :
    Task (Session σ) (Signature × Bytes) := do
  ensureSeed transport path algorithm
  let response ← transmit transport .hybridSign 0 algorithm.deviceCode (hashPayload path hash)
  readBoth transport algorithm response

/-- What an operation is bound to, its sender and its nonce: 104 bytes. -/
def domainPayload (operation : Operation) (contract : Address) (chainId : UInt64) : Bytes :=
  Abi.wordBytes chainId.toNat ++ contract.bytes ++ operation.sender.bytes ++
    Abi.wordBytes operation.nonce.toNat

/-- The other words of an operation that are hashed: 192 bytes. -/
def fieldsPayload (operation : Operation) : Bytes :=
  (keccak256 operation.initCode).bytes ++ (keccak256 operation.callData).bytes ++
    operation.accountGasLimits.bytes ++ Abi.wordBytes operation.preVerificationGas.toNat ++
      operation.gasFees.bytes ++ (keccak256 operation.paymasterAndData).bytes

/-- The call of an operation for the element to show, if one command can carry it. -/
def callPayload (operation : Operation) : Bytes :=
  if operation.callData.length ≤ 255 then operation.callData else []

/-- Signs an operation with both keys. The element is sent everything that the hash is made from,
computes the hash itself, and shows what it signs. -/
def clearSign (transport : Transport σ) (path : Path) (algorithm : Algorithm)
    (operation : Operation) (contract : Address) (chainId : UInt64) :
    Task (Session σ) (Signature × Bytes) := do
  ensureSeed transport path algorithm
  let code := algorithm.deviceCode
  let _ ← transmit transport .clearSign 0 code path.toPayload
  let _ ← transmit transport .clearSign 1 code (domainPayload operation contract chainId)
  let _ ← transmit transport .clearSign 2 code (fieldsPayload operation)
  let response ← transmit transport .clearSign 3 code (callPayload operation)
  readBoth transport algorithm response

end Countersign.Session
