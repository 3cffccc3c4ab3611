import Countersign.Lattice.Falcon.Compact
import Countersign.Lattice.MlDsa.Key

/-!
What depends on the scheme: the byte that selects it on a secure element, and public keys and
signatures in the form that the verifying contract reads.
-/

namespace Countersign.Algorithm

/-- The scheme that a secure element's byte selects; an unknown byte is refused. -/
def ofDeviceCode (code : UInt8) : Except Error Algorithm :=
  match ofDeviceCode? code with
  | some algorithm => .ok algorithm
  | none => .error (.validation (.unknownAlgorithm code))

/-- A public key for the contract. -/
def encodePublicKey (algorithm : Algorithm) (publicKey : Bytes) : Except Error Bytes :=
  match algorithm with
  | mlDsa44 =>
      (Lattice.MlDsa.ExpandedKey.ofPublicKey publicKey).map Lattice.MlDsa.ExpandedKey.encode
  | falcon512 =>
      if publicKey.length = falcon512.publicKeyLength then .ok publicKey
      else .error (.publicKey (.latticeLength falcon512 publicKey.length))

/-- What the signing primitive put out, as a signature for the contract. The length of the signed
message matters to Falcon-512 alone. -/
def finalizeSignature (algorithm : Algorithm) (raw : Bytes) (messageLength : UInt64) :
    Except Halt Bytes :=
  match algorithm with
  | mlDsa44 =>
      if raw.length = mlDsa44.signatureLength then .ok raw
      else .error (.failure (.protocol (.latticeLength raw.length)))
  | falcon512 => Lattice.Falcon.compact raw messageLength

end Countersign.Algorithm
