import Countersign.Lattice.MlDsa.Signing
import Countersign.Signer

/-!
Signers that keep their keys in memory.
-/

namespace Countersign

/-- A classical key that is held in memory, with its address. -/
structure SoftwareKey where
  scalar : Nat
  address : Address

namespace SoftwareKey

/-- The key whose scalar the bytes of a seed denote. -/
def ofSeed (seed : Seed) : Except Error SoftwareKey :=
  let scalar := seed.octets.toNat
  if Curve.isScalar scalar then
    .ok ⟨scalar, Address.ofPoint (Curve.Point.scale scalar Curve.Point.generator)⟩
  else
    .error (.seed .notAScalar)

/-- The scalars of a signature. The nonce is drawn from the digest as it is; the signature is made
over the digest modulo the order. -/
def scalars? (key : SoftwareKey) (digest : Hash) : Option Curve.Scalars :=
  (Curve.nonce? (Bytes.ofNatBE 32 key.scalar) digest.bytes).bind
    (Curve.Scalars.sign? key.scalar (digest.toNat % Curve.order))

def sign (key : SoftwareKey) (digest : Hash) : Except Error Signature :=
  (key.scalars? digest).elim (.error (.signing .degenerate)) fun scalars =>
    .ok (Signature.ofScalars scalars)

def toSigner {σ : Type} (key : SoftwareKey) : ClassicalSigner σ :=
  ⟨key.address, fun digest => Task.ofExcept (key.sign digest)⟩

def summary (key : SoftwareKey) : String :=
  "SoftwareClassicalSigner \x7b address: " ++ key.address.plain ++ ", .. \x7d"

end SoftwareKey

private def keySummary (name : String) (publicKey : Bytes) : String :=
  name ++ " \x7b public_key_len: " ++ toString publicKey.length ++ ", .. \x7d"

/-- An ML-DSA-44 key pair that is held in memory. -/
structure MlDsaKey where
  pair : Lattice.MlDsa.KeyPair

namespace MlDsaKey

def ofSeed (seed : Seed) : MlDsaKey :=
  ⟨Lattice.MlDsa.KeyPair.ofSeed seed.bytes⟩

def publicKey (key : MlDsaKey) : Bytes :=
  key.pair.publicKey

def sign (key : MlDsaKey) (message : Bytes) : Except Error Bytes :=
  match key.pair.sign? message with
  | some signature => .ok signature
  | none => .error (.signing .degenerate)

def toSigner {σ : Type} (key : MlDsaKey) : PostQuantumSigner σ :=
  ⟨.mlDsa44, key.publicKey, fun message => Task.ofExcept (key.sign message)⟩

def summary (key : MlDsaKey) : String :=
  keySummary "MlDsa44Signer" key.publicKey

end MlDsaKey

/-- A stored Falcon-512 key pair. -/
structure FalconKey where
  publicKey : Bytes
  secretKey : Bytes
deriving DecidableEq

namespace FalconKey

/-- Restores a key pair; only the lengths are looked at, that of the public key first. -/
def ofBytes (publicKey secretKey : Bytes) : Except Error FalconKey :=
  if publicKey.length ≠ Algorithm.falcon512.publicKeyLength then
    .error (.publicKey (.storedLength publicKey.length))
  else if secretKey.length ≠ 1281 then
    .error (.seed (.falconLength secretKey.length))
  else
    .ok ⟨publicKey, secretKey⟩

/-- The public key in the form that the verifying contract reads. -/
def encodedPublicKey (key : FalconKey) : Except Error Bytes :=
  Algorithm.falcon512.encodePublicKey key.publicKey

def summary (key : FalconKey) : String :=
  keySummary "Falcon512Signer" key.publicKey

end FalconKey

end Countersign
