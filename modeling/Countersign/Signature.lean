import Countersign.Abi
import Countersign.Curve.Ecdsa
import Countersign.Hex.Checked

/-!
Classical signatures with a recovery byte, in the two byte orders in use, `r ‖ s ‖ v` on the chain
and `v ‖ r ‖ s` from secure elements, and which account signed. A signature is brought to its low
form first, because recovery refuses the high one: so of the two signatures that a key can give for
one nonce, one alone counts. With the post-quantum signature they travel as a pair.
-/

namespace Countersign.Address

/-- The address of a key given by its sixty-four bytes of coordinates. -/
def ofCoordinates (coordinates : Bytes) : Address :=
  Octets.take 20 ((keccak256 coordinates).bytes.drop 12)

/-- The address of a key in bytes, with or without the mark of an uncompressed point. -/
def ofPublicKey (bytes : Bytes) : Except Error Address :=
  match bytes with
  | mark :: coordinates =>
      if bytes.length = 64 then .ok (ofCoordinates bytes)
      else if bytes.length = 65 then
        if mark = 0x04 then .ok (ofCoordinates coordinates) else .error (.publicKey .pointMark)
      else .error (.publicKey (.pointLength bytes.length))
  | [] => .error (.publicKey (.pointLength 0))

/-- The address of a point. -/
def ofPoint (point : Curve.Point) : Address :=
  ofCoordinates (point.toBytes.drop 1)

end Countersign.Address

namespace Countersign

/-- Two scalars of thirty-two bytes and a recovery byte. -/
structure Signature where
  r : Octets 32
  s : Octets 32
  v : UInt8
deriving DecidableEq

namespace Signature

/-- The recovery byte as the chain wants it: a bare recovery number is lifted by 27. -/
def chainRecovery (byte : UInt8) : Except Error UInt8 :=
  if byte = 0 ∨ byte = 1 then .ok (byte + 27)
  else if byte = 27 ∨ byte = 28 then .ok byte
  else .error (.signature (.recoveryByte byte))

/-- The recovery number, which only the recovery bytes 27 and 28 have. -/
def recoveryNumber? (signature : Signature) : Option UInt8 :=
  if signature.v = 27 ∨ signature.v = 28 then some (signature.v - 27) else none

/-- The sixty-five bytes `r ‖ s ‖ v`. -/
def toBytes (signature : Signature) : Bytes :=
  signature.r.bytes ++ signature.s.bytes ++ [signature.v]

/-- The sixty-five bytes in hexadecimal. -/
def toHex (signature : Signature) : String :=
  Hex.encode signature.toBytes

/-- A signature from the bytes of its parts, `length` many in all. -/
def ofParts (length : Nat) (r s : Bytes) (recovery : Bytes) : Except Error Signature :=
  match Octets.ofBytes? 32 r, Octets.ofBytes? 32 s, recovery with
  | some r, some s, [byte] => (chainRecovery byte).map (Signature.mk r s)
  | _, _, _ => .error (.signature (.wrongLength length))

/-- Reads `r ‖ s ‖ v`. -/
def ofBytes (bytes : Bytes) : Except Error Signature :=
  ofParts bytes.length (bytes.take 32) ((bytes.drop 32).take 32) (bytes.drop 64)

/-- Reads `v ‖ r ‖ s`. -/
def ofDeviceBytes (bytes : Bytes) : Except Error Signature :=
  ofParts bytes.length ((bytes.drop 1).take 32) (bytes.drop 33) (bytes.take 1)

/-- Reads the hexadecimal form of `r ‖ s ‖ v`. -/
def ofHex (text : String) : Except Error Signature := do
  ofBytes (← Hex.read text (some 65))

/-- The signature that two scalars and a recovery number make. -/
def ofScalars (scalars : Curve.Scalars) : Signature :=
  ⟨Octets.ofNat 32 scalars.r, Octets.ofNat 32 scalars.s, UInt8.ofNat (27 + scalars.recovery)⟩

/-- Both components are scalars. -/
def checkScalars (signature : Signature) : Except Error Unit :=
  if Curve.isScalar signature.r.toNat && Curve.isScalar signature.s.toNat then .ok ()
  else .error (.signature .scalars)

/-- The recovery number of a signature that has one. -/
def checkRecovery (signature : Signature) : Except Error UInt8 :=
  match signature.recoveryNumber? with
  | some number => .ok number
  | none => .error (.signature .recoveryMissing)

/-- The low form: a high second scalar is negated and the recovery byte changed with it. -/
def normalize (signature : Signature) : Except Error Signature := do
  signature.checkScalars
  let recovery ← signature.checkRecovery
  if Curve.isHigh signature.s.toNat then
    return ⟨signature.r, Octets.ofNat 32 (Curve.order - signature.s.toNat), (recovery ^^^ 1) + 27⟩
  else
    return signature

/-- The key that signed a digest. The key that is found satisfies the verification equation by its
construction, so that of verification only the demand for a low second scalar remains. -/
def recoverKey (digest : Hash) (signature : Signature) : Except Error Curve.Point := do
  signature.checkScalars
  let recovery ← signature.checkRecovery
  if Curve.isHigh signature.s.toNat then
    throw .recovery
  match Curve.recover? (digest.toNat % Curve.order) signature.r.toNat signature.s.toNat
      (recovery = 1) with
  | some key => return key
  | none => throw .recovery

/-- The account that signed a digest. -/
def recoverAddress (digest : Hash) (signature : Signature) : Except Error Address :=
  (recoverKey digest signature).map Address.ofPoint

/-- Refuses a signature over a digest by any account but the expected one. -/
def ensureSigner (digest : Hash) (signature : Signature) (expected : Address) :
    Except Error Unit := do
  let recovered ← recoverAddress digest signature
  if recovered ≠ expected then
    throw (.protocol (.otherSigner recovered expected))

end Signature

/-- A classical and a post-quantum signature over the same hash, both in bytes. -/
structure HybridSignature where
  classical : Bytes
  postQuantum : Bytes
deriving DecidableEq

namespace HybridSignature

def make (classical : Signature) (postQuantum : Bytes) : HybridSignature :=
  ⟨classical.toBytes, postQuantum⟩

/-- A stand-in with the lengths of a real signature and every byte `0xFF`. -/
def dummy (algorithm : Algorithm) : HybridSignature :=
  ⟨List.replicate 65 0xFF, List.replicate algorithm.signatureLength 0xFF⟩

/-- The encoding of the pair of byte strings. -/
def encode (signature : HybridSignature) : Bytes :=
  Abi.sequence
    [Abi.member .bytes signature.classical, Abi.member .bytes signature.postQuantum]

/-- Reads a pair of byte strings. They may lie anywhere in the data, and what lies around them is
not looked at. -/
def decode (data : Bytes) : Except Error HybridSignature :=
  match Abi.readBytesMember? data 0, Abi.readBytesMember? data 1 with
  | some classical, some postQuantum => .ok ⟨classical, postQuantum⟩
  | _, _ => .error (.abiDecode .malformed)

end HybridSignature

end Countersign
