import Countersign.Algorithm
import Countersign.Hex
import Countersign.Text

/-!
Everything that can be reported to a caller: what can be wrong, family by family, and how each cause
and each kind of failure is worded. A cause that another party has put into words of its own is
`stated`.
-/

namespace Countersign

/-- Why an argument is refused before anything is done with it. -/
inductive Refusal
  | payloadTooLong (length : Nat)
  | messageTooLong (length : Nat)
  | seedMissing (algorithm : Algorithm)
  | unknownAlgorithm (code : UInt8)
  | coefficientWidth (width : Nat)
  | coefficientCount (count width : Nat)
  | coefficientRange (coefficient index width : Nat)
  | zeroChainId
  | multiplierBelowHundred
  | priorityFeeAboveMaximum
  | zeroPollInterval
  | stated (text : String)
deriving DecidableEq

def Refusal.text : Refusal → String
  | payloadTooLong length => s!"APDU payload of {length} bytes exceeds 255"
  | messageTooLong length => s!"message of {length} bytes is too long"
  | seedMissing algorithm => "no " ++ algorithm.name ++ " seed derived in this session"
  | unknownAlgorithm code => "unknown post-quantum algorithm code 0x" ++ Hex.text [code]
  | coefficientWidth width => s!"coefficient width {width} must divide 256 and be at most 32"
  | coefficientCount count width => s!"{count} coefficients do not fill whole {width}-bit words"
  | coefficientRange coefficient index width =>
      s!"coefficient {coefficient} at index {index} exceeds {width} bits"
  | zeroChainId => "chainId must be non-zero"
  | multiplierBelowHundred => "preVerificationGasMultiplierPercent must be at least 100"
  | priorityFeeAboveMaximum => "maxPriorityFeePerGas exceeds maxFeePerGas"
  | zeroPollInterval => "poll intervalMs must be non-zero"
  | stated text => text

def Hex.Fault.text : Hex.Fault → String
  | oddLength digits => s!"odd number of hex digits ({digits})"
  | badDigit byte index =>
      "Invalid character " ++ Text.quotedByte byte ++ s!" at position {index}"
  | stated text => text

/-- Why a seed makes no key. -/
inductive SeedFault
  | notAScalar
  | falconLength (length : Nat)
  | stated (text : String)
deriving DecidableEq

def SeedFault.text : SeedFault → String
  | notAScalar => "seed is not a valid secp256k1 scalar"
  | falconLength length =>
      s!"Falcon-512 secret key: error: SecretKey expected 1281 bytes, got {length}"
  | stated text => text

/-- Why something is no derivation path. -/
inductive PathFault
  | tooDeep (components : Nat)
  | emptyPayload
  | truncatedPayload (declared available : Nat)
  | rootMissing (text : String)
  | invalidComponent (component text : String)
  | outOfRange (index : Nat)
  | stated (text : String)
deriving DecidableEq

def PathFault.text : PathFault → String
  | tooDeep components => s!"{components} components exceed the maximum depth of 10"
  | emptyPayload => "empty payload"
  | truncatedPayload declared available =>
      s!"payload declares {declared} components but has {available} bytes"
  | rootMissing text => "path must start with 'm/': " ++ text
  | invalidComponent component text => "invalid component '" ++ component ++ "' in " ++ text
  | outOfRange index => s!"component {index} out of range"
  | stated text => text

/-- Why something is no public key. -/
inductive PublicKeyFault
  | pointLength (length : Nat)
  | pointMark
  | latticeLength (algorithm : Algorithm) (length : Nat)
  | storedLength (length : Nat)
  | stated (text : String)
deriving DecidableEq

def PublicKeyFault.text : PublicKeyFault → String
  | pointLength length => s!"expected 64 or 65 bytes, got {length}"
  | pointMark => "65-byte public key must start with 0x04"
  | latticeLength algorithm length =>
      algorithm.name ++ " public key must be " ++ toString algorithm.publicKeyLength ++
        s!" bytes, got {length}"
  | storedLength length => s!"error: PublicKey expected 897 bytes, got {length}"
  | stated text => text

/-- Why something is no classical signature. -/
inductive SignatureFault
  | wrongLength (length : Nat)
  | recoveryByte (byte : UInt8)
  | scalars
  | recoveryMissing
  | stated (text : String)
deriving DecidableEq

def SignatureFault.text : SignatureFault → String
  | wrongLength length => s!"expected 65 bytes, got {length}"
  | recoveryByte byte => "invalid recovery byte " ++ toString byte.toNat
  | scalars => "invalid signature scalars"
  | recoveryMissing => "invalid recovery byte"
  | stated text => text

/-- Why a channel to the secure element cannot be used. -/
inductive ChannelFault
  | closed
  | poisoned
  | stated (text : String)
deriving DecidableEq

def ChannelFault.text : ChannelFault → String
  | closed => "session is closed"
  | poisoned => "device session lock poisoned"
  | stated text => text

/-- What makes a compressed polynomial unreadable. -/
inductive CompressionFault
  | truncated
  | outOfRange
  | negativeZero
  | trailingBits
  | padding
deriving DecidableEq

def CompressionFault.text : CompressionFault → String
  | truncated => "truncated"
  | outOfRange => "coefficient out of range"
  | negativeZero => "negative zero"
  | trailingBits => "non-zero trailing bits"
  | padding => "non-zero padding"

/-- How an answer breaks the rules of the exchange. -/
inductive Violation
  | commandTooShort (length : Nat)
  | commandLength (declared found : Nat)
  | statusMissing (length : Nat)
  | publicKeyForm (length : Nat)
  | signatureForm (length : Nat)
  | lengthHeaderMissing
  | unreadableLength (total : Nat)
  | chunkIndex (index : Nat)
  | chunkLength (index found expected : Nat)
  | otherSigner (recovered expected : Address)
  | latticeLength (length : Nat)
  | signedMessageTooShort (length messageLength : Nat)
  | declaredLength (declared found : Nat)
  | falconHeader (byte : UInt8)
  | compression (fault : CompressionFault)
  | stated (text : String)
deriving DecidableEq

def Violation.text : Violation → String
  | commandTooShort length => s!"APDU of {length} bytes is shorter than its header"
  | commandLength declared found => s!"Lc says {declared} bytes, found {found}"
  | statusMissing length => s!"response of {length} bytes has no status word"
  | publicKeyForm length => s!"expected a 65-byte uncompressed public key, got {length} bytes"
  | signatureForm length =>
      s!"expected a 65-byte v || r || s signature, got {length} bytes"
  | lengthHeaderMissing => "first signature chunk lacks a length header"
  | unreadableLength total => s!"unreadable response length {total}"
  | chunkIndex index => s!"chunk index {index} out of range"
  | chunkLength index found expected =>
      s!"chunk {index} has {found} bytes, expected {expected}"
  | otherSigner recovered expected =>
      "signature recovers to " ++ recovered.checksummed ++ ", expected " ++ expected.checksummed
  | latticeLength length => s!"ML-DSA-44 signature must be 2420 bytes, got {length}"
  | signedMessageTooShort length messageLength =>
      s!"signed message of {length} bytes too short for a {messageLength}-byte message"
  | declaredLength declared found =>
      s!"signature length header says {declared} bytes, found {found}"
  | falconHeader byte => "bad Falcon signature header 0x" ++ Hex.text [byte]
  | compression fault => "malformed Falcon signature: " ++ fault.text
  | stated text => text

/-- Why no signature was made. -/
inductive SigningFault
  | degenerate
  | crashed
  | stated (text : String)
deriving DecidableEq

def SigningFault.text : SigningFault → String
  | degenerate => "signature error"
  | crashed => "signing task failed"
  | stated text => text

/-- Why a document or an encoding cannot be read. -/
inductive ReadingFault
  | malformed
  | stated (text : String)
deriving DecidableEq

def ReadingFault.text : ReadingFault → String
  | malformed => "malformed"
  | stated text => text

/-- A failure: its kind and its cause. -/
inductive Error
  | validation (refusal : Refusal)
  | hexDecode (fault : Hex.Fault)
  | length (expected actual : Nat)
  | seed (fault : SeedFault)
  | path (fault : PathFault)
  | publicKey (fault : PublicKeyFault)
  | signature (fault : SignatureFault)
  | abiDecode (fault : ReadingFault)
  | deviceNotFound
  | connection (text : String)
  | channel (fault : ChannelFault)
  | status (word : UInt16)
  | protocol (violation : Violation)
  | signing (fault : SigningFault)
  | recovery
  | estimation (text : String)
  | submission (text : String)
  | rpc (text : String)
  | json (fault : ReadingFault)
deriving DecidableEq

namespace Error

/-- The report in words. -/
def message : Error → String
  | validation refusal => "validation failed: " ++ refusal.text
  | hexDecode fault => "hex decoding failed: " ++ fault.text
  | length expected actual => s!"invalid length: expected {expected} bytes, got {actual}"
  | seed fault => "invalid seed: " ++ fault.text
  | path fault => "invalid derivation path: " ++ fault.text
  | publicKey fault => "invalid public key: " ++ fault.text
  | signature fault => "invalid signature: " ++ fault.text
  | abiDecode fault => "ABI decoding failed: " ++ fault.text
  | deviceNotFound => "no secure element found"
  | connection text => "failed to connect to secure element: " ++ text
  | channel fault => "device channel failed: " ++ fault.text
  | status word => "device returned status word 0x" ++ Hex.text (Bytes.ofNatBE 2 word.toNat)
  | protocol violation => "protocol violation: " ++ violation.text
  | signing fault => "signing failed: " ++ fault.text
  | recovery => "failed to recover signer from signature"
  | estimation text => "gas estimation failed: " ++ text
  | submission text => "operation submission failed: " ++ text
  | rpc text => "RPC call failed: " ++ text
  | json fault => "JSON error: " ++ fault.text

/-- The status word by which a secure element reports that its user declined. -/
def userRejected : UInt16 := 0x6985

/-- The user declined on the device, so asking again is better than retrying. -/
def isUserRejection : Error → Bool
  | status word => word = userRejected
  | _ => false

/-- The failure was raised on an argument, before any cryptography ran. -/
def isValidation : Error → Bool
  | validation _ | hexDecode _ | length _ _ | seed _ | path _ | publicKey _ | signature _
  | abiDecode _ => true
  | _ => false

end Error

end Countersign
