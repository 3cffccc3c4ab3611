import Countersign.Abi
import Countersign.Digest.Sponge

/-!
User operations and the hash that both signatures of an operation are made over, and what a caller
wants an account to do, with the call that makes the account do it.
-/

namespace Countersign

/-- A request to a smart account in its packed form. -/
structure Operation where
  sender : Address
  nonce : Word
  initCode : Bytes
  callData : Bytes
  accountGasLimits : Octets 32
  preVerificationGas : Word
  gasFees : Octets 32
  paymasterAndData : Bytes
  signature : Bytes
deriving DecidableEq

/-- Two numbers of 128 bits in one word, the high one first. -/
def packPair (high low : BitVec 128) : Octets 32 :=
  ⟨Bytes.ofNatBE 16 high.toNat ++ Bytes.ofNatBE 16 low.toNat, by simp⟩

/-- The high half of a word. -/
def highHalf (word : Octets 32) : BitVec 128 :=
  BitVec.ofNat 128 (Bytes.toNatBE (word.bytes.take 16))

/-- The low half of a word. -/
def lowHalf (word : Octets 32) : BitVec 128 :=
  BitVec.ofNat 128 (Bytes.toNatBE (word.bytes.drop 16))

namespace Operation

/-- An operation whose every field is zero or empty. -/
def blank : Operation :=
  ⟨Octets.zero 20, 0, [], [], Octets.zero 32, 0, Octets.zero 32, [], []⟩

def verificationGasLimit (operation : Operation) : BitVec 128 :=
  highHalf operation.accountGasLimits

def callGasLimit (operation : Operation) : BitVec 128 :=
  lowHalf operation.accountGasLimits

def maxPriorityFeePerGas (operation : Operation) : BitVec 128 :=
  highHalf operation.gasFees

def maxFeePerGas (operation : Operation) : BitVec 128 :=
  lowHalf operation.gasFees

/-- The eight words of the operation that are hashed. A field of varying size counts by its
digest, and the signature does not count. -/
def innerPreimage (operation : Operation) : Bytes :=
  Abi.sequence
    [Abi.addressMember operation.sender,
      Abi.member .word operation.nonce,
      .inPlace (keccak256 operation.initCode).bytes,
      .inPlace (keccak256 operation.callData).bytes,
      .inPlace operation.accountGasLimits.bytes,
      Abi.member .word operation.preVerificationGas,
      .inPlace operation.gasFees.bytes,
      .inPlace (keccak256 operation.paymasterAndData).bytes]

/-- The digest of the operation's fields alone. -/
def innerHash (operation : Operation) : Hash :=
  keccak256 operation.innerPreimage

/-- The three words that bind an operation to a contract and a chain. -/
def outerPreimage (operation : Operation) (contract : Address) (chainId : UInt64) : Bytes :=
  Abi.sequence
    [.inPlace operation.innerHash.bytes, Abi.addressMember contract,
      .inPlace (Abi.wordBytes chainId.toNat)]

/-- The hash that is signed. -/
def hash (operation : Operation) (contract : Address) (chainId : UInt64) : Hash :=
  keccak256 (operation.outerPreimage contract chainId)

end Operation

/-- A call to a target with a value, from a sender, with what else the operation needs. -/
structure Request where
  sender : Address
  target : Address
  value : Word
  data : Bytes
  initCode : Bytes
  paymasterAndData : Bytes
  nonceKey : BitVec 192
deriving DecidableEq

namespace Request

/-- The first bytes of a call to `execute(address,uint256,bytes)`. -/
def executeSelector : Bytes := [0xB6, 0x1D, 0x27, 0xF6]

/-- The account's call: the selector and its three arguments. -/
def callData (request : Request) : Bytes :=
  executeSelector ++ Abi.sequence
    [Abi.addressMember request.target, Abi.member .word request.value,
      Abi.member .bytes request.data]

end Request

end Countersign
