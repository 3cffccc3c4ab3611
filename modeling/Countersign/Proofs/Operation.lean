import Countersign.Operation
import Countersign.Proofs.Abi
import Mathlib.Data.List.Basic

/-!
The hash of an operation binds every field but the signature, the contract and the chain. Whoever
finds two requests of one hash that differ in any of these has found two strings of one digest,
and they are among the strings that were hashed for the two.
-/

namespace Countersign

theorem Abi.wordBytes_injective {left right : Nat} (leftFits : left < 256 ^ 32)
    (rightFits : right < 256 ^ 32) (same : wordBytes left = wordBytes right) : left = right := by
  have read := congrArg Bytes.toNatBE same
  simpa only [wordBytes, Bytes.toNatBE_ofNatBE, Nat.mod_eq_of_lt leftFits,
    Nat.mod_eq_of_lt rightFits] using read

theorem Abi.wordBytes_toNat_injective {left right : Word}
    (same : wordBytes left.toNat = wordBytes right.toNat) : left = right :=
  BitVec.eq_of_toNat_eq (wordBytes_injective left.isLt right.isLt same)

theorem Abi.wordBytes_chainId_injective {left right : UInt64}
    (same : wordBytes left.toNat = wordBytes right.toNat) : left = right := by
  have small : ∀ chainId : UInt64, chainId.toNat < 256 ^ 32 := fun chainId =>
    Nat.lt_trans chainId.toNat_lt (by decide)
  exact UInt64.toNat_inj.mp (wordBytes_injective (small left) (small right) same)

theorem ofNat_toNatBE_ofNatBE (half : BitVec 128) :
    BitVec.ofNat 128 (Bytes.toNatBE (Bytes.ofNatBE 16 half.toNat)) = half := by
  rw [Bytes.toNatBE_ofNatBE, Nat.mod_eq_of_lt (show half.toNat < 256 ^ 16 from half.isLt),
    BitVec.ofNat_toNat, BitVec.setWidth_eq]

@[simp]
theorem highHalf_packPair (high low : BitVec 128) : highHalf (packPair high low) = high := by
  have first : (packPair high low).bytes.take 16 = Bytes.ofNatBE 16 high.toNat :=
    List.take_left' (Bytes.length_ofNatBE 16 _)
  rw [highHalf, first, ofNat_toNatBE_ofNatBE]

@[simp]
theorem lowHalf_packPair (high low : BitVec 128) : lowHalf (packPair high low) = low := by
  have second : (packPair high low).bytes.drop 16 = Bytes.ofNatBE 16 low.toNat :=
    List.drop_left' (Bytes.length_ofNatBE 16 _)
  rw [lowHalf, second, ofNat_toNatBE_ofNatBE]

/-- Two different strings with one digest. -/
def Colliding (pair : Bytes × Bytes) : Prop :=
  pair.1 ≠ pair.2 ∧ keccak256 pair.1 = keccak256 pair.2

namespace Operation

section Preimages

variable (operation : Operation) (contract : Address) (chainId : UInt64)

/-- The eight words of the inner preimage. -/
def innerWords : List Bytes :=
  [Bytes.zeros 12 ++ operation.sender.bytes, Abi.wordBytes operation.nonce.toNat,
    (keccak256 operation.initCode).bytes, (keccak256 operation.callData).bytes,
    operation.accountGasLimits.bytes, Abi.wordBytes operation.preVerificationGas.toNat,
    operation.gasFees.bytes, (keccak256 operation.paymasterAndData).bytes]

/-- The three words of the outer preimage. -/
def outerWords : List Bytes :=
  [operation.innerHash.bytes, Bytes.zeros 12 ++ contract.bytes, Abi.wordBytes chainId.toNat]

theorem innerPreimage_eq_flatten : operation.innerPreimage = operation.innerWords.flatten :=
  Abi.sequence_inPlace operation.innerWords

theorem outerPreimage_eq_flatten :
    operation.outerPreimage contract chainId = (operation.outerWords contract chainId).flatten :=
  Abi.sequence_inPlace (operation.outerWords contract chainId)

theorem lengths_innerWords : operation.innerWords.map List.length = List.replicate 8 32 := by
  simp [innerWords, Abi.wordBytes, Octets.length_bytes, List.replicate]

theorem lengths_outerWords :
    (operation.outerWords contract chainId).map List.length = List.replicate 3 32 := by
  simp [outerWords, Abi.wordBytes, Octets.length_bytes, List.replicate]

theorem length_innerPreimage : operation.innerPreimage.length = 256 := by
  rw [innerPreimage_eq_flatten, List.length_flatten, lengths_innerWords]
  rfl

theorem length_outerPreimage : (operation.outerPreimage contract chainId).length = 96 := by
  rw [outerPreimage_eq_flatten, List.length_flatten, lengths_outerWords]
  rfl

end Preimages

variable {left right : Operation} {leftContract rightContract : Address}
  {leftChain rightChain : UInt64}

/-- Preimages consist of words of one length, so that they are equal word by word. -/
theorem innerWords_eq (same : left.innerPreimage = right.innerPreimage) :
    left.innerWords = right.innerWords := by
  rw [innerPreimage_eq_flatten, innerPreimage_eq_flatten] at same
  exact List.eq_iff_flatten_eq.mpr ⟨same, by rw [lengths_innerWords, lengths_innerWords]⟩

theorem outerWords_eq
    (same : left.outerPreimage leftContract leftChain =
      right.outerPreimage rightContract rightChain) :
    left.outerWords leftContract leftChain = right.outerWords rightContract rightChain := by
  rw [outerPreimage_eq_flatten, outerPreimage_eq_flatten] at same
  exact List.eq_iff_flatten_eq.mpr ⟨same, by rw [lengths_outerWords, lengths_outerWords]⟩

/-- Two operations agree in all that is signed: every field but the signature, the contract and
the chain. -/
structure Agree (left right : Operation) (leftContract rightContract : Address)
    (leftChain rightChain : UInt64) : Prop where
  sender_eq : left.sender = right.sender
  nonce_eq : left.nonce = right.nonce
  initCode_eq : left.initCode = right.initCode
  callData_eq : left.callData = right.callData
  accountGasLimits_eq : left.accountGasLimits = right.accountGasLimits
  preVerificationGas_eq : left.preVerificationGas = right.preVerificationGas
  gasFees_eq : left.gasFees = right.gasFees
  paymasterAndData_eq : left.paymasterAndData = right.paymasterAndData
  contract_eq : leftContract = rightContract
  chainId_eq : leftChain = rightChain

theorem Agree.hash_eq
    (agree : Agree left right leftContract rightContract leftChain rightChain) :
    left.hash leftContract leftChain = right.hash rightContract rightChain := by
  simp only [hash, outerPreimage, innerHash, innerPreimage, agree.sender_eq, agree.nonce_eq,
    agree.initCode_eq, agree.callData_eq, agree.accountGasLimits_eq, agree.preVerificationGas_eq,
    agree.gasFees_eq, agree.paymasterAndData_eq, agree.contract_eq, agree.chainId_eq]

theorem hash_of_signature (operation : Operation) (signature : Bytes) (contract : Address)
    (chainId : UInt64) :
    hash { operation with signature } contract chainId = operation.hash contract chainId :=
  Agree.hash_eq ⟨rfl, rfl, rfl, rfl, rfl, rfl, rfl, rfl, rfl, rfl⟩

/-- The strings that are hashed on the way to the hash that is signed. -/
def hashedStrings (operation : Operation) (contract : Address) (chainId : UInt64) : List Bytes :=
  [operation.initCode, operation.callData, operation.paymasterAndData, operation.innerPreimage,
    operation.outerPreimage contract chainId]

theorem agree_of_words
    (outer : left.outerWords leftContract leftChain = right.outerWords rightContract rightChain)
    (inner : left.innerWords = right.innerWords) (initCode : left.initCode = right.initCode)
    (callData : left.callData = right.callData)
    (paymasterAndData : left.paymasterAndData = right.paymasterAndData) :
    Agree left right leftContract rightContract leftChain rightChain := by
  simp only [outerWords, List.cons.injEq, List.append_cancel_left_eq, and_true] at outer
  simp only [innerWords, List.cons.injEq, List.append_cancel_left_eq, and_true] at inner
  obtain ⟨_, contract, chainId⟩ := outer
  obtain ⟨sender, nonce, _, _, accountGasLimits, preVerificationGas, gasFees, _⟩ := inner
  exact {
    sender_eq := Octets.ext sender
    nonce_eq := Abi.wordBytes_toNat_injective nonce
    initCode_eq := initCode
    callData_eq := callData
    accountGasLimits_eq := Octets.ext accountGasLimits
    preVerificationGas_eq := Abi.wordBytes_toNat_injective preVerificationGas
    gasFees_eq := Octets.ext gasFees
    paymasterAndData_eq := paymasterAndData
    contract_eq := Octets.ext contract
    chainId_eq := Abi.wordBytes_chainId_injective chainId }

/-- Where no two strings that are hashed alike differ, equal hashes are hashes of the same. -/
theorem agree_of_no_colliding
    (free : ∀ pair ∈ (left.hashedStrings leftContract leftChain).zip
      (right.hashedStrings rightContract rightChain), ¬ Colliding pair)
    (same : left.hash leftContract leftChain = right.hash rightContract rightChain) :
    Agree left right leftContract rightContract leftChain rightChain := by
  have equal : ∀ pair ∈ (left.hashedStrings leftContract leftChain).zip
      (right.hashedStrings rightContract rightChain),
      keccak256 pair.1 = keccak256 pair.2 → pair.1 = pair.2 := by
    intro pair member digest
    by_contra different
    exact free pair member ⟨different, digest⟩
  simp only [hashedStrings, List.zip_cons_cons, List.zip_nil_left, List.forall_mem_cons] at equal
  obtain ⟨initCodeEq, callDataEq, paymasterEq, innerEq, outerEq, _⟩ := equal
  -- From the outermost digest inwards: each gives its preimage, whose words are the next digests.
  have outer := outerWords_eq (outerEq same)
  have innerHash : left.innerHash = right.innerHash := Octets.ext (List.cons.inj outer).1
  have inner := innerWords_eq (innerEq innerHash)
  have digests := inner
  simp only [innerWords, List.cons.injEq, and_true] at digests
  obtain ⟨_, _, initDigest, callDigest, _, _, _, paymasterDigest⟩ := digests
  exact agree_of_words outer inner (initCodeEq (Octets.ext initDigest))
    (callDataEq (Octets.ext callDigest)) (paymasterEq (Octets.ext paymasterDigest))

/-- The signature has no part in the hash, and everything else is bound by it: requests of one hash
that differ elsewhere lead to two strings of one digest among those that were hashed for them. The
inner preimage consists of eight words and the outer one of three. -/
theorem hash_binds_all_but_signature (left right : Operation)
    (leftContract rightContract : Address) (leftChain rightChain : UInt64) :
    (Agree left right leftContract rightContract leftChain rightChain →
        left.hash leftContract leftChain = right.hash rightContract rightChain) ∧
      (left.hash leftContract leftChain = right.hash rightContract rightChain →
        ¬ Agree left right leftContract rightContract leftChain rightChain →
          ∃ pair ∈ (left.hashedStrings leftContract leftChain).zip
            (right.hashedStrings rightContract rightChain), Colliding pair) ∧
      left.innerPreimage =
        (Bytes.zeros 12 ++ left.sender.bytes) ++ Abi.wordBytes left.nonce.toNat ++
          (keccak256 left.initCode).bytes ++ (keccak256 left.callData).bytes ++
          left.accountGasLimits.bytes ++ Abi.wordBytes left.preVerificationGas.toNat ++
          left.gasFees.bytes ++ (keccak256 left.paymasterAndData).bytes ∧
      left.innerPreimage.length = 256 ∧
      left.outerPreimage leftContract leftChain =
        left.innerHash.bytes ++ (Bytes.zeros 12 ++ leftContract.bytes) ++
          Abi.wordBytes leftChain.toNat ∧
      (left.outerPreimage leftContract leftChain).length = 96 := by
  refine ⟨Agree.hash_eq, ?_, ?_, length_innerPreimage left, ?_,
    length_outerPreimage left leftContract leftChain⟩
  · intro same differ
    by_contra none
    have free : ∀ pair ∈ (left.hashedStrings leftContract leftChain).zip
        (right.hashedStrings rightContract rightChain), ¬ Colliding pair :=
      fun pair member collides => none ⟨pair, member, collides⟩
    exact differ (agree_of_no_colliding free same)
  · simp [innerPreimage_eq_flatten, innerWords]
  · simp [outerPreimage_eq_flatten, outerWords]

end Operation

end Countersign
