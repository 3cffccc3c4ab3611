import Countersign.Proofs.Abi
import Countersign.Proofs.Result
import Countersign.Signature

/-!
Signatures in bytes, what it means that a signature recovers to an account, and how long the
encoding of a pair of signatures is.
-/

namespace Countersign.Signature

theorem length_toBytes (signature : Signature) : signature.toBytes.length = 65 := by
  simp only [toBytes, List.length_append, Octets.length_bytes, List.length_singleton]

theorem chainRecovery_of_chain {byte : UInt8} (lifted : byte = 27 ∨ byte = 28) :
    chainRecovery byte = .ok byte := by
  rcases lifted with rfl | rfl <;> rfl

theorem chainRecovery_eq_ok {byte lifted : UInt8} (accepted : chainRecovery byte = .ok lifted) :
    lifted = 27 ∨ lifted = 28 := by
  rw [chainRecovery] at accepted
  split at accepted
  · rename_i bare
    cases accepted
    rcases bare with rfl | rfl <;> decide
  · split at accepted
    · rename_i already
      cases accepted
      exact already
    · cases accepted

theorem ofBytes_parts (r s : Octets 32) (v : UInt8) :
    ofBytes (r.bytes ++ s.bytes ++ [v]) = (chainRecovery v).map (mk r s) := by
  have first : (r.bytes ++ s.bytes ++ [v]).take 32 = r.bytes := by
    rw [List.append_assoc, List.take_left' r.length_bytes]
  have second : ((r.bytes ++ s.bytes ++ [v]).drop 32).take 32 = s.bytes := by
    rw [List.append_assoc, List.drop_left' r.length_bytes, List.take_left' s.length_bytes]
  have last : (r.bytes ++ s.bytes ++ [v]).drop 64 = [v] := by
    have both : (r.bytes ++ s.bytes).length = 64 := by
      rw [List.length_append, r.length_bytes, s.length_bytes]
    rw [List.drop_left' both]
  unfold ofBytes ofParts
  rw [first, second, last, Octets.ofBytes?_bytes, Octets.ofBytes?_bytes]

theorem ofDeviceBytes_parts (r s : Octets 32) (v : UInt8) :
    ofDeviceBytes (v :: r.bytes ++ s.bytes) = (chainRecovery v).map (mk r s) := by
  have first : ((v :: r.bytes ++ s.bytes).drop 1).take 32 = r.bytes :=
    List.take_left' r.length_bytes
  have second : (v :: r.bytes ++ s.bytes).drop 33 = s.bytes := by
    have marked : (v :: r.bytes).length = 33 := by
      rw [List.length_cons, r.length_bytes]
    exact List.drop_left' marked
  unfold ofDeviceBytes ofParts
  rw [first, second, Octets.ofBytes?_bytes, Octets.ofBytes?_bytes]
  rfl

theorem ofBytes_toBytes {signature : Signature} (lifted : signature.v = 27 ∨ signature.v = 28) :
    ofBytes signature.toBytes = .ok signature := by
  rw [toBytes, ofBytes_parts, chainRecovery_of_chain lifted]
  rfl

/-- A signature over a digest by an account, in the one form that counts. -/
structure Genuine (digest : Hash) (address : Address) (signature : Signature) : Prop where
  recovery : signature.v = 27 ∨ signature.v = 28
  low : signature.s.toNat ≤ (Curve.order - 1) / 2
  recovers : recoverAddress digest signature = .ok address

theorem checkRecovery_eq_ok {signature : Signature} {number : UInt8}
    (found : signature.checkRecovery = .ok number) : signature.v = 27 ∨ signature.v = 28 := by
  by_contra other
  have missing : signature.recoveryNumber? = none := if_neg other
  rw [checkRecovery, missing] at found
  cases found

theorem low_of_not_isHigh {value : Nat} (notHigh : Curve.isHigh value = false) :
    value ≤ (Curve.order - 1) / 2 := by
  have half : Curve.order / 2 = (Curve.order - 1) / 2 := by decide
  unfold Curve.isHigh at notHigh
  have bounded := of_decide_eq_false notHigh
  omega

/-- A key is recovered only from a signature with a recovery byte of the chain and a low second
scalar. -/
theorem recoverKey_eq_ok {digest : Hash} {signature : Signature} {key : Curve.Point}
    (found : recoverKey digest signature = .ok key) :
    (signature.v = 27 ∨ signature.v = 28) ∧ Curve.isHigh signature.s.toNat = false := by
  unfold recoverKey at found
  obtain ⟨_, _, afterScalars⟩ := Result.bind_eq_ok found
  obtain ⟨number, recovery, afterRecovery⟩ := Result.bind_eq_ok afterScalars
  obtain ⟨notHigh, _⟩ := Result.guard_eq_ok afterRecovery
  exact ⟨checkRecovery_eq_ok recovery, by simpa using notHigh⟩

/-- A signature that passes for one by an account is one. -/
theorem genuine_of_ensureSigner {digest : Hash} {signature : Signature} {expected : Address}
    {done : Unit} (passed : ensureSigner digest signature expected = .ok done) :
    Genuine digest expected signature := by
  obtain ⟨recovered, recovers, compared⟩ := Result.bind_eq_ok passed
  obtain ⟨key, found, _⟩ := Result.map_eq_ok recovers
  obtain ⟨recovery, notHigh⟩ := recoverKey_eq_ok found
  have same : recovered = expected := by
    by_contra other
    rw [if_pos other] at compared
    cases compared
  rw [same] at recovers
  exact ⟨recovery, low_of_not_isHigh notHigh, recovers⟩

end Countersign.Signature

namespace Countersign

namespace HybridSignature

theorem encode_eq (signature : HybridSignature) :
    signature.encode =
      Abi.wordBytes 64 ++ Abi.wordBytes (64 + (Abi.byteString signature.classical).length) ++
        (Abi.byteString signature.classical ++ Abi.byteString signature.postQuantum) := by
  have places : signature.encode =
      (Abi.wordBytes 64 ++ (Abi.wordBytes (64 + (Abi.byteString signature.classical).length) ++
        [])) ++ (Abi.byteString signature.classical ++ (Abi.byteString signature.postQuantum ++ [])) :=
    rfl
  rw [places, List.append_nil, List.append_nil]

/-- Two places, and for each component its length and the words that it fills. -/
theorem length_encode (signature : HybridSignature) :
    signature.encode.length =
      128 + 32 * ((signature.classical.length + 31) / 32) +
        32 * ((signature.postQuantum.length + 31) / 32) := by
  rw [encode_eq]
  simp only [List.length_append, Abi.wordBytes, Bytes.length_ofNatBE, Abi.length_byteString]
  omega

/-- A signature of the lengths of the stand-in is as long when encoded. -/
theorem length_encode_eq_dummy {signature : HybridSignature} {algorithm : Algorithm}
    (classical : signature.classical.length = 65)
    (postQuantum : signature.postQuantum.length = algorithm.signatureLength) :
    signature.encode.length = (dummy algorithm).encode.length := by
  rw [length_encode, length_encode, classical, postQuantum]
  simp only [dummy, List.length_replicate]

/-- Both components are short enough to be kept in a memory of 64-bit addresses. -/
structure Storable (signature : HybridSignature) : Prop where
  classical : signature.classical.length < 2 ^ 63
  postQuantum : signature.postQuantum.length < 2 ^ 63

theorem decode_encode {signature : HybridSignature} (storable : signature.Storable) :
    decode signature.encode = .ok signature := by
  obtain ⟨shortClassical, shortPostQuantum⟩ := storable
  have near : (64 : Nat) < UInt64.size := by decide
  have far : 64 + (Abi.byteString signature.classical).length < UInt64.size := by
    rw [Abi.length_byteString, UInt64.size]
    omega
  have encoded : signature.encode = [] ++ (Abi.wordBytes 64 ++
      (Abi.wordBytes (64 + (Abi.byteString signature.classical).length) ++
        (Abi.byteString signature.classical ++ (Abi.byteString signature.postQuantum ++ [])))) := by
    rw [encode_eq, List.append_nil, List.append_assoc]
    rfl
  have classicalPlace : Abi.readSize? signature.encode (32 * 0) = some 64 :=
    Abi.readSize?_of_split near encoded rfl
  rw [← List.append_assoc] at encoded
  have postQuantumPlace : Abi.readSize? signature.encode (32 * 1) =
      some (64 + (Abi.byteString signature.classical).length) :=
    Abi.readSize?_of_split far encoded (by simp [Abi.wordBytes])
  rw [← List.append_assoc] at encoded
  have classical : Abi.readBytes? signature.encode 64 = some signature.classical :=
    Abi.readBytes?_of_split (by rw [UInt64.size]; omega) encoded (by simp [Abi.wordBytes])
  rw [← List.append_assoc] at encoded
  have postQuantum : Abi.readBytes? signature.encode
      (64 + (Abi.byteString signature.classical).length) = some signature.postQuantum :=
    Abi.readBytes?_of_split (by rw [UInt64.size]; omega) encoded (by simp [Abi.wordBytes]; omega)
  simp only [decode, Abi.readBytesMember?, classicalPlace, postQuantumPlace, classical, postQuantum]

end HybridSignature

end Countersign
