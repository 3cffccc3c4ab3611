import Countersign.Proofs.Lattice.OnChain
import Countersign.Proofs.Session.Exchange
import Countersign.Proofs.Signature
import Countersign.Signer.Element

/-!
Whatever answers on the channel: what a signer passes on is a signature by its own account over the
hash that was asked for, and has the length that was promised for it.
-/

namespace Countersign.Element

variable {σ : Type}

theorem ClassicalKey.sign_eq_ok {transport : Transport σ} {key : ClassicalKey} {hash : Hash}
    {shared : SharedSession σ} {signature : Signature}
    (signed : (key.sign transport hash shared).1 = .ok signature) :
    signature.Genuine hash key.address := by
  obtain ⟨found, afterSigning, _, checked⟩ := Task.bind_eq_ok signed
  obtain ⟨_, _, passed, returned⟩ := Task.bind_eq_ok checked
  cases returned
  exact Signature.genuine_of_ensureSigner (Task.ofExcept_eq_ok passed)

/-- What a hybrid key passes on has been made of a genuine signature and a finished one. -/
theorem HybridKey.sign_eq_ok {transport : Transport σ} {key : HybridKey} {operation : Operation}
    {contract : Address} {chainId : UInt64} {shared : SharedSession σ} {signed : HybridSignature}
    (done : (key.sign transport operation contract chainId shared).1 = .ok signed) :
    ∃ classical raw postQuantum,
      signed = HybridSignature.make classical postQuantum ∧
        classical.Genuine (operation.hash contract chainId) key.address ∧
        key.algorithm.finalizeSignature raw 32 = .ok postQuantum := by
  obtain ⟨⟨classical, raw⟩, afterSigning, _, checked⟩ := Task.bind_eq_ok done
  obtain ⟨_, afterCheck, passed, finishing⟩ := Task.bind_eq_ok checked
  obtain ⟨postQuantum, afterFinish, finished, returned⟩ := Task.bind_eq_ok finishing
  cases returned
  have genuine := Signature.genuine_of_ensureSigner (Task.ofExcept_eq_ok passed)
  have finalized : key.algorithm.finalizeSignature raw
      (UInt64.ofNat (operation.hash contract chainId).bytes.length) = .ok postQuantum :=
    congrArg Prod.fst finished
  rw [Octets.length_bytes] at finalized
  exact ⟨classical, raw, postQuantum, rfl, genuine, finalized⟩

/-- A response with a signature over the hash of the blank operation. -/
def blankResponse : Bytes :=
  let scalar := Bytes.ofNatBE 32
    3348329955089446625852166947187361187869957094434072872455082834272089918785
  27 :: scalar ++ scalar ++ [0x90, 0x00]

/-- The account that the signature is by. -/
def blankAddress : Address :=
  ⟨[246, 3, 91, 2, 122, 213, 55, 223, 115, 246, 105, 26, 213, 105, 124, 198, 95, 164, 148, 227],
    rfl⟩

def blankKey : HybridKey :=
  ⟨.root, .mlDsa44, .hash, blankAddress, []⟩

def blankClassicalKey : ClassicalKey :=
  ⟨blankKey.path, blankAddress⟩

/-- The responses to the commands by which the blank operation is signed. -/
def blankReplies : List Bytes :=
  [[0x90, 0x00], blankResponse] ++
    (Session.chunkLengths 2420).map fun length => Bytes.zeros length ++ [0x90, 0x00]

set_option maxRecDepth 100000 in
theorem blank_signed :
    (blankKey.sign scripted Operation.blank (Octets.zero 20) 1
      (.ofSession (.start blankReplies))).1.toBool = true := by
  decide +kernel

set_option maxRecDepth 100000 in
theorem blank_signed_classically :
    (blankClassicalKey.sign scripted (Operation.blank.hash (Octets.zero 20) 1)
      (.ofSession (.start [blankResponse]))).1.toBool = true := by
  decide +kernel

/-- Whatever the channel brings back, in whatever state the session is: a signature that is passed
on is by the signer's account and over the right hash, and is as long as the stand-in. -/
theorem signatures_sound (transport : Transport σ) (shared : SharedSession σ) :
    (∀ (key : HybridKey) (operation : Operation) (contract : Address) (chainId : UInt64)
        (signed : HybridSignature),
      (key.sign transport operation contract chainId shared).1 = .ok signed →
        (signed.classical.length = 65 ∧
          ∃ signature, Signature.ofBytes signed.classical = .ok signature ∧
            signature.Genuine (operation.hash contract chainId) key.address) ∧
        signed.postQuantum.length = key.algorithm.signatureLength ∧
        signed.encode.length = (HybridSignature.dummy key.algorithm).encode.length) ∧
    (∀ (key : ClassicalKey) (hash : Hash) (signature : Signature),
      (key.sign transport hash shared).1 = .ok signature →
        signature.Genuine hash key.address) := by
  constructor
  · intro key operation contract chainId signed done
    obtain ⟨classical, raw, postQuantum, rfl, genuine, finalized⟩ := HybridKey.sign_eq_ok done
    have length : (HybridSignature.make classical postQuantum).classical.length = 65 :=
      classical.length_toBytes
    have postQuantumLength := Algorithm.length_finalizeSignature finalized
    refine ⟨⟨length, classical, ?_, genuine⟩, postQuantumLength, ?_⟩
    · exact Signature.ofBytes_toBytes genuine.recovery
    · exact HybridSignature.length_encode_eq_dummy length postQuantumLength
  · intro key hash signature signed
    exact ClassicalKey.sign_eq_ok signed

/-- Both kinds of keys do pass signatures on. -/
theorem signatures_sound_blank :
    (∃ signed signature,
      (blankKey.sign scripted Operation.blank (Octets.zero 20) 1
        (.ofSession (.start blankReplies))).1 = .ok signed ∧
        Signature.ofBytes signed.classical = .ok signature ∧
        signature.Genuine (Operation.blank.hash (Octets.zero 20) 1) blankAddress ∧
        signed.postQuantum.length = 2420) ∧
      ∃ signature,
        (blankClassicalKey.sign scripted (Operation.blank.hash (Octets.zero 20) 1)
          (.ofSession (.start [blankResponse]))).1 = .ok signature ∧
          signature.Genuine (Operation.blank.hash (Octets.zero 20) 1) blankAddress := by
  obtain ⟨signed, done⟩ := Result.eq_ok_of_toBool blank_signed
  obtain ⟨⟨_, signature, parsed, genuine⟩, length, _⟩ :=
    (signatures_sound scripted (.ofSession (.start blankReplies))).1 _ _ _ _ signed done
  obtain ⟨classical, doneClassically⟩ := Result.eq_ok_of_toBool blank_signed_classically
  have genuineClassically :=
    (signatures_sound scripted (.ofSession (.start [blankResponse]))).2 _ _ classical
      doneClassically
  exact ⟨⟨signed, signature, done, parsed, genuine, length⟩, classical, doneClassically,
    genuineClassically⟩

end Countersign.Element
