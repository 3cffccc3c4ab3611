import Countersign.Proofs.Pipeline.Pricing

/-!
The call that an account makes for a request says what was requested: whoever reads it by the rules
of the interface finds the target, the value and the data. So operations of one hash were requested
alike, unless two strings of one digest have been found.
-/

namespace Countersign

namespace Request

variable {left right : Request}

/-- The arguments of the call as members of a sequence. -/
def arguments (request : Request) : List Abi.Part :=
  [Abi.addressMember request.target, Abi.member .word request.value,
    Abi.member .bytes request.data]

theorem callData_eq (request : Request) :
    request.callData = executeSelector ++ Abi.sequence request.arguments :=
  rfl

theorem uniform_arguments (request : Request) : Abi.Uniform request.arguments := by
  simp [arguments, Abi.Uniform, Abi.addressMember_eq, Abi.placeLength_member]

/-- The places of the target and the value, the distance to the data, and the data. -/
theorem sequence_arguments (request : Request) :
    Abi.sequence request.arguments = (Bytes.zeros 12 ++ request.target.bytes) ++
      (Abi.wordBytes request.value.toNat ++ (Abi.wordBytes 96 ++ Abi.byteString request.data)) := by
  have room : Abi.placesLength request.arguments = 96 := by
    rw [Abi.placesLength_uniform request.uniform_arguments]
    rfl
  rw [Abi.sequence, room]
  simp [arguments, Abi.addressMember, Abi.member, Abi.Kind.isFixed, Abi.encode, Abi.places,
    Abi.Part.tail]

theorem length_sequence_arguments (request : Request) :
    (Abi.sequence request.arguments).length = 128 + 32 * ((request.data.length + 31) / 32) := by
  simp only [sequence_arguments, List.length_append, Abi.length_byteString, Abi.wordBytes,
    Bytes.length_ofNatBE, Bytes.length_zeros, request.target.length_bytes]
  omega

theorem callData_layout (request : Request) :
    request.callData = executeSelector ++ (Bytes.zeros 12 ++ request.target.bytes) ++
      Abi.wordBytes request.value.toNat ++ Abi.wordBytes 96 ++
        Abi.wordBytes request.data.length ++ request.data ++
          Bytes.zeros (32 * ((request.data.length + 31) / 32) - request.data.length) := by
  rw [callData_eq, sequence_arguments, Abi.byteString, Abi.wordPadding_eq]
  simp only [List.append_assoc]

/-- The selector is the beginning of a digest. -/
theorem executeSelector_eq : executeSelector =
    (keccak256 "execute(address,uint256,bytes)".toUTF8.data.toList).bytes.take 4 := by
  decide +kernel

/-- Reads a call of `execute`: the selector, and behind it the sequence of the three arguments, of
which the first has to be the word of an address. -/
def readCall? (data : Bytes) : Option (Address × Word × Bytes) :=
  let argument (kind : Abi.Kind) (place : Nat) :=
    Abi.readMember? kind (Abi.read? data kind) data 4 place
  if data.take 4 = executeSelector then
    match argument .word 0, argument .word 1, argument .bytes 2 with
    | some target, some value, some bytes =>
        if BitVec.toNat target < 2 ^ 160 then some (.ofNat 20 target.toNat, value, bytes) else none
    | _, _, _ => none
  else
    none

theorem readArgument?_callData {request : Request} (short : request.data.length < 2 ^ 63)
    {kind : Abi.Kind} {value : kind.Value} (before : List Abi.Part) {after : List Abi.Part}
    (among : request.arguments = before ++ Abi.member kind value :: after) :
    Abi.readMember? kind (Abi.read? request.callData kind) request.callData 4 before.length =
      some value := by
  have fits : (Abi.sequence request.arguments).length < UInt64.size := by
    rw [length_sequence_arguments]
    have size : UInt64.size = 2 ^ 64 := rfl
    omega
  have split : request.callData = executeSelector ++ (Abi.sequence request.arguments ++ []) := by
    rw [List.append_nil, callData_eq]
  exact Abi.readMember?_of_members among request.uniform_arguments fits split

theorem readCall?_callData {request : Request} (short : request.data.length < 2 ^ 63) :
    readCall? request.callData = some (request.target, request.value, request.data) := by
  have among : request.arguments =
      [Abi.member .word (BitVec.ofNat 256 request.target.toNat), Abi.member .word request.value,
        Abi.member .bytes request.data] := by
    rw [arguments, Abi.addressMember_eq]
  have target := readArgument?_callData short [] among
  have value := readArgument?_callData short [_] among
  have data := readArgument?_callData short [_, _] among
  have below := Bytes.toNatBE_lt request.target.bytes
  rw [request.target.length_bytes] at below
  have small : request.target.toNat < 2 ^ 160 := below
  have word : (BitVec.ofNat 256 request.target.toNat).toNat = request.target.toNat := by
    rw [BitVec.toNat_ofNat, Nat.mod_eq_of_lt (Nat.lt_trans small (by decide))]
  have selector : request.callData.take 4 = executeSelector := List.take_left' rfl
  rw [List.length_nil] at target
  rw [List.length_singleton] at value
  rw [List.length_cons, List.length_singleton] at data
  simp only [readCall?, if_pos selector, target, value, data, word, if_pos small,
    Octets.ofNat_toNat]

/-- The call tells its target, its value and its data, of whatever length these are. -/
theorem eq_of_callData_eq (same : left.callData = right.callData) :
    left.target = right.target ∧ left.value = right.value ∧ left.data = right.data := by
  rw [callData_eq, callData_eq, sequence_arguments, sequence_arguments,
    List.append_cancel_left_eq, List.append_assoc, List.append_assoc,
    List.append_cancel_left_eq] at same
  have targets : left.target.bytes.length = right.target.bytes.length := by
    rw [left.target.length_bytes, right.target.length_bytes]
  obtain ⟨target, same⟩ := List.append_inj same targets
  obtain ⟨value, same⟩ := List.append_inj same (by simp [Abi.wordBytes])
  rw [List.append_cancel_left_eq] at same
  exact ⟨Octets.ext target, Abi.wordBytes_toNat_injective value, Abi.byteString_injective same⟩

end Request

section Building

variable {ω ω' : Type} {pipeline : Pipeline ω} {other : Pipeline ω'} {request otherRequest : Request}
  {signed otherSigned : SignedOperation}

theorem Pipeline.exists_settles {before : ω} (built : (pipeline.build request before).1 = .ok signed) :
    ∃ answers signature, signed.Settles pipeline request answers signature := by
  obtain ⟨answers, after, given⟩ := Answers.exists_givenBy pipeline request before
  rw [build_apply given] at built
  obtain ⟨signature, _, rfl⟩ := outcome_eq_ok built
  exact ⟨answers, signature, answers.settles_signed pipeline request signature⟩

/-- Operations that agree in all that is signed were requested alike, but perhaps under different
nonce keys. -/
theorem SignedOperation.Settles.request_eq {answers otherAnswers : Answers}
    {signature otherSignature : HybridSignature}
    (settles : signed.Settles pipeline request answers signature)
    (otherSettles : otherSigned.Settles other otherRequest otherAnswers otherSignature)
    (agree : signed.operation.Agree otherSigned.operation signed.entryPoint otherSigned.entryPoint
      signed.chainId otherSigned.chainId) :
    request = { otherRequest with nonceKey := request.nonceKey } := by
  have sender : request.sender = otherRequest.sender := by
    rw [← settles.sender, ← otherSettles.sender, agree.sender_eq]
  have initCode : request.initCode = otherRequest.initCode := by
    rw [← settles.initCode, ← otherSettles.initCode, agree.initCode_eq]
  have paymasterAndData : request.paymasterAndData = otherRequest.paymasterAndData := by
    rw [← settles.paymasterAndData, ← otherSettles.paymasterAndData, agree.paymasterAndData_eq]
  have callData : request.callData = otherRequest.callData := by
    rw [← settles.callData, ← otherSettles.callData, agree.callData_eq]
  obtain ⟨target, value, data⟩ := Request.eq_of_callData_eq callData
  rw [← sender, ← target, ← value, ← data, ← initCode, ← paymasterAndData]

end Building

/-- The call is the selector of `execute` and the three arguments, with the data in whole words. It
is read as the target, the value and the data, of any length that a string in memory can have; and
no two calls are alike, of whatever length their data are. Where operations of one hash were built,
with whatever nonces, gas, fees, contracts and chains, their requests differ in the nonce key alone,
or two strings of one digest are among those that were hashed for them. -/
theorem calls_say_what_is_requested :
    (∀ request : Request, request.callData =
        Request.executeSelector ++ (Bytes.zeros 12 ++ request.target.bytes) ++
          Abi.wordBytes request.value.toNat ++ Abi.wordBytes 96 ++
            Abi.wordBytes request.data.length ++ request.data ++
              Bytes.zeros (32 * ((request.data.length + 31) / 32) - request.data.length)) ∧
      Request.executeSelector =
        (keccak256 "execute(address,uint256,bytes)".toUTF8.data.toList).bytes.take 4 ∧
      (∀ request : Request, request.data.length < 2 ^ 63 →
        Request.readCall? request.callData =
          some (request.target, request.value, request.data)) ∧
      (∀ left right : Request, left.callData = right.callData →
        left.target = right.target ∧ left.value = right.value ∧ left.data = right.data) ∧
      ∀ {ω ω' : Type} (pipeline : Pipeline ω) (other : Pipeline ω')
        (request otherRequest : Request) (before : ω) (otherBefore : ω')
        (signed otherSigned : SignedOperation),
        (pipeline.build request before).1 = .ok signed →
          (other.build otherRequest otherBefore).1 = .ok otherSigned →
            signed.hash = otherSigned.hash →
              request = { otherRequest with nonceKey := request.nonceKey } ∨
                ∃ pair ∈ (signed.operation.hashedStrings signed.entryPoint signed.chainId).zip
                  (otherSigned.operation.hashedStrings otherSigned.entryPoint otherSigned.chainId),
                  Colliding pair := by
  refine ⟨Request.callData_layout, Request.executeSelector_eq,
    fun _ => Request.readCall?_callData, fun _ _ => Request.eq_of_callData_eq, ?_⟩
  intro ω ω' pipeline other request otherRequest before otherBefore signed otherSigned built
    otherBuilt same
  obtain ⟨answers, signature, settles⟩ := Pipeline.exists_settles built
  obtain ⟨otherAnswers, otherSignature, otherSettles⟩ := Pipeline.exists_settles otherBuilt
  rw [settles.hash, otherSettles.hash] at same
  by_contra neither
  rw [not_or] at neither
  obtain ⟨differ, none⟩ := neither
  refine differ (settles.request_eq otherSettles (Operation.agree_of_no_colliding ?_ same))
  exact fun pair member collides => none ⟨pair, member, collides⟩

namespace Pipeline

/-- The pipeline whose estimator answers, with an answer for nonces too: the first one under the
key zero, whatever the key. -/
def numbered : Pipeline (SharedSession (List Bytes)) :=
  { estimated with services := { estimated.services with nonce := fun _ _ => return 0 } }

/-- The empty call under another key. -/
def emptyCallElsewhere : Request :=
  { emptyCall with nonceKey := 1 }

/-- What is answered for the one request is what replaces the answer for the other one. -/
theorem numbered_build (state : SharedSession (List Bytes)) :
    numbered.build emptyCallElsewhere state = estimated.build emptyCall state := by
  have prepared : numbered.prepare emptyCallElsewhere state = estimated.prepare emptyCall state :=
    rfl
  rw [build_eq_conclude, build_eq_conclude, prepared]
  rfl

end Pipeline

theorem calls_say_what_is_requested_elsewhere :
    Request.readCall? { Pipeline.emptyCall with data := Bytes.zeros 32 }.callData =
        some (Octets.zero 20, 0, Bytes.zeros 32) ∧
      ∃ signed otherSigned,
        (Pipeline.estimated.build Pipeline.emptyCall
            (.ofSession (.start Pipeline.emptyCallReplies))).1 = .ok signed ∧
          (Pipeline.numbered.build Pipeline.emptyCallElsewhere
            (.ofSession (.start Pipeline.emptyCallReplies))).1 = .ok otherSigned ∧
          signed.hash = otherSigned.hash ∧
          (Pipeline.emptyCall = { Pipeline.emptyCallElsewhere with nonceKey := 0 } ∨
            ∃ pair ∈ (signed.operation.hashedStrings signed.entryPoint signed.chainId).zip
              (otherSigned.operation.hashedStrings otherSigned.entryPoint otherSigned.chainId),
              Colliding pair) := by
  obtain ⟨_, _, read, _, bound⟩ := calls_say_what_is_requested
  obtain ⟨signed, built⟩ := Result.eq_ok_of_toBool Pipeline.estimated_built
  have otherBuilt := built
  rw [← Pipeline.numbered_build] at otherBuilt
  refine ⟨read _ (by decide), signed, signed, built, otherBuilt, rfl, ?_⟩
  exact bound _ _ _ _ _ _ _ _ built otherBuilt rfl

end Countersign
