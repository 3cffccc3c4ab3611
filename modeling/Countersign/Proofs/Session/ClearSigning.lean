import Countersign.Proofs.Operation
import Countersign.Proofs.Session.Exchange
import Countersign.Session.Signing

/-!
What an element is told before it shows an operation. The payloads of the parts determine the hash
that is signed, so that the element can compute it from what it shows.
-/

namespace Countersign

/-- The parameter and the data of a command, if it asks for something. -/
def ChannelEvent.partOf? (instruction : Instruction) : ChannelEvent → Option (UInt8 × Bytes)
  | exchanged bytes _ =>
      match Command.ofBytes bytes with
      | .ok command =>
          if command.ins = instruction.code then some (command.p1, command.data) else none
      | .error _ => none
  | released => none

theorem ChannelEvent.partOf?_exchanged (instruction : Instruction) (command : Command)
    (reply : Except Halt Bytes) :
    (exchanged command.toBytes reply).partOf? instruction =
      if command.ins = instruction.code then some (command.p1, command.data) else none := by
  simp only [partOf?, Command.ofBytes_toBytes]

namespace Session

variable {σ α β : Type}

/-- The commands for an instruction that a task sends follow a script: they are a beginning of it,
and all of it if the task yields something. -/
def Follows (instruction : Instruction) (script : List (UInt8 × Bytes))
    (task : Task (Session (Recorded σ ChannelEvent)) α) : Prop :=
  ∀ session, ∃ new, (task session).2.log = session.log ++ new ∧
    new.filterMap (ChannelEvent.partOf? instruction) <+: script ∧
    ∀ value, (task session).1 = .ok value →
      new.filterMap (ChannelEvent.partOf? instruction) = script

section Scripts

variable {instruction : Instruction}

theorem follows_of_quiet {task : Task (Session (Recorded σ ChannelEvent)) α}
    (quiet : ∀ session, (task session).2.log = session.log) : Follows instruction [] task := by
  intro session
  refine ⟨[], ?_, List.prefix_rfl, fun _ _ => rfl⟩
  rw [quiet session, List.append_nil]

theorem follows_pure (value : α) :
    Follows instruction []
      (pure value : Task (Session (Recorded σ ChannelEvent)) α) :=
  follows_of_quiet fun _ => rfl

theorem follows_fail (error : Error) :
    Follows instruction []
      (Task.fail error : Task (Session (Recorded σ ChannelEvent)) α) :=
  follows_of_quiet fun _ => rfl

theorem follows_ofExcept (result : Except Error α) :
    Follows (σ := σ) instruction [] (Task.ofExcept result) := by
  cases result with
  | ok value => exact follows_pure value
  | error error => exact follows_fail error

theorem follows_bind {first second : List (UInt8 × Bytes)}
    {task : Task (Session (Recorded σ ChannelEvent)) α}
    {next : α → Task (Session (Recorded σ ChannelEvent)) β}
    (before : Follows instruction first task)
    (after : ∀ value, Follows instruction second (next value)) :
    Follows instruction (first ++ second) (task >>= next) := by
  intro session
  -- A task that halts has not begun its second part, and one that goes on has done all the first.
  obtain ⟨early, earlyLog, earlyPart, earlyWhole⟩ := before session
  rcases reached : task session with ⟨halt | value, between⟩
  · rw [reached] at earlyLog
    rw [Task.bind_error reached]
    refine ⟨early, earlyLog, earlyPart.trans (List.prefix_append first second), ?_⟩
    intro _ yields
    cases yields
  · rw [reached] at earlyLog earlyWhole
    rw [Task.bind_ok reached]
    obtain ⟨late, lateLog, latePart, lateWhole⟩ := after value between
    have whole : early.filterMap (ChannelEvent.partOf? instruction) = first :=
      earlyWhole value rfl
    refine ⟨early ++ late, ?_, ?_, ?_⟩
    · rw [lateLog, earlyLog, List.append_assoc]
    · rw [List.filterMap_append, whole]
      exact (List.prefix_append_right_inj first).mpr latePart
    · intro last yields
      rw [List.filterMap_append, whole, lateWhole last yields]

/-- A task that follows no script and then another follows the other. -/
theorem follows_bind_quiet {script : List (UInt8 × Bytes)}
    {task : Task (Session (Recorded σ ChannelEvent)) α}
    {next : α → Task (Session (Recorded σ ChannelEvent)) β}
    (before : Follows instruction [] task)
    (after : ∀ value, Follows instruction script (next value)) :
    Follows instruction script (task >>= next) :=
  follows_bind before after

theorem follows_bind_last {script : List (UInt8 × Bytes)}
    {task : Task (Session (Recorded σ ChannelEvent)) α}
    {next : α → Task (Session (Recorded σ ChannelEvent)) β}
    (before : Follows instruction script task)
    (after : ∀ value, Follows instruction [] (next value)) :
    Follows instruction script (task >>= next) := by
  have both := follows_bind before after
  rwa [List.append_nil] at both

end Scripts

section Commands

variable (transport : Transport σ) (instruction : Instruction)

private theorem follows_transmit_of_part {sending : Instruction} {p1 p2 : UInt8} {data : Bytes}
    {script : List (UInt8 × Bytes)}
    (part : ∀ fits reply, [ChannelEvent.exchanged (sending.command p1 p2 data fits).toBytes
      reply].filterMap (ChannelEvent.partOf? instruction) = script) :
    Follows instruction script (transmit transport.recorded sending p1 p2 data) := by
  intro session
  by_cases isOpen : session.closed = false
  · by_cases fits : data.length ≤ 255
    · rw [transmit_sent transport.recorded sending p1 p2 data isOpen fits]
      have whole := part fits
        (session.reply transport.recorded (sending.command p1 p2 data fits))
      exact ⟨_, log_sent transport _ session, ⟨[], by rw [List.append_nil, whole]⟩,
        fun _ _ => whole⟩
    · rw [transmit_tooLong transport.recorded sending p1 p2 data isOpen fits]
      refine ⟨[], (List.append_nil _).symm, List.nil_prefix, ?_⟩
      intro _ yields
      cases yields
  · rw [transmit_closed transport.recorded sending p1 p2 data (by simpa using isOpen)]
    refine ⟨[], (List.append_nil _).symm, List.nil_prefix, ?_⟩
    intro _ yields
    cases yields

theorem follows_transmit (p1 p2 : UInt8) (data : Bytes) :
    Follows instruction [(p1, data)] (transmit transport.recorded instruction p1 p2 data) := by
  apply follows_transmit_of_part
  intro fits reply
  have asked : (instruction.command p1 p2 data fits).ins = instruction.code := rfl
  rw [List.filterMap_cons, ChannelEvent.partOf?_exchanged, if_pos asked]
  rfl

theorem follows_transmit_other {sending : Instruction} (other : sending ≠ instruction)
    (p1 p2 : UInt8) (data : Bytes) :
    Follows instruction [] (transmit transport.recorded sending p1 p2 data) := by
  apply follows_transmit_of_part
  intro fits reply
  have notAsked : (sending.command p1 p2 data fits).ins ≠ instruction.code := by
    intro same
    exact other (Instruction.code_injective same)
  rw [List.filterMap_cons, ChannelEvent.partOf?_exchanged, if_neg notAsked]
  rfl

end Commands

section Tasks

variable (transport : Transport σ) {instruction : Instruction} (path : Path)
  (algorithm : Algorithm)

theorem follows_deriveSeed (other : Instruction.deriveSeed ≠ instruction) :
    Follows instruction [] (deriveSeed transport.recorded path algorithm) := by
  apply follows_bind_quiet (follows_of_quiet fun _ => rfl)
  intro _
  apply follows_bind_quiet (follows_transmit_other transport instruction other _ _ _)
  intro _
  exact follows_of_quiet fun _ => rfl

theorem follows_ensureSeed (other : Instruction.deriveSeed ≠ instruction) :
    Follows instruction [] (ensureSeed transport.recorded path algorithm) := by
  apply follows_bind_quiet (follows_of_quiet fun _ => rfl)
  intro session
  split
  · exact follows_pure ()
  · exact follows_deriveSeed transport path algorithm other

theorem follows_readChunksFrom {reading : Instruction} (other : reading ≠ instruction) :
    ∀ (index : Nat) (lengths : List Nat),
      Follows instruction [] (readChunksFrom transport.recorded reading algorithm index lengths)
  | _, [] => follows_pure []
  | index, expected :: later => by
      apply follows_bind_quiet (follows_transmit_other transport instruction other _ _ _)
      intro chunk
      apply follows_bind_quiet (follows_ofExcept _)
      intro _
      apply follows_bind_quiet (follows_readChunksFrom other (index + 1) later)
      intro rest
      exact follows_pure _

theorem follows_readAnswer {reading : Instruction} (other : reading ≠ instruction)
    (length : AnswerLength) :
    Follows instruction [] (readAnswer transport.recorded reading algorithm length) := by
  apply follows_bind_quiet (follows_transmit_other transport instruction other _ _ _)
  intro first
  apply follows_bind_quiet (follows_ofExcept _)
  intro total
  split
  · exact follows_fail _
  · split
    · exact follows_fail _
    · apply follows_bind_quiet (follows_ofExcept _)
      intro _
      apply follows_bind_quiet (follows_readChunksFrom transport algorithm other _ _)
      intro rest
      exact follows_pure _

theorem follows_readBoth (other : Instruction.readSignature ≠ instruction) (response : Bytes) :
    Follows instruction [] (readBoth transport.recorded algorithm response) := by
  apply follows_bind_quiet (follows_ofExcept _)
  intro classical
  apply follows_bind_quiet (follows_readAnswer transport algorithm other _)
  intro postQuantum
  exact follows_pure _

/-- The four parts that an operation is sent in. -/
def clearScript (operation : Operation) (contract : Address) (chainId : UInt64) :
    List (UInt8 × Bytes) :=
  [(0, path.toPayload), (1, domainPayload operation contract chainId),
    (2, fieldsPayload operation), (3, callPayload operation)]

theorem follows_clearSign (operation : Operation) (contract : Address) (chainId : UInt64) :
    Follows .clearSign (clearScript path operation contract chainId)
      (clearSign transport.recorded path algorithm operation contract chainId) := by
  apply follows_bind_quiet (follows_ensureSeed transport path algorithm (by decide))
  intro _
  apply follows_bind (follows_transmit transport .clearSign 0 _ path.toPayload)
  intro _
  apply follows_bind (follows_transmit transport .clearSign 1 _ _)
  intro _
  apply follows_bind (follows_transmit transport .clearSign 2 _ _)
  intro _
  apply follows_bind_last (follows_transmit transport .clearSign 3 _ _)
  intro response
  exact follows_readBoth transport algorithm (by decide) response

end Tasks

section Payloads

variable (operation : Operation) (contract : Address) (chainId : UInt64)

theorem length_domainPayload : (domainPayload operation contract chainId).length = 104 := by
  simp only [domainPayload, List.length_append, Abi.wordBytes, Bytes.length_ofNatBE,
    Octets.length_bytes]

theorem length_fieldsPayload : (fieldsPayload operation).length = 192 := by
  simp only [fieldsPayload, List.length_append, Abi.wordBytes, Bytes.length_ofNatBE,
    Octets.length_bytes]

/-- A call is left out if one command cannot carry it. -/
theorem length_callPayload_le : (callPayload operation).length ≤ 255 := by
  rw [callPayload]
  split
  · assumption
  · exact Nat.zero_le 255

/-- The words of the outer hash stand in the payload in another order. -/
theorem extract_domainPayload :
    (domainPayload operation contract chainId).extract 0 32 = Abi.wordBytes chainId.toNat ∧
      (domainPayload operation contract chainId).extract 32 52 = contract.bytes ∧
      (domainPayload operation contract chainId).extract 52 72 = operation.sender.bytes ∧
      (domainPayload operation contract chainId).extract 72 104 =
        Abi.wordBytes operation.nonce.toNat := by
  have chainLength : (Abi.wordBytes chainId.toNat).length = 32 := Bytes.length_ofNatBE 32 _
  have nonceLength : (Abi.wordBytes operation.nonce.toNat).length = 32 :=
    Bytes.length_ofNatBE 32 _
  have contractLength := contract.length_bytes
  have senderLength := operation.sender.length_bytes
  unfold domainPayload
  generalize Abi.wordBytes chainId.toNat = chain at *
  generalize Abi.wordBytes operation.nonce.toNat = nonce at *
  refine ⟨?_, ?_, ?_, ?_⟩
  · have split : chain ++ contract.bytes ++ operation.sender.bytes ++ nonce =
        [] ++ chain ++ (contract.bytes ++ operation.sender.bytes ++ nonce) := by
      simp
    exact Bytes.extract_of_split split rfl (by omega)
  · have split : chain ++ contract.bytes ++ operation.sender.bytes ++ nonce =
        chain ++ contract.bytes ++ (operation.sender.bytes ++ nonce) := by
      simp
    exact Bytes.extract_of_split split chainLength (by omega)
  · exact Bytes.extract_of_split rfl (by rw [List.length_append]; omega) (by omega)
  · have split : chain ++ contract.bytes ++ operation.sender.bytes ++ nonce =
        (chain ++ contract.bytes ++ operation.sender.bytes) ++ nonce ++ [] := by
      simp
    exact Bytes.extract_of_split split (by simp only [List.length_append]; omega) (by omega)

theorem innerPreimage_eq :
    operation.innerPreimage =
      Bytes.zeros 12 ++ operation.sender.bytes ++ Abi.wordBytes operation.nonce.toNat ++
        fieldsPayload operation := by
  simp [Operation.innerPreimage_eq_flatten, Operation.innerWords, fieldsPayload]

theorem outerPreimage_eq :
    operation.outerPreimage contract chainId =
      operation.innerHash.bytes ++ Bytes.zeros 12 ++ contract.bytes ++
        Abi.wordBytes chainId.toNat := by
  simp [Operation.outerPreimage_eq_flatten, Operation.outerWords]

/-- The hash that an element computes from the payloads of the second and the third part. -/
def recomputedHash (domain fields : Bytes) : Hash :=
  let inner := keccak256
    (Bytes.zeros 12 ++ domain.extract 52 72 ++ domain.extract 72 104 ++ fields)
  keccak256 (inner.bytes ++ Bytes.zeros 12 ++ domain.extract 32 52 ++ domain.extract 0 32)

theorem recomputedHash_eq :
    recomputedHash (domainPayload operation contract chainId) (fieldsPayload operation) =
      operation.hash contract chainId := by
  obtain ⟨chain, verifier, sender, nonce⟩ := extract_domainPayload operation contract chainId
  unfold recomputedHash Operation.hash
  rw [chain, verifier, sender, nonce, outerPreimage_eq, Operation.innerHash, innerPreimage_eq]

theorem extract_fieldsPayload :
    (fieldsPayload operation).extract 32 64 = (keccak256 operation.callData).bytes := by
  have initLength := (keccak256 operation.initCode).length_bytes
  have callLength := (keccak256 operation.callData).length_bytes
  have split : fieldsPayload operation =
      (keccak256 operation.initCode).bytes ++ (keccak256 operation.callData).bytes ++
        (operation.accountGasLimits.bytes ++
          Abi.wordBytes operation.preVerificationGas.toNat ++
          operation.gasFees.bytes ++ (keccak256 operation.paymasterAndData).bytes) := by
    simp only [fieldsPayload, List.append_assoc]
  exact Bytes.extract_of_split split initLength (by omega)

/-- Something is shown only if it is the call, and nothing is shown for a call other than one with
the digest of the empty call just when the call is too long for one command. -/
theorem callPayload_shown :
    (callPayload operation ≠ [] →
        (keccak256 (callPayload operation)).bytes =
          (fieldsPayload operation).extract 32 64) ∧
      ((callPayload operation = [] ∧
          (keccak256 []).bytes ≠ (fieldsPayload operation).extract 32 64) ↔
        (255 < operation.callData.length ∧ keccak256 operation.callData ≠ keccak256 [])) := by
  rw [extract_fieldsPayload]
  unfold callPayload
  by_cases short : operation.callData.length ≤ 255
  · rw [if_pos short]
    refine ⟨fun _ => rfl, ?_⟩
    constructor
    · rintro ⟨empty, differ⟩
      rw [empty] at differ
      exact absurd rfl differ
    · rintro ⟨long, _⟩
      omega
  · rw [if_neg short]
    refine ⟨fun shown => absurd rfl shown, ?_⟩
    constructor
    · rintro ⟨_, differ⟩
      refine ⟨by omega, ?_⟩
      intro collision
      rw [collision] at differ
      exact differ rfl
    · rintro ⟨_, noCollision⟩
      refine ⟨rfl, ?_⟩
      intro same
      exact noCollision (Octets.ext same.symm)

end Payloads

end Session

end Countersign
