import Countersign.Proofs.Session.ClearSigning
import Countersign.Proofs.Session.Steps
import Countersign.Proofs.Signature

/-!
A secure element that follows the protocol, as a machine: what it keeps from one command to the
next, and what it answers. It may refuse any command, and then keeps what it had.
-/

namespace Countersign

/-- The instruction with a given code. -/
def Instruction.ofCode? (code : UInt8) : Option Instruction :=
  [readClassicalKey, signHash, deriveSeed, generateKey, readPublicKey, signMessage, readSignature,
    hybridSign, clearSign].find? fun instruction => instruction.code = code

theorem Instruction.code_of_ofCode? {code : UInt8} {instruction : Instruction}
    (found : ofCode? code = some instruction) : instruction.code = code := by
  simpa using List.find?_some found

namespace SecureElement

/-- A classical signature as an element makes it, of either form and with either kind of recovery
byte. -/
structure ClassicalSignature where
  r : Octets 32
  s : Octets 32
  v : UInt8
  r_scalar : Curve.isScalar r.toNat = true
  s_scalar : Curve.isScalar s.toNat = true
  v_valid : (v = 0 ∨ v = 1) ∨ v = 27 ∨ v = 28

namespace ClassicalSignature

/-- The bytes `v ‖ r ‖ s`. -/
def toBytes (signature : ClassicalSignature) : Bytes :=
  signature.v :: signature.r.bytes ++ signature.s.bytes

/-- The recovery byte as the chain wants it. -/
def lifted (signature : ClassicalSignature) : UInt8 :=
  if signature.v = 0 ∨ signature.v = 1 then signature.v + 27 else signature.v

/-- The low form with a recovery byte of the chain. -/
def lowered (signature : ClassicalSignature) : Signature :=
  if Curve.isHigh signature.s.toNat then
    ⟨signature.r, Octets.ofNat 32 (Curve.order - signature.s.toNat),
      ((signature.lifted - 27) ^^^ 1) + 27⟩
  else
    ⟨signature.r, signature.s, signature.lifted⟩

theorem chainRecovery_v (signature : ClassicalSignature) :
    Signature.chainRecovery signature.v = .ok signature.lifted := by
  unfold Signature.chainRecovery lifted
  rcases signature.v_valid with bare | chain
  · rw [if_pos bare, if_pos bare]
  · have notBare : ¬ (signature.v = 0 ∨ signature.v = 1) := by
      rcases chain with same | same <;> rw [same] <;> decide
    rw [if_neg notBare, if_pos chain, if_neg notBare]

theorem lifted_valid (signature : ClassicalSignature) :
    signature.lifted = 27 ∨ signature.lifted = 28 := by
  unfold lifted
  rcases signature.v_valid with bare | chain
  · rw [if_pos bare]
    rcases bare with same | same <;> rw [same] <;> decide
  · rcases chain with same | same <;> rw [same] <;> decide

theorem ofDeviceBytes_toBytes (signature : ClassicalSignature) :
    Signature.ofDeviceBytes signature.toBytes =
      .ok ⟨signature.r, signature.s, signature.lifted⟩ := by
  rw [toBytes, Signature.ofDeviceBytes_parts, chainRecovery_v]
  rfl

/-- A session makes the low form of whatever signature an element makes. -/
theorem readClassicalSignature_toBytes (signature : ClassicalSignature) :
    Session.readClassicalSignature signature.toBytes = .ok signature.lowered := by
  have scalars : Signature.checkScalars ⟨signature.r, signature.s, signature.lifted⟩ = .ok () := by
    unfold Signature.checkScalars
    rw [signature.r_scalar, signature.s_scalar]
    rfl
  have recovery : Signature.checkRecovery ⟨signature.r, signature.s, signature.lifted⟩ =
      .ok (signature.lifted - 27) := by
    unfold Signature.checkRecovery Signature.recoveryNumber?
    rw [if_pos signature.lifted_valid]
  unfold Session.readClassicalSignature
  rw [ofDeviceBytes_toBytes]
  dsimp only
  unfold Signature.normalize lowered
  rw [scalars, recovery]
  cases Curve.isHigh signature.s.toNat <;> rfl

end ClassicalSignature

/-- What the keys of an element compute. -/
structure Keys where
  coordinates : Path → Octets 64
  classical : Path → Hash → ClassicalSignature
  latticeKey : Path → (algorithm : Algorithm) → Octets algorithm.publicKeyLength
  mlDsa : Path → Bytes → Octets 2420
  salt : Path → Bytes → Octets 40
  falcon : Path → Bytes → { encoded : Bytes // encoded.length < 65536 }

/-- The lattice signature over a message: detached for ML-DSA-44, a signed message for Falcon-512. -/
def Keys.latticeSignature (keys : Keys) (path : Path) (algorithm : Algorithm) (message : Bytes) :
    Bytes :=
  match algorithm with
  | .mlDsa44 => (keys.mlDsa path message).bytes
  | .falcon512 =>
      let encoded := (keys.falcon path message).val
      Bytes.ofNatBE 2 encoded.length ++ (keys.salt path message).bytes ++ message ++ encoded

namespace Keys

variable (keys : Keys) (path : Path) (message : Bytes)

theorem length_falconSignature :
    (keys.latticeSignature path .falcon512 message).length =
      42 + message.length + (keys.falcon path message).val.length := by
  simp only [latticeSignature, List.length_append, Bytes.length_ofNatBE, Octets.length_bytes]

theorem length_latticeSignature_pos (algorithm : Algorithm) :
    0 < (keys.latticeSignature path algorithm message).length := by
  cases algorithm with
  | mlDsa44 =>
      have exact : (keys.latticeSignature path .mlDsa44 message).length = 2420 :=
        (keys.mlDsa path message).length_bytes
      omega
  | falcon512 =>
      rw [length_falconSignature]
      omega

/-- A signed message declares the length of the signature in it. -/
theorem declared_falconSignature :
    Bytes.toNatBE ((keys.latticeSignature path .falcon512 message).take 2) =
      (keys.falcon path message).val.length := by
  have head : (keys.latticeSignature path .falcon512 message).take 2 =
      Bytes.ofNatBE 2 (keys.falcon path message).val.length := by
    rw [latticeSignature, List.append_assoc, List.append_assoc]
    exact List.take_left' (Bytes.length_ofNatBE 2 _)
  rw [head, Bytes.toNatBE_ofNatBE]
  exact Nat.mod_eq_of_lt (keys.falcon path message).property

/-- The first chunk of a lattice signature tells its length. -/
theorem total_latticeSignature (algorithm : Algorithm) :
    (Session.AnswerLength.ofSignature algorithm message.length).total
        ((keys.latticeSignature path algorithm message).take 255) =
      .ok (keys.latticeSignature path algorithm message).length := by
  cases algorithm with
  | mlDsa44 =>
      have exact : (keys.latticeSignature path .mlDsa44 message).length = 2420 :=
        (keys.mlDsa path message).length_bytes
      rw [exact]
      rfl
  | falcon512 =>
      have length := length_falconSignature keys path message
      have long : ¬ ((keys.latticeSignature path .falcon512 message).take 255).length < 2 := by
        rw [List.length_take]
        omega
      have declared : Bytes.toNatBE
          (((keys.latticeSignature path .falcon512 message).take 255).take 2) =
            (keys.falcon path message).val.length := by
        rw [List.take_take]
        exact declared_falconSignature keys path message
      unfold Session.AnswerLength.ofSignature Session.AnswerLength.total
      dsimp only
      rw [if_neg long, declared, length]

end Keys

/-! ## What an element does -/

/-- What an element keeps from one command to the next. -/
structure State where
  seed : Option (Path × Algorithm)
  message : Option Bytes
  publicKey : Bytes
  signature : Bytes
  clearPath : Option Path
  clearDomain : Bytes
  clearFields : Bytes

def grant (data : Bytes) (state : State) : Response × State :=
  (⟨data, Response.success⟩, state)

/-- The status word for a command that cannot be carried out now. -/
def conditions : UInt16 := 0x6986

/-- The status word for a command that the element does not know. -/
def unknown : UInt16 := 0x6D00

def refuse (status : UInt16) (state : State) : Response × State :=
  (⟨[], status⟩, state)

/-- The piece of a buffer with a given number. -/
def chunk (buffer : Bytes) (index : UInt8) : Bytes :=
  (Bytes.pieces Session.chunkLength buffer).getD index.toNat []

/-- A path and the hash behind it. -/
def readHashPayload? (data : Bytes) : Option (Path × Hash) :=
  match Path.ofPayload data with
  | .ok (path, rest) => (Octets.ofBytes? 32 rest).map (path, ·)
  | .error _ => none

theorem readHashPayload?_hashPayload (path : Path) (hash : Hash) :
    readHashPayload? (Session.hashPayload path hash) = some (path, hash) := by
  unfold readHashPayload? Session.hashPayload
  rw [Path.ofPayload_toPayload_append]
  dsimp only
  rw [Octets.ofBytes?_bytes]
  rfl

section Handlers

variable (keys : Keys) (state : State)

def readClassicalKey (data : Bytes) : Response × State :=
  match Path.ofPayload data with
  | .ok (path, _) => grant (0x04 :: (keys.coordinates path).bytes) state
  | .error _ => refuse conditions state

def signHash (data : Bytes) : Response × State :=
  match readHashPayload? data with
  | some (path, hash) => grant (keys.classical path hash).toBytes state
  | none => refuse conditions state

def deriveSeed (code : UInt8) (data : Bytes) : Response × State :=
  match Path.ofPayload data, Algorithm.ofDeviceCode? code with
  | .ok (path, _), some algorithm => grant [] { state with seed := some (path, algorithm) }
  | _, _ => refuse conditions state

def generateKey : Response × State :=
  match state.seed with
  | some (path, algorithm) =>
      grant [] { state with publicKey := (keys.latticeKey path algorithm).bytes }
  | none => refuse conditions state

/-- Signs what has been absorbed, if it is as long as declared. -/
def finishMessage (data : Bytes) : Response × State :=
  match state.message, state.seed with
  | some message, some (path, algorithm) =>
      if Bytes.toNatBE (data.take 2) = message.length then
        grant [] { state with
          message := none, signature := keys.latticeSignature path algorithm message }
      else
        refuse conditions { state with message := none }
  | _, _ => refuse conditions { state with message := none }

def signMessage (phase : UInt8) (data : Bytes) : Response × State :=
  if phase = 0 then
    grant [] { state with message := some [] }
  else if phase = 1 then
    match state.message with
    | some message => grant [] { state with message := some (message ++ data) }
    | none => refuse conditions state
  else if phase = 2 then
    finishMessage keys state data
  else
    refuse unknown state

/-- Signs a hash with the classical key at a path and with the lattice key of the seed. -/
def signBoth (path : Path) (hash : Hash) : Response × State :=
  match state.seed with
  | some (seedPath, algorithm) =>
      grant (keys.classical path hash).toBytes
        { state with signature := keys.latticeSignature seedPath algorithm hash.bytes }
  | none => refuse conditions state

def hybridSign (data : Bytes) : Response × State :=
  match readHashPayload? data with
  | some (path, hash) => signBoth keys state path hash
  | none => refuse conditions state

def clearSign (phase : UInt8) (data : Bytes) : Response × State :=
  if phase = 0 then
    match Path.ofPayload data with
    | .ok (path, _) =>
        grant [] { state with clearPath := some path, clearDomain := [], clearFields := [] }
    | .error _ => refuse conditions state
  else if phase = 1 then
    grant [] { state with clearDomain := data }
  else if phase = 2 then
    grant [] { state with clearFields := data }
  else if phase = 3 then
    match state.clearPath with
    | some path =>
        signBoth keys state path (Session.recomputedHash state.clearDomain state.clearFields)
    | none => refuse conditions state
  else
    refuse unknown state

/-- What an element answers to a command that it does not refuse out of hand, and what it keeps. -/
def carryOut (command : Command) : Response × State :=
  match Instruction.ofCode? command.ins with
  | some .readClassicalKey => readClassicalKey keys state command.data
  | some .signHash => signHash keys state command.data
  | some .deriveSeed => deriveSeed state command.p2 command.data
  | some .generateKey => generateKey keys state
  | some .readPublicKey => grant (chunk state.publicKey command.p1) state
  | some .signMessage => signMessage keys state command.p1 command.data
  | some .readSignature => grant (chunk state.signature command.p1) state
  | some .hybridSign => hybridSign keys state command.data
  | some .clearSign => clearSign keys state command.p1 command.data
  | none => refuse unknown state

theorem finishMessage_seed (data : Bytes) :
    (finishMessage keys state data).2.seed = state.seed := by
  unfold finishMessage
  split
  · split <;> rfl
  · rfl

theorem signMessage_seed (phase : UInt8) (data : Bytes) :
    (signMessage keys state phase data).2.seed = state.seed := by
  unfold signMessage
  split
  · rfl
  · split
    · split <;> rfl
    · split
      · exact finishMessage_seed keys state data
      · rfl

theorem signBoth_seed (path : Path) (hash : Hash) :
    (signBoth keys state path hash).2.seed = state.seed := by
  unfold signBoth
  split
  · exact rfl
  · rfl

theorem hybridSign_seed (data : Bytes) :
    (hybridSign keys state data).2.seed = state.seed := by
  unfold hybridSign
  split
  · exact signBoth_seed keys state _ _
  · rfl

theorem clearSign_seed (phase : UInt8) (data : Bytes) :
    (clearSign keys state phase data).2.seed = state.seed := by
  unfold clearSign
  split
  · split <;> rfl
  · split
    · rfl
    · split
      · rfl
      · split
        · split
          · exact signBoth_seed keys state _ _
          · rfl
        · rfl

theorem carryOut_seed {command : Command}
    (other : command.ins ≠ Instruction.deriveSeed.code) :
    (carryOut keys state command).2.seed = state.seed := by
  unfold carryOut
  cases found : Instruction.ofCode? command.ins with
  | none => rfl
  | some instruction =>
      cases instruction with
      | readClassicalKey =>
          dsimp only
          unfold readClassicalKey
          split <;> rfl
      | signHash =>
          dsimp only
          unfold signHash
          split <;> rfl
      | deriveSeed => exact absurd (Instruction.code_of_ofCode? found).symm other
      | generateKey =>
          dsimp only
          unfold generateKey
          split <;> rfl
      | readPublicKey => rfl
      | signMessage => exact signMessage_seed keys state _ _
      | readSignature => rfl
      | hybridSign => exact hybridSign_seed keys state _
      | clearSign => exact clearSign_seed keys state _ _

theorem carryOut_derivation (path : Path) (algorithm : Algorithm) :
    carryOut keys state (Session.derivation path algorithm) =
      grant [] { state with seed := some (path, algorithm) } := by
  change deriveSeed state algorithm.deviceCode path.toPayload = _
  unfold deriveSeed
  rw [Path.ofPayload_toPayload, Algorithm.ofDeviceCode?_deviceCode]

variable {state}

theorem carryOut_absorb {message piece : Bytes} {p2 : UInt8} (fits : piece.length ≤ 255)
    (started : state.message = some message) :
    carryOut keys state (Instruction.signMessage.command 1 p2 piece fits) =
      grant [] { state with message := some (message ++ piece) } := by
  change signMessage keys state 1 piece = _
  unfold signMessage
  rw [if_neg (by decide), if_pos rfl, started]

theorem carryOut_finish {message : Bytes} {path : Path} {algorithm : Algorithm} {p2 : UInt8}
    (fits : (Bytes.ofNatBE 2 message.length).length ≤ 255)
    (complete : state.message = some message) (held : state.seed = some (path, algorithm))
    (short : message.length ≤ 65535) :
    carryOut keys state
        (Instruction.signMessage.command 2 p2 (Bytes.ofNatBE 2 message.length) fits) =
      grant [] { state with
        message := none, signature := keys.latticeSignature path algorithm message } := by
  have declared : Bytes.toNatBE ((Bytes.ofNatBE 2 message.length).take 2) = message.length := by
    have small : message.length < 256 ^ 2 := by omega
    rw [List.take_of_length_le (Nat.le_of_eq (Bytes.length_ofNatBE 2 _)),
      Bytes.toNatBE_ofNatBE, Nat.mod_eq_of_lt small]
  change signMessage keys state 2 (Bytes.ofNatBE 2 message.length) = _
  unfold signMessage
  rw [if_neg (by decide), if_neg (by decide), if_pos rfl]
  unfold finishMessage
  rw [complete, held]
  dsimp only
  rw [if_pos declared]

end Handlers

/-- Any answer but a success. -/
abbrev Refusal := { response : Response // response.status ≠ Response.success }

/-- An element behind a channel, and how many commands it has received. -/
structure Channel where
  state : State
  count : Nat

/-- The channel to an element that refuses some of the commands that it receives. -/
def transport (keys : Keys) (refusals : Nat → Option Refusal) : Transport Channel where
  exchange bytes := fun channel =>
    match Command.ofBytes bytes with
    | .error error => (.error (.failure error), channel)
    | .ok command =>
        match refusals channel.count with
        | some refusal => (.ok refusal.val.toBytes, ⟨channel.state, channel.count + 1⟩)
        | none =>
            let (response, state) := carryOut keys channel.state command
            (.ok response.toBytes, ⟨state, channel.count + 1⟩)
  isConnected _ := true
  release channel := channel

end SecureElement

end Countersign
