import Countersign.Proofs.Path.Grammar
import Countersign.Proofs.Path.Payload
import Countersign.Proofs.Session.Closing
import Countersign.Proofs.Session.Failure

/-!
What a session sends is one short command at a time, whatever it is asked and whatever comes back.
Every kind of command has room for the data that it is given, because paths are short and all else
is of a known length or cut to it, so that no command is ever refused for the length of its data.
-/

namespace Countersign

namespace Path

theorem exists_ofComponents_iff {components : List UInt32} :
    (∃ path, ofComponents components = .ok path ∧ path.components = components) ↔
      components.length ≤ 10 := by
  constructor
  · rintro ⟨path, _, rfl⟩
    exact path.depth_le
  · exact fun shallow => ⟨⟨components, shallow⟩, dif_pos shallow, rfl⟩

theorem exists_spells_of_parse {text : String} {path : Path} (read : parse text = .ok path) :
    ∃ written, Spells written text ∧ written.length = path.components.length ∧
      written.length ≤ 10 := by
  obtain ⟨written, spelled, denoted⟩ := spells_of_parse read
  exact ⟨written, spelled, denoted.length_eq, denoted.length_eq ▸ path.depth_le⟩

theorem head?_of_ofPayload {bytes rest : Bytes} {path : Path}
    (read : ofPayload bytes = .ok (path, rest)) :
    ∃ count, bytes.head? = some count ∧ count.toNat = path.components.length ∧
      count.toNat ≤ 10 := by
  have shallow := path.depth_le
  have counted : (UInt8.ofNat path.components.length).toNat = path.components.length := by
    rw [UInt8.toNat_ofNat']
    omega
  obtain rfl := ofPayload_eq_ok_iff.mp read
  refine ⟨_, rfl, counted, ?_⟩
  rw [counted]
  exact shallow

/-- A document is read as a path just if its value is a text that is read as the path. -/
theorem exists_parse_of_ofJson {document : String} {path : Path}
    (read : ofJson document = .ok path) : ∃ text, parse text = .ok path := by
  rw [ofJson, Json.readDocument] at read
  cases found : Json.parse? .any document with
  | none =>
      rw [found] at read
      cases read
  | some value =>
      rw [found] at read
      cases text : Json.text? value with
      | none => simp [Json.decode, ofValue?, text] at read
      | some text' =>
          refine ⟨text', ?_⟩
          cases parsed : parse text' with
          | error error => simp [Json.decode, ofValue?, text, parsed, Except.toOption] at read
          | ok other => simpa [Json.decode, ofValue?, text, parsed, Except.toOption] using read

end Path

/-- The most data of a command, by its instruction and its first parameter: a path, a path and a
hash, a piece of a message or its length, the words of an operation, or a call that can be shown. -/
def Instruction.room (instruction : Instruction) (p1 : UInt8) : Nat :=
  match instruction with
  | .readClassicalKey | .deriveSeed => 41
  | .signHash | .hybridSign => 73
  | .generateKey | .readPublicKey | .readSignature => 0
  | .signMessage => if p1 = 0 then 0 else if p1 = 1 then 250 else 2
  | .clearSign => if p1 = 0 then 41 else if p1 = 1 then 104 else if p1 = 2 then 192 else 255

theorem Instruction.room_le (instruction : Instruction) (p1 : UInt8) :
    instruction.room p1 ≤ 255 := by
  cases instruction <;> grind [room]

/-- The frame of a command of a session: it is read as the command and the command is written as
the frame, its class is that of all commands, and its fifth byte counts the data behind it. They
are 255 bytes at most, and no more than a command with this instruction has room for. -/
structure FrameOf (command : Command) (frame : Bytes) : Prop where
  read : Command.ofBytes frame = .ok command
  written : command.toBytes = frame
  classed : command.cla = 0xE0
  counted : (frame[4]?).map UInt8.toNat = some command.data.length
  behind : frame.drop 5 = command.data
  short : command.data.length ≤ 255
  roomy : ∃ instruction : Instruction, command.ins = instruction.code ∧
    command.data.length ≤ instruction.room command.p1

theorem frameOf_command (instruction : Instruction) (p1 p2 : UInt8) (data : Bytes)
    (fits : data.length ≤ 255) (small : data.length ≤ instruction.room p1) :
    FrameOf (instruction.command p1 p2 data fits)
      (instruction.command p1 p2 data fits).toBytes := by
  have declared := (instruction.command p1 p2 data fits).declared_eq
  exact ⟨Command.ofBytes_toBytes _, rfl, rfl, congrArg some declared, rfl, fits, instruction, rfl,
    small⟩

/-- What was sent is a frame. -/
def ChannelEvent.Framed : ChannelEvent → Prop
  | exchanged frame _ => ∃ command, FrameOf command frame
  | released => True

namespace Session

variable {σ α β : Type}

/-- The log has grown by frames since. -/
def GrownFrom (log : List ChannelEvent) (session : Session (Recorded σ ChannelEvent)) : Prop :=
  ∃ events, session.log = log ++ events ∧ ∀ event ∈ events, event.Framed

/-- If the end is that data do not fit a command, then the channel itself ended so when the last
command was sent. -/
def EndsFitting (log : List ChannelEvent) (halt : Halt)
    (session : Session (Recorded σ ChannelEvent)) : Prop :=
  GrownFrom log session ∧ ∀ length, halt = .failure (.validation (.payloadTooLong length)) →
    ∃ earlier frame, session.log = log ++ earlier ++ [.exchanged frame (.error halt)]

/-- A task that sends nothing but frames, and whose data always fit a command. -/
abbrev Fits (log : List ChannelEvent) (task : Task (Session (Recorded σ ChannelEvent)) α) : Prop :=
  Task.Ends (GrownFrom log) task (fun _ => GrownFrom log) (EndsFitting log)

variable {log : List ChannelEvent}

theorem GrownFrom.append {session later : Session (Recorded σ ChannelEvent)}
    (grown : GrownFrom log session) {event : ChannelEvent} (framed : event.Framed)
    (log_eq : later.log = session.log ++ [event]) : GrownFrom log later := by
  obtain ⟨events, grown, allFramed⟩ := grown
  refine ⟨events ++ [event], ?_, ?_⟩
  · rw [log_eq, grown, List.append_assoc]
  · exact List.forall_mem_append.mpr ⟨allFramed, List.forall_mem_singleton.mpr framed⟩

/-- An end that is not about the length of data. -/
theorem GrownFrom.endsFitting {session : Session (Recorded σ ChannelEvent)}
    (grown : GrownFrom log session) {halt : Halt}
    (other : ∀ length, halt ≠ .failure (.validation (.payloadTooLong length))) :
    EndsFitting log halt session :=
  ⟨grown, fun length same => absurd same (other length)⟩

theorem fits_pure (value : α) :
    Fits log (pure value : Task (Session (Recorded σ ChannelEvent)) α) :=
  Task.ends_pure fun _ grown => grown

theorem fits_fail {error : Error}
    (other : ∀ length, error ≠ .validation (.payloadTooLong length)) :
    Fits log (Task.fail error : Task (Session (Recorded σ ChannelEvent)) α) :=
  Task.ends_fail fun _ grown => grown.endsFitting fun length same =>
    other length (Halt.failure.inj same)

theorem fits_ofExcept {result : Except Error α}
    (other : ∀ length, result ≠ .error (.validation (.payloadTooLong length))) :
    Fits log (Task.ofExcept result : Task (Session (Recorded σ ChannelEvent)) α) := by
  cases result with
  | ok value => exact fits_pure value
  | error error => exact fits_fail fun length same => other length (congrArg Except.error same)

/-- What fails as a violation at most does not fail for the length of data. -/
theorem fits_violation {result : Except Error α}
    (only : ∀ error, result = .error error → ∃ violation, error = .protocol violation) :
    Fits log (Task.ofExcept result : Task (Session (Recorded σ ChannelEvent)) α) := by
  apply fits_ofExcept
  intro length failed
  obtain ⟨violation, same⟩ := only _ failed
  cases same

theorem fits_map {task : Task (Session (Recorded σ ChannelEvent)) α} (f : α → β)
    (fits : Fits log task) : Fits log (f <$> task) := by
  rw [Task.map_eq_bind]
  exact Task.ends_bind fits fun value => fits_pure (f value)

theorem fits_modify {change : Session (Recorded σ ChannelEvent) → Session (Recorded σ ChannelEvent)}
    (kept : ∀ session, (change session).log = session.log) :
    Fits log (modify change : Task (Session (Recorded σ ChannelEvent)) Unit) := by
  rintro session ⟨events, grown, framed⟩
  refine ⟨fun _ _ => ⟨events, (kept session).trans grown, framed⟩, ?_⟩
  intro halt ended
  cases ended

/-- A command with room for its data is sent as a frame, unless the session is closed. -/
theorem fits_transmit (transport : Transport σ) {instruction : Instruction} {p1 : UInt8}
    (p2 : UInt8) {data : Bytes} (small : data.length ≤ instruction.room p1) :
    Fits log (transmit transport.recorded instruction p1 p2 data) := by
  have fits : data.length ≤ 255 := Nat.le_trans small (instruction.room_le p1)
  intro session grown
  cases isOpen : session.closed with
  | true =>
      rw [transmit_closed transport.recorded instruction p1 p2 data isOpen]
      have other : ∀ length, Error.channel .closed ≠ .validation (.payloadTooLong length) := by simp
      exact fits_fail other session grown
  | false =>
      rw [transmit_sent transport.recorded instruction p1 p2 data isOpen fits]
      have logged := log_sent transport (instruction.command p1 p2 data fits) session
      have framed := frameOf_command instruction p1 p2 data fits small
      have later := grown.append (show (ChannelEvent.exchanged _ _).Framed from ⟨_, framed⟩) logged
      refine ⟨fun _ _ => later, ?_⟩
      intro halt failed
      refine ⟨later, ?_⟩
      rintro length rfl
      obtain ⟨events, grown, _⟩ := grown
      refine ⟨events, (instruction.command p1 p2 data fits).toBytes, ?_⟩
      cases replied : session.reply transport.recorded (instruction.command p1 p2 data fits) with
      | error other =>
          rw [replied] at failed logged
          cases failed
          rw [logged, grown]
      | ok raw =>
          rw [replied] at failed
          have accounts : Accounts (.ok raw) _ := accounts_of_received (by simp) failed
          cases accounts

/-! ## Everything that can be asked -/

section Operations

variable (transport : Transport σ) (path : Path) (algorithm : Algorithm)

theorem fits_readClassicalKey : Fits log (readClassicalKey transport.recorded path) := by
  apply Task.ends_bind (fits_transmit transport 0 path.length_toPayload_le)
  intro key
  apply Task.ends_bind (fits_violation fun _ => checkPoint_eq_error)
  intro _
  exact fits_pure key

theorem fits_readAddress : Fits log (readAddress transport.recorded path) := by
  apply Task.ends_bind (fits_readClassicalKey transport path)
  intro key
  apply fits_ofExcept
  intro length failed
  unfold Address.ofPublicKey at failed
  split at failed
  · split at failed
    · cases failed
    · split at failed
      · split at failed <;> cases failed
      · cases failed
  · cases failed

/-- A signature that the element sends is wrong in its form or in its scalars. -/
theorem fits_readClassicalSignature (response : Bytes) :
    Fits log (Task.ofExcept (readClassicalSignature response) :
      Task (Session (Recorded σ ChannelEvent)) Signature) := by
  apply fits_ofExcept
  intro length failed
  rcases readClassicalSignature_eq_error failed with ⟨violation, same⟩ | ⟨same, _⟩ <;> cases same

theorem length_hashPayload (hash : Hash) : (hashPayload path hash).length ≤ 73 := by
  have short := path.length_toPayload_le
  rw [hashPayload, List.length_append, hash.length_bytes]
  omega

theorem fits_signHash (hash : Hash) : Fits log (signHash transport.recorded path hash) := by
  apply Task.ends_bind (fits_transmit transport 0 (length_hashPayload path hash))
  intro response
  exact fits_readClassicalSignature response

theorem fits_deriveSeed : Fits log (deriveSeed transport.recorded path algorithm) := by
  unfold deriveSeed
  refine Task.ends_bind (fits_modify fun _ => rfl) fun _ => ?_
  refine Task.ends_bind (fits_transmit transport algorithm.deviceCode path.length_toPayload_le)
    fun _ => ?_
  exact fits_modify fun _ => rfl

theorem fits_ensureSeed : Fits log (ensureSeed transport.recorded path algorithm) := by
  intro session grown
  rw [ensureSeed, Task.bind_ok (Task.get_apply session)]
  by_cases known : session.derived = some (path, algorithm)
  · rw [if_pos known]
    exact fits_pure () session grown
  · rw [if_neg known]
    exact fits_deriveSeed transport path algorithm session grown

theorem fits_requireSeed :
    Fits log (requireSeed algorithm : Task (Session (Recorded σ ChannelEvent)) Unit) := by
  intro session grown
  rw [requireSeed, Task.bind_ok (Task.get_apply session)]
  split
  · exact fits_pure () session grown
  · exact fits_fail (by simp) session grown

theorem fits_readChunksFrom (instruction : Instruction) :
    ∀ (index : Nat) (lengths : List Nat),
      Fits log (readChunksFrom transport.recorded instruction algorithm index lengths)
  | _, [] => fits_pure _
  | index, expected :: later => by
      apply Task.ends_bind (fits_transmit transport algorithm.deviceCode (Nat.zero_le _))
      intro chunk
      apply Task.ends_bind (fits_violation fun _ => checkChunk_eq_error)
      intro _
      apply Task.ends_bind (fits_readChunksFrom instruction (index + 1) later)
      intro rest
      exact fits_pure _

/-- An answer is asked for without data. -/
theorem fits_readAnswer (instruction : Instruction) (length : AnswerLength) :
    Fits log (readAnswer transport.recorded instruction algorithm length) := by
  apply Task.ends_bind (fits_transmit transport algorithm.deviceCode (Nat.zero_le _))
  intro first
  apply Task.ends_bind (fits_violation fun _ unknown => ⟨_, total_eq_error unknown⟩)
  intro total
  split
  · exact fits_fail (by simp)
  · split
    · exact fits_fail (by simp)
    · apply Task.ends_bind (fits_violation fun _ => checkChunk_eq_error)
      intro _
      apply Task.ends_bind (fits_readChunksFrom transport algorithm instruction _ _)
      intro rest
      exact fits_pure _

theorem fits_absorb : ∀ pieces : List Bytes, (∀ piece ∈ pieces, piece.length ≤ absorbLength) →
    Fits log (absorb transport.recorded algorithm pieces)
  | [], _ => fits_pure ()
  | piece :: later, short => by
      obtain ⟨here, rest⟩ := List.forall_mem_cons.mp short
      apply Task.ends_bind (fits_transmit transport algorithm.deviceCode here)
      intro _
      exact fits_absorb later rest

theorem fits_generateKey : Fits log (generateKey transport.recorded algorithm) := by
  apply Task.ends_bind (fits_requireSeed algorithm)
  intro _
  apply Task.ends_bind (fits_transmit transport algorithm.deviceCode (Nat.zero_le _))
  intro _
  exact fits_readAnswer transport algorithm _ _

theorem fits_signMessage (message : Bytes) :
    Fits log (signMessage transport.recorded algorithm message) := by
  have short : ∀ piece ∈ Bytes.pieces absorbLength message, piece.length ≤ absorbLength :=
    fun piece member => Bytes.length_le_of_mem_pieces (by decide) member
  have counted : (Bytes.ofNatBE 2 message.length).length ≤ Instruction.signMessage.room 2 := by
    rw [Bytes.length_ofNatBE]
    decide
  apply Task.ends_bind (fits_requireSeed algorithm)
  intro _
  split
  · exact fits_fail (by simp)
  · apply Task.ends_bind (fits_transmit transport algorithm.deviceCode (Nat.zero_le _))
    intro _
    apply Task.ends_bind (fits_absorb transport algorithm _ short)
    intro _
    apply Task.ends_bind (fits_transmit transport algorithm.deviceCode counted)
    intro _
    exact fits_readAnswer transport algorithm _ _

theorem fits_readBoth (response : Bytes) :
    Fits log (readBoth transport.recorded algorithm response) := by
  apply Task.ends_bind (fits_readClassicalSignature response)
  intro classical
  apply Task.ends_bind (fits_readAnswer transport algorithm _ _)
  intro postQuantum
  exact fits_pure _

theorem fits_hybridSign (hash : Hash) :
    Fits log (hybridSign transport.recorded path algorithm hash) := by
  apply Task.ends_bind (fits_ensureSeed transport path algorithm)
  intro _
  apply Task.ends_bind (fits_transmit transport algorithm.deviceCode (length_hashPayload path hash))
  intro response
  exact fits_readBoth transport algorithm response

theorem fits_clearSign (operation : Operation) (contract : Address) (chainId : UInt64) :
    Fits log (clearSign transport.recorded path algorithm operation contract chainId) := by
  have domain := (length_domainPayload operation contract chainId).le
  have fields := (length_fieldsPayload operation).le
  apply Task.ends_bind (fits_ensureSeed transport path algorithm)
  intro _
  apply Task.ends_bind (fits_transmit transport algorithm.deviceCode path.length_toPayload_le)
  intro _
  apply Task.ends_bind (fits_transmit transport algorithm.deviceCode domain)
  intro _
  apply Task.ends_bind (fits_transmit transport algorithm.deviceCode fields)
  intro _
  apply Task.ends_bind
    (fits_transmit transport algorithm.deviceCode (length_callPayload_le operation))
  intro response
  exact fits_readBoth transport algorithm response

end Operations

theorem fits_perform (transport : Transport σ) (action : Action) :
    Fits log (perform transport.recorded action) := by
  cases action with
  | readClassicalKey path => exact fits_map _ (fits_readClassicalKey transport path)
  | readAddress path => exact fits_map _ (fits_readAddress transport path)
  | signHash path hash => exact fits_map _ (fits_signHash transport path hash)
  | deriveSeed path algorithm => exact fits_map _ (fits_deriveSeed transport path algorithm)
  | ensureSeed path algorithm => exact fits_map _ (fits_ensureSeed transport path algorithm)
  | generateKey algorithm => exact fits_map _ (fits_generateKey transport algorithm)
  | signMessage algorithm message => exact fits_map _ (fits_signMessage transport algorithm message)
  | hybridSign path algorithm hash =>
      exact fits_map _ (fits_hybridSign transport path algorithm hash)
  | clearSign path algorithm operation contract chainId =>
      exact fits_map _ (fits_clearSign transport path algorithm operation contract chainId)

theorem GrownFrom.run {session : Session (Recorded σ ChannelEvent)} (grown : GrownFrom log session)
    (transport : Transport σ) (use : Use) :
    GrownFrom log (use.run transport.recorded session) := by
  cases use with
  | perform action =>
      obtain ⟨yielded, halted⟩ := fits_perform transport action session grown
      cases ended : (perform transport.recorded action session).1 with
      | ok answer => exact yielded answer ended
      | error halt => exact (halted halt ended).1
  | close =>
      cases isOpen : session.closed with
      | true =>
          rw [Use.run, close_of_closed isOpen]
          exact grown
      | false =>
          rw [Use.run, close_of_open isOpen]
          exact grown.append (show ChannelEvent.released.Framed from trivial) rfl

theorem GrownFrom.runUses {session : Session (Recorded σ ChannelEvent)}
    (grown : GrownFrom log session) (transport : Transport σ) (uses : List Use) :
    GrownFrom log (runUses transport.recorded uses session) := by
  induction uses generalizing session with
  | nil => exact grown
  | cons use later inductionHypothesis => exact inductionHypothesis (grown.run transport use)

theorem grownFrom_log (session : Session (Recorded σ ChannelEvent)) :
    GrownFrom session.log session :=
  ⟨[], (List.append_nil _).symm, by simp⟩

end Session

/-- Whatever is done with a session in whatever state, and whatever comes back, all that is sent are
frames of short commands with room for their data. No task fails because its data do not fit a
command; if it ends so, then because the channel said so of a command that was sent to it. The
paths that the data name have ten components at most, by whichever way they were made. -/
theorem Session.frames_well_formed :
    (∀ {σ : Type} (transport : Transport σ) (session : Session (Recorded σ ChannelEvent))
      (uses : List Use), ∃ events,
        (runUses transport.recorded uses session).log = session.log ++ events ∧
          ∀ frame reply, .exchanged frame reply ∈ events → ∃ command, FrameOf command frame) ∧
      (∀ {σ : Type} (transport : Transport σ) (session : Session (Recorded σ ChannelEvent))
        (action : Action) (length : Nat),
          let (result, after) := perform transport.recorded action session
          let tooLong : Halt := .failure (.validation (.payloadTooLong length))
          result = .error tooLong → ∃ earlier frame,
            after.log = session.log ++ earlier ++ [.exchanged frame (.error tooLong)]) ∧
      (∀ components : List UInt32,
        (∃ path, Path.ofComponents components = .ok path ∧ path.components = components) ↔
          components.length ≤ 10) ∧
      (∀ index : UInt32, (Path.account index).components.length = 5) ∧
      (∀ (text : String) (path : Path), Path.parse text = .ok path →
        ∃ written, Path.Spells written text ∧ written.length = path.components.length ∧
          written.length ≤ 10) ∧
      (∀ (bytes rest : Bytes) (path : Path), Path.ofPayload bytes = .ok (path, rest) →
        ∃ count, bytes.head? = some count ∧ count.toNat = path.components.length ∧
          count.toNat ≤ 10) ∧
      (∀ (document : String) (path : Path), Path.ofJson document = .ok path →
        ∃ text, Path.parse text = .ok path) := by
  refine ⟨?frames, ?fitting, fun _ => Path.exists_ofComponents_iff, fun _ => rfl,
    fun _ _ => Path.exists_spells_of_parse, fun _ _ _ => Path.head?_of_ofPayload,
    fun _ _ => Path.exists_parse_of_ofJson⟩
  case frames =>
    intro σ transport session uses
    obtain ⟨events, log_eq, framed⟩ := (grownFrom_log session).runUses transport uses
    exact ⟨events, log_eq, fun frame reply among => framed _ among⟩
  case fitting =>
    intro σ transport session action length failed
    have ends := fits_perform transport action session (grownFrom_log session)
    exact (ends.2 _ failed).2 length rfl

end Countersign
