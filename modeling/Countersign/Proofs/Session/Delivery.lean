import Countersign.Proofs.Session.Failure
import Countersign.Proofs.Session.Streaming

/-!
What is sent to have a message or an operation signed. A task that works through a list of commands
sends the first of them and stops where it stops, so that what it has sent begins that list; and
because nothing is sent after a command that is not granted, whatever has been sent after a command
was sent by leave of it. A message of which a piece was lost is therefore never said to be complete,
and an operation is sent in all its parts unless one of them is refused.
-/

namespace Countersign

theorem Response.toBytes_success (data : Bytes) :
    Response.toBytes ⟨data, success⟩ = data ++ [0x90, 0x00] := by
  have word : Bytes.ofNatBE 2 success.toNat = [0x90, 0x00] := by decide
  rw [Response.toBytes, word]

/-- The command was answered with data and the status word of success, byte for byte. -/
def ChannelEvent.Acknowledged (event : ChannelEvent) : Prop :=
  ∃ command data, event = .exchanged command (.ok (data ++ [0x90, 0x00]))

theorem ChannelEvent.Granted.acknowledged {event : ChannelEvent} (granted : event.Granted) :
    event.Acknowledged := by
  cases event with
  | exchanged command reply =>
      obtain ⟨data, received⟩ := granted
      obtain ⟨raw, answered, parsed⟩ := Session.received_eq_ok received
      have bytes := Response.toBytes_of_ofBytes parsed
      rw [Response.toBytes_success] at bytes
      exact ⟨command, data, by rw [answered, bytes]⟩
  | released => exact granted.elim

theorem ChannelEvent.Acknowledged.granted {event : ChannelEvent}
    (acknowledged : event.Acknowledged) : event.Granted := by
  obtain ⟨command, data, rfl⟩ := acknowledged
  refine ⟨data, ?_⟩
  rw [← Response.toBytes_success, Session.received, Response.read_success]

namespace Session

variable {σ α β : Type}

/-- What yields something has sent nothing that was not granted. -/
theorem Traffic.acknowledged_of_ok {before after : Session (Recorded σ ChannelEvent)} {value : α}
    (traffic : Traffic before after (.ok value)) {events : List ChannelEvent}
    (log_eq : after.log = before.log ++ events) : ∀ event ∈ events, event.Acknowledged := by
  cases traffic with
  | granted others grantedLog granted _ _ =>
      rw [grantedLog] at log_eq
      rw [← List.append_cancel_left log_eq]
      exact fun event member => (granted event member).acknowledged

/-- A task has sent every command of a list and yields something, or one of the commands that it has
sent was not granted, and it has ended with that. -/
inductive WorkedThrough (script : List Bytes) (before after : Session (Recorded σ ChannelEvent)) :
    Except Halt α → Prop
  | whole (value : α) (events : List ChannelEvent) (log_eq : after.log = before.log ++ events)
      (commands_eq : events.map ChannelEvent.command? = script.map some) (isOpen : after.IsOpen) :
      WorkedThrough script before after (.ok value)
  | begun (halt : Halt) (events : List ChannelEvent) (log_eq : after.log = before.log ++ events)
      (commands_begin : events.map ChannelEvent.command? <+: script.map some)
      (refusal : ∃ event ∈ events, ¬ event.Granted) :
      WorkedThrough script before after (.error halt)

/-- From every open session a task works through a list of commands. -/
def Sends (script : List Bytes) (task : Task (Session (Recorded σ ChannelEvent)) α) : Prop :=
  ∀ session, session.IsOpen → WorkedThrough script session (task session).2 (task session).1

/-- What a task has sent begins a list of commands that are due and further ones, and unless one of
them was not granted, it has sent all that are due. -/
structure SentUpTo (due further : List Bytes) (before after : Session (Recorded σ ChannelEvent))
    (events : List ChannelEvent) : Prop where
  log_eq : after.log = before.log ++ events
  commands_begin : events.map ChannelEvent.command? <+: (due ++ further).map some
  complete : (∀ event ∈ events, event.Granted) → due.length ≤ events.length

theorem SentUpTo.due_begin {due further : List Bytes}
    {before after : Session (Recorded σ ChannelEvent)} {events : List ChannelEvent}
    (sent : SentUpTo due further before after events)
    (granted : ∀ event ∈ events, event.Granted) :
    due.map some <+: events.map ChannelEvent.command? := by
  have begins := sent.commands_begin
  have enough := sent.complete granted
  rw [List.map_append] at begins
  apply List.prefix_of_prefix_length_le (List.prefix_append _ _) begins
  rwa [List.length_map, List.length_map]

/-- From every open session a task sends the commands that are due, and then as many further ones as
it needs. -/
def SendsUpTo (due further : List Bytes) (task : Task (Session (Recorded σ ChannelEvent)) α) :
    Prop :=
  ∀ session, session.IsOpen → ∃ events, SentUpTo due further session (task session).2 events

section Rules

variable {script due further later : List Bytes}

theorem sends_pure (value : α) :
    Sends [] (pure value : Task (Session (Recorded σ ChannelEvent)) α) := by
  intro session isOpen
  exact .whole value [] (List.append_nil _).symm rfl isOpen

theorem sends_bind {task : Task (Session (Recorded σ ChannelEvent)) α}
    {next : α → Task (Session (Recorded σ ChannelEvent)) β} (first : Sends script task)
    (second : ∀ value, Sends later (next value)) : Sends (script ++ later) (task >>= next) := by
  intro session isOpen
  have start := first session isOpen
  rcases reached : task session with ⟨halt | value, between⟩
  · rw [Task.bind_error reached]
    rw [reached] at start
    cases start with
    | begun _ events log_eq commands_begin refusal =>
        refine .begun halt events log_eq ?_ refusal
        rw [List.map_append]
        exact commands_begin.trans (List.prefix_append _ _)
  · rw [Task.bind_ok reached]
    rw [reached] at start
    cases start with
    | whole _ events log_eq commands_eq stillOpen =>
        have rest := second value between stillOpen
        generalize next value between = ended at rest ⊢
        obtain ⟨result, after⟩ := ended
        have joined : ∀ others, after.log = between.log ++ others →
            after.log = session.log ++ (events ++ others) := by
          intro others laterLog
          rw [laterLog, log_eq, List.append_assoc]
        cases rest with
        | whole result others laterLog laterCommands lastOpen =>
            refine .whole result (events ++ others) (joined others laterLog) ?_ lastOpen
            rw [List.map_append, List.map_append, commands_eq, laterCommands]
        | begun halt others laterLog laterPrefix refusal =>
            refine .begun halt (events ++ others) (joined others laterLog) ?_ ?_
            · rw [List.map_append, List.map_append, commands_eq]
              exact (List.prefix_append_right_inj _).mpr laterPrefix
            · obtain ⟨event, member, notGranted⟩ := refusal
              exact ⟨event, List.mem_append_right _ member, notGranted⟩

/-- What leaves its state alone sends nothing, whatever it may still send. -/
theorem sendsUpTo_of_still {task : Task (Session (Recorded σ ChannelEvent)) α}
    (still : ∀ session, (task session).2 = session) : SendsUpTo [] further task := by
  intro session _
  rw [still session]
  exact ⟨[], (List.append_nil _).symm, List.nil_prefix, fun _ => Nat.le_refl 0⟩

theorem sendsUpTo_bind {task : Task (Session (Recorded σ ChannelEvent)) α}
    {next : α → Task (Session (Recorded σ ChannelEvent)) β} (first : Sends script task)
    (second : ∀ value, SendsUpTo due further (next value)) :
    SendsUpTo (script ++ due) further (task >>= next) := by
  intro session isOpen
  have start := first session isOpen
  rcases reached : task session with ⟨halt | value, between⟩
  · rw [Task.bind_error reached]
    rw [reached] at start
    cases start with
    | begun _ events log_eq commands_begin refusal =>
        obtain ⟨event, member, notGranted⟩ := refusal
        refine ⟨events, log_eq, ?_, fun granted => absurd (granted event member) notGranted⟩
        rw [List.append_assoc, List.map_append]
        exact commands_begin.trans (List.prefix_append _ _)
  · rw [Task.bind_ok reached]
    rw [reached] at start
    cases start with
    | whole _ events log_eq commands_eq stillOpen =>
        obtain ⟨others, laterLog, laterPrefix, complete⟩ := second value between stillOpen
        refine ⟨events ++ others, ?_, ?_, ?_⟩
        · rw [laterLog, log_eq, List.append_assoc]
        · rw [List.map_append, List.append_assoc, List.map_append, commands_eq]
          exact (List.prefix_append_right_inj _).mpr laterPrefix
        · intro granted
          have counted := congrArg List.length commands_eq
          rw [List.length_map, List.length_map] at counted
          have rest := complete fun event member => granted event (List.mem_append_right _ member)
          rw [List.length_append, List.length_append]
          omega

/-- Once all that is due has been sent, a task may end at a response that it cannot use. -/
theorem sendsUpTo_check {result : Except Error α}
    {next : α → Task (Session (Recorded σ ChannelEvent)) β}
    (rest : ∀ value, SendsUpTo [] further (next value)) :
    SendsUpTo [] further (Task.ofExcept result >>= next) := by
  cases result with
  | ok value =>
      intro session isOpen
      rw [Task.bind_ok (Task.ofExcept_ok_apply value session)]
      exact rest value session isOpen
  | error error => exact sendsUpTo_of_still fun _ => rfl

theorem SendsUpTo.map {task : Task (Session (Recorded σ ChannelEvent)) α}
    (sends : SendsUpTo due further task) (f : α → β) :
    SendsUpTo due further (task >>= fun value => pure (f value)) := by
  intro session isOpen
  rw [← Task.map_eq_bind, Task.map_apply]
  exact sends session isOpen

/-- Commands that are due may as well be further ones. -/
theorem SendsUpTo.optional {task : Task (Session (Recorded σ ChannelEvent)) α}
    (sends : SendsUpTo due further task) {wider : List Bytes} (within : due ++ further <+: wider) :
    SendsUpTo [] wider task := by
  intro session isOpen
  obtain ⟨events, log_eq, commands_begin, _⟩ := sends session isOpen
  exact ⟨events, log_eq, commands_begin.trans (within.map some), fun _ => Nat.zero_le _⟩

end Rules

/-- A command as bytes: its class, instruction and parameters, and its data after their length. -/
def commandBytes (instruction p1 p2 : UInt8) (data : Bytes) : Bytes :=
  0xE0 :: instruction :: p1 :: p2 :: UInt8.ofNat data.length :: data

/-- A message is announced, sent in pieces, and said to be complete with its length. -/
def deliveryCommands (algorithm : Algorithm) (pieces : List Bytes) (length : Nat) : List Bytes :=
  commandBytes 0x13 0 algorithm.deviceCode [] ::
    (pieces.map (commandBytes 0x13 1 algorithm.deviceCode) ++
      [commandBytes 0x13 2 algorithm.deviceCode
        [UInt8.ofNat (length / 256), UInt8.ofNat (length % 256)]])

/-- Chunks of an answer are asked for by their numbers. -/
def chunkRequests (instruction : UInt8) (algorithm : Algorithm) (index count : Nat) :
    List Bytes :=
  (List.range' index count).map fun number =>
    commandBytes instruction (UInt8.ofNat number) algorithm.deviceCode []

section Operations

variable (transport : Transport σ) (algorithm : Algorithm)

theorem sends_transmit (instruction : Instruction) (p1 p2 : UInt8) {data : Bytes}
    (fits : data.length ≤ 255) :
    Sends [commandBytes instruction.code p1 p2 data]
      (transmit transport.recorded instruction p1 p2 data) := by
  intro session isOpen
  rw [transmit_sent transport.recorded instruction p1 p2 data isOpen fits]
  have log_eq := log_sent transport (instruction.command p1 p2 data fits) session
  cases answered : received
      (session.reply transport.recorded (instruction.command p1 p2 data fits)) with
  | ok found => exact .whole found _ log_eq rfl isOpen
  | error halt =>
      exact .begun halt _ log_eq (List.prefix_refl _)
        ⟨_, List.mem_singleton_self _, ChannelEvent.not_granted_of_received answered⟩

theorem sends_absorb : ∀ pieces : List Bytes, (∀ piece ∈ pieces, piece.length ≤ 255) →
    Sends (pieces.map (commandBytes 0x13 1 algorithm.deviceCode))
      (absorb transport.recorded algorithm pieces)
  | [], _ => sends_pure ()
  | piece :: later, fit => by
      rw [List.map_cons, ← List.singleton_append]
      apply sends_bind (sends_transmit transport .signMessage _ _ (fit piece List.mem_cons_self))
      intro _
      exact sends_absorb later fun other member => fit other (List.mem_cons_of_mem _ member)

theorem chunkRequests_succ (instruction : UInt8) (index count : Nat) :
    chunkRequests instruction algorithm index (count + 1) =
      [commandBytes instruction (UInt8.ofNat index) algorithm.deviceCode []] ++
        chunkRequests instruction algorithm (index + 1) count := rfl

theorem chunkRequests_mono (instruction : UInt8) (index : Nat) {fewer more : Nat}
    (fewer_le : fewer ≤ more) :
    chunkRequests instruction algorithm index fewer <+:
      chunkRequests instruction algorithm index more := by
  obtain ⟨others, rfl⟩ := Nat.exists_eq_add_of_le fewer_le
  rw [chunkRequests, chunkRequests, ← List.range'_append_1, List.map_append]
  exact List.prefix_append _ _

theorem sendsUpTo_readChunksFrom (instruction : Instruction) :
    ∀ (index : Nat) (lengths : List Nat),
      SendsUpTo [] (chunkRequests instruction.code algorithm index lengths.length)
        (readChunksFrom transport.recorded instruction algorithm index lengths)
  | _, [] => sendsUpTo_of_still fun _ => rfl
  | index, expected :: later => by
      rw [List.length_cons, chunkRequests_succ]
      refine SendsUpTo.optional
        (sendsUpTo_bind (sends_transmit transport instruction _ _ length_nothing_le) ?_)
        (List.prefix_refl _)
      intro chunk
      apply sendsUpTo_check
      intro _
      exact (sendsUpTo_readChunksFrom instruction (index + 1) later).map _

/-- An answer is asked for chunk by chunk, and of its chunks there are no more than one byte can
number. -/
theorem sendsUpTo_readAnswer (instruction : Instruction) (length : AnswerLength) :
    SendsUpTo (chunkRequests instruction.code algorithm 0 1)
      (chunkRequests instruction.code algorithm 1 255)
      (readAnswer transport.recorded instruction algorithm length) := by
  apply sendsUpTo_bind (sends_transmit transport instruction _ _ length_nothing_le)
  intro first
  apply sendsUpTo_check
  intro total
  split
  · exact sendsUpTo_of_still fun _ => rfl
  · rename_i expected later _
    split
    · exact sendsUpTo_of_still fun _ => rfl
    · rename_i few
      have within : chunkRequests instruction.code algorithm 1 later.length <+:
          chunkRequests instruction.code algorithm 1 255 :=
        chunkRequests_mono algorithm instruction.code 1 (by omega)
      apply sendsUpTo_check
      intro _
      exact ((sendsUpTo_readChunksFrom transport algorithm instruction 1 later).optional
        within).map _

theorem ofNatBE_two (length : Nat) :
    Bytes.ofNatBE 2 length = [UInt8.ofNat (length / 256), UInt8.ofNat (length % 256)] := by
  have low : UInt8.ofNat (length % 256) = UInt8.ofNat length := by
    apply UInt8.toNat.inj
    simp
  rw [low]
  simp [Bytes.ofNatBE, Bytes.ofNatLE]

theorem signMessage_admitted {message : Bytes} {session : Session (Recorded σ ChannelEvent)}
    (isOpen : session.IsOpen) (seeded : session.derived.map Prod.snd = some algorithm)
    (admitted : message.length ≤ 65535) :
    ∃ events, SentUpTo
      (deliveryCommands algorithm (Bytes.pieces absorbLength message) message.length ++
        chunkRequests 0x14 algorithm 0 1) (chunkRequests 0x14 algorithm 1 255) session
      (signMessage transport.recorded algorithm message session).2 events := by
  have script : deliveryCommands algorithm (Bytes.pieces absorbLength message) message.length ++
      chunkRequests 0x14 algorithm 0 1 =
        [commandBytes 0x13 0 algorithm.deviceCode []] ++
          ((Bytes.pieces absorbLength message).map (commandBytes 0x13 1 algorithm.deviceCode) ++
            ([commandBytes 0x13 2 algorithm.deviceCode (Bytes.ofNatBE 2 message.length)] ++
              chunkRequests 0x14 algorithm 0 1)) := by
    rw [deliveryCommands, ofNatBE_two]
    simp
  unfold signMessage
  rw [Task.bind_ok (requireSeed_of_known algorithm seeded), if_neg (Nat.not_lt.mpr admitted),
    script]
  refine sendsUpTo_bind (sends_transmit transport .signMessage _ _ length_nothing_le) ?_
    session isOpen
  intro _
  apply sendsUpTo_bind (sends_absorb transport algorithm _ fun _ => length_le_of_absorbed)
  intro _
  apply sendsUpTo_bind (sends_transmit transport .signMessage _ _ (length_declared_le message))
  intro _
  exact sendsUpTo_readAnswer transport algorithm .readSignature _

/-- Without a seed for the scheme, and with a message whose length two bytes cannot tell, nothing
is done. -/
theorem signMessage_refused {message : Bytes} {session : Session (Recorded σ ChannelEvent)}
    (refused : session.derived.map Prod.snd ≠ some algorithm ∨ 65535 < message.length) :
    (signMessage transport.recorded algorithm message session).2 = session ∧
      ∃ reason, (signMessage transport.recorded algorithm message session).1 =
        .error (.failure (.validation reason)) := by
  unfold signMessage
  by_cases known : session.derived.map Prod.snd = some algorithm
  · have long := refused.resolve_left fun unknown => unknown known
    rw [Task.bind_ok (requireSeed_of_known algorithm known), if_pos long]
    exact ⟨rfl, _, rfl⟩
  · rw [Task.bind_error (requireSeed_of_unknown algorithm known)]
    exact ⟨rfl, _, rfl⟩

end Operations

/-- Whatever an element answers, it is sent a message as it is or not at all. Without a seed for
the scheme, or if the message is too long, signing is refused and nothing is sent. Otherwise what is
sent begins the announcement, the pieces of the message, its length, and the requests for the
signature, in this order; the pieces make the message, and all but the last are full. A command is
sent only after the one before it was acknowledged. If all that is sent is acknowledged, and so if
signing yields something, the whole message has been sent and its signature been asked for. -/
theorem message_delivered_intact (transport : Transport σ) (channel : Recorded σ ChannelEvent)
    (derived : Option (Path × Algorithm)) (algorithm : Algorithm) (message : Bytes) :
    let session : Session (Recorded σ ChannelEvent) := ⟨channel, derived, false⟩
    let signing := signMessage transport.recorded algorithm message session
    (derived.map Prod.snd ≠ some algorithm ∨ 65535 < message.length →
      signing.2 = session ∧ ∃ reason, signing.1 = .error (.failure (.validation reason))) ∧
    (derived.map Prod.snd = some algorithm → message.length ≤ 65535 →
      ∃ pieces events,
        pieces.flatten = message ∧ pieces.length = (message.length + 249) / 250 ∧
        (∀ piece ∈ pieces, piece ≠ [] ∧ piece.length ≤ 250) ∧
        (∀ piece ∈ pieces.dropLast, piece.length = 250) ∧
        signing.2.log = session.log ++ events ∧
        events.map ChannelEvent.command? <+:
          (deliveryCommands algorithm pieces message.length ++
            chunkRequests 0x14 algorithm 0 256).map some ∧
        (∀ earlier event later, events = earlier ++ event :: later → later ≠ [] →
          event.Acknowledged) ∧
        ((∃ signature, signing.1 = .ok signature) → ∀ event ∈ events, event.Acknowledged) ∧
        ((∀ event ∈ events, event.Acknowledged) → pieces.length + 2 < events.length)) := by
  intro session signing
  refine ⟨fun refused => signMessage_refused transport algorithm refused, ?_⟩
  intro seeded admitted
  have isOpen : session.IsOpen := rfl
  obtain ⟨events, log_eq, commands_begin, complete⟩ :=
    signMessage_admitted transport algorithm isOpen seeded admitted
  obtain ⟨traffic, _⟩ := heeds_signMessage transport algorithm message session isOpen
  refine ⟨Bytes.pieces absorbLength message, events, Bytes.flatten_pieces (by decide) message,
    Bytes.length_pieces_eq (by decide) message, ?_, ?_, log_eq, ?_, ?_, ?_, ?_⟩
  · intro piece member
    exact ⟨Bytes.ne_nil_of_mem_pieces (by decide) member,
      Bytes.length_le_of_mem_pieces (by decide) member⟩
  · intro piece member
    exact Bytes.length_of_mem_dropLast_pieces (by decide) member
  · rw [List.append_assoc] at commands_begin
    exact commands_begin
  · intro earlier event later split followed
    rw [split, ← List.append_assoc] at log_eq
    exact (traffic.granted_of_followed log_eq followed).acknowledged
  · rintro ⟨signature, yields⟩
    change Traffic session signing.2 signing.1 at traffic
    rw [yields] at traffic
    exact traffic.acknowledged_of_ok log_eq
  · intro acknowledged
    have enough := complete fun event member => (acknowledged event member).granted
    have due : (deliveryCommands algorithm (Bytes.pieces absorbLength message) message.length ++
        chunkRequests 0x14 algorithm 0 1).length =
          (Bytes.pieces absorbLength message).length + 3 := by
      simp [deliveryCommands, chunkRequests]
    rw [due] at enough
    exact enough

/-! ## Operations -/

/-- The part of a command as bytes, if it asks for something. -/
def partIn? (instruction : Instruction) (command : Option Bytes) : Option (UInt8 × Bytes) :=
  command.bind fun bytes => (ChannelEvent.exchanged bytes (.ok [])).partOf? instruction

theorem partOf?_eq (instruction : Instruction) (event : ChannelEvent) :
    event.partOf? instruction = partIn? instruction event.command? := by
  cases event <;> rfl

section ClearSigning

variable (transport : Transport σ) (path : Path) (algorithm : Algorithm) (operation : Operation)
  (contract : Address) (chainId : UInt64)

/-- The commands that an operation is sent in. -/
def clearCommands : List Bytes :=
  (clearScript path operation contract chainId).map fun part =>
    commandBytes 0x16 part.1 algorithm.deviceCode part.2

theorem length_of_mem_clearScript :
    ∀ part ∈ clearScript path operation contract chainId, part.2.length ≤ 255 := by
  simp only [clearScript, List.forall_mem_cons]
  refine ⟨?path, ?domain, ?fields, length_callPayload_le operation, List.forall_mem_nil _⟩
  case path => exact Nat.le_trans path.length_toPayload_le (by decide)
  case domain =>
    rw [length_domainPayload]
    decide
  case fields =>
    rw [length_fieldsPayload]
    decide

/-- The command by which a seed is derived, unless it is the one that is known. -/
def seedCommands (known : Option (Path × Algorithm)) : List Bytes :=
  if known = some (path, algorithm) then []
  else [commandBytes 0x10 0 algorithm.deviceCode path.toPayload]

theorem sends_deriveSeed :
    Sends [commandBytes 0x10 0 algorithm.deviceCode path.toPayload]
      (deriveSeed transport.recorded path algorithm) := by
  intro session isOpen
  rw [deriveSeed_open transport.recorded path algorithm isOpen]
  have log_eq := log_sent transport (derivation path algorithm) session
  cases answered : received (session.reply transport.recorded (derivation path algorithm)) with
  | ok found => exact .whole () _ log_eq rfl isOpen
  | error halt =>
      exact .begun halt _ log_eq (List.prefix_refl _)
        ⟨_, List.mem_singleton_self _, ChannelEvent.not_granted_of_received answered⟩

theorem sendsUpTo_readBoth (response : Bytes) :
    SendsUpTo [] (chunkRequests 0x14 algorithm 0 256)
      (readBoth transport.recorded algorithm response) := by
  apply sendsUpTo_check
  intro classical
  have whole := sendsUpTo_readAnswer transport algorithm .readSignature
    (.ofSignature algorithm 32)
  exact (whole.optional (List.prefix_refl _)).map _

theorem sendsUpTo_parts :
    SendsUpTo (clearCommands path algorithm operation contract chainId)
      (chunkRequests 0x14 algorithm 0 256) (do
        let _ ← transmit transport.recorded .clearSign 0 algorithm.deviceCode path.toPayload
        let _ ← transmit transport.recorded .clearSign 1 algorithm.deviceCode
          (domainPayload operation contract chainId)
        let _ ← transmit transport.recorded .clearSign 2 algorithm.deviceCode
          (fieldsPayload operation)
        let response ← transmit transport.recorded .clearSign 3 algorithm.deviceCode
          (callPayload operation)
        readBoth transport.recorded algorithm response) := by
  have fits := length_of_mem_clearScript path operation contract chainId
  simp only [clearScript, List.forall_mem_cons] at fits
  obtain ⟨path, domain, fields, call, _⟩ := fits
  apply sendsUpTo_bind (sends_transmit transport .clearSign 0 _ path)
  intro _
  apply sendsUpTo_bind (sends_transmit transport .clearSign 1 _ domain)
  intro _
  apply sendsUpTo_bind (sends_transmit transport .clearSign 2 _ fields)
  intro _
  apply sendsUpTo_bind (sends_transmit transport .clearSign 3 _ call)
  intro response
  exact sendsUpTo_readBoth transport algorithm response

theorem partIn?_commandBytes (asked sending : Instruction) (p1 p2 : UInt8) {data : Bytes}
    (fits : data.length ≤ 255) :
    partIn? asked (some (commandBytes sending.code p1 p2 data)) =
      if sending.code = asked.code then some (p1, data) else none :=
  ChannelEvent.partOf?_exchanged asked (sending.command p1 p2 data fits) (.ok [])

/-- Among the commands for an operation, its parts stand in order. -/
theorem parts_of_commands (known : Option (Path × Algorithm)) :
    ((seedCommands path algorithm known ++
        clearCommands path algorithm operation contract chainId).map some).filterMap
        (partIn? .clearSign) = clearScript path operation contract chainId := by
  have parts : ∀ part ∈ clearScript path operation contract chainId,
      partIn? .clearSign (some (commandBytes 0x16 part.1 algorithm.deviceCode part.2)) =
        some part := by
    intro part among
    have fits := length_of_mem_clearScript path operation contract chainId part among
    exact partIn?_commandBytes .clearSign .clearSign _ _ fits
  have seed :
      ((seedCommands path algorithm known).map some).filterMap (partIn? .clearSign) = [] := by
    rw [seedCommands]
    split
    · rfl
    · have pathFits : path.toPayload.length ≤ 255 :=
        Nat.le_trans path.length_toPayload_le (by decide)
      have other : partIn? .clearSign
          (some (commandBytes 0x10 0 algorithm.deviceCode path.toPayload)) = none :=
        (partIn?_commandBytes .clearSign .deriveSeed _ _ pathFits).trans (if_neg (by decide))
      rw [List.map_singleton, List.filterMap_cons_none other, List.filterMap_nil]
  rw [List.map_append, List.filterMap_append, seed, List.nil_append, clearCommands, List.map_map,
    List.filterMap_map]
  exact (List.filterMap_congr parts).trans List.filterMap_some

theorem clearSign_sent {session : Session (Recorded σ ChannelEvent)} (isOpen : session.IsOpen) :
    ∃ events, SentUpTo
      (seedCommands path algorithm session.derived ++
        clearCommands path algorithm operation contract chainId)
      (chunkRequests 0x14 algorithm 0 256) session
      (clearSign transport.recorded path algorithm operation contract chainId session).2
      events := by
  have parts := sendsUpTo_parts transport path algorithm operation contract chainId
  rw [clearSign, seedCommands]
  by_cases known : session.derived = some (path, algorithm)
  · have held : ensureSeed transport.recorded path algorithm session = (.ok (), session) := by
      rw [ensureSeed, Task.bind_ok (Task.get_apply session), if_pos known]
      rfl
    rw [Task.bind_ok held, if_pos known, List.nil_append]
    exact parts session isOpen
  · have derives : ensureSeed transport.recorded path algorithm session =
        deriveSeed transport.recorded path algorithm session := by
      rw [ensureSeed, Task.bind_ok (Task.get_apply session), if_neg known]
    rw [Task.bind_apply, derives, ← Task.bind_apply, if_neg known]
    exact sendsUpTo_bind (sends_deriveSeed transport path algorithm) (fun _ => parts) session isOpen

/-- An operation of which no part is refused is sent in all four. -/
theorem clearSign_whole {session : Session (Recorded σ ChannelEvent)} (isOpen : session.IsOpen)
    {new : List ChannelEvent}
    (log_eq : (clearSign transport.recorded path algorithm operation contract chainId
      session).2.log = session.log ++ new)
    (granted : ∀ event ∈ new, event.Granted) :
    clearScript path operation contract chainId <+:
      new.filterMap (ChannelEvent.partOf? .clearSign) := by
  obtain ⟨events, sent⟩ := clearSign_sent transport path algorithm operation contract chainId isOpen
  have same : events = new := List.append_cancel_left (sent.log_eq.symm.trans log_eq)
  subst same
  have parts : events.filterMap (ChannelEvent.partOf? .clearSign) =
      (events.map ChannelEvent.command?).filterMap (partIn? .clearSign) := by
    rw [List.filterMap_map]
    exact List.filterMap_congr fun event _ => partOf?_eq .clearSign event
  rw [parts, ← parts_of_commands path algorithm operation contract chainId session.derived]
  exact (sent.due_begin granted).filterMap _

end ClearSigning

/-- Whatever the element answers, it is sent the four parts in order, until it refuses one, and all
four if it refuses none. The second and the third determine the hash that the host computes; the
fourth is the call if it fits, and the element can tell whether it is. -/
theorem clearSign_shows_what_is_hashed (transport : Transport σ)
    (session : Session (Recorded σ ChannelEvent)) (path : Path) (algorithm : Algorithm)
    (operation : Operation) (contract : Address) (chainId : UInt64) :
    let ended := clearSign transport.recorded path algorithm operation contract chainId session
    let domain := domainPayload operation contract chainId
    let fields := fieldsPayload operation
    let call := if operation.callData.length ≤ 255 then operation.callData else []
    (∃ new, ended.2.log = session.log ++ new ∧
      let parts := new.filterMap (ChannelEvent.partOf? .clearSign)
      parts <+: [(0, path.toPayload), (1, domain), (2, fields), (3, call)] ∧
        (∀ signatures, ended.1 = .ok signatures →
          parts = [(0, path.toPayload), (1, domain), (2, fields), (3, call)]) ∧
        (session.closed = false → (∀ event ∈ new, event.Granted) →
          parts = [(0, path.toPayload), (1, domain), (2, fields), (3, call)])) ∧
    domain.length = 104 ∧ fields.length = 192 ∧
    keccak256
        ((keccak256 (Bytes.zeros 12 ++ domain.extract 52 72 ++ domain.extract 72 104 ++
            fields)).bytes ++
          Bytes.zeros 12 ++ domain.extract 32 52 ++ domain.extract 0 32) =
      operation.hash contract chainId ∧
    (call ≠ [] → (keccak256 call).bytes = fields.extract 32 64) ∧
    ((call = [] ∧ (keccak256 []).bytes ≠ fields.extract 32 64) ↔
      (255 < operation.callData.length ∧ keccak256 operation.callData ≠ keccak256 [])) := by
  intro ended domain fields call
  obtain ⟨shown, hidden⟩ := callPayload_shown operation
  obtain ⟨new, log_eq, begins, yields⟩ :=
    follows_clearSign transport path algorithm operation contract chainId session
  have whole : session.closed = false → (∀ event ∈ new, event.Granted) →
      new.filterMap (ChannelEvent.partOf? .clearSign) =
        clearScript path operation contract chainId := by
    intro isOpen granted
    have all := clearSign_whole transport path algorithm operation contract chainId isOpen log_eq
      granted
    exact begins.eq_of_length_le all.length_le
  have hashed := recomputedHash_eq operation contract chainId
  exact ⟨⟨new, log_eq, begins, yields, whole⟩, length_domainPayload operation contract chainId,
    length_fieldsPayload operation, hashed, shown, hidden⟩

/-- An element that derives a seed and grants every part of a call, and then has no signatures. -/
def granting : Session (Recorded (List Bytes) ChannelEvent) :=
  .start (.start (List.replicate 5 [0x90, 0x00]))

/-- A call of four bytes. -/
def shortCall : Operation :=
  { Operation.blank with callData := [0xB6, 0x1D, 0x27, 0xF6] }

set_option maxRecDepth 100000 in
theorem granting_granted :
    ∀ event ∈ (clearSign scripted.recorded (Path.account 0) .falcon512 shortCall
      (Octets.zero 20) 1 granting).2.log, event.Granted := by
  decide +kernel

theorem clearSign_shows_what_is_hashed_granted :
    let ended := clearSign scripted.recorded (Path.account 0) .falcon512 shortCall
      (Octets.zero 20) 1 granting
    (∀ event ∈ ended.2.log, event.Granted) ∧
      ended.2.log.filterMap (ChannelEvent.partOf? .clearSign) =
        [(0, (Path.account 0).toPayload), (1, domainPayload shortCall (Octets.zero 20) 1),
          (2, fieldsPayload shortCall), (3, [0xB6, 0x1D, 0x27, 0xF6])] ∧
      (keccak256 [0xB6, 0x1D, 0x27, 0xF6]).bytes = (fieldsPayload shortCall).extract 32 64 := by
  intro ended
  obtain ⟨⟨new, log_eq, _, _, whole⟩, _, _, _, shown, _⟩ :=
    clearSign_shows_what_is_hashed scripted granting (Path.account 0) .falcon512 shortCall
      (Octets.zero 20) 1
  have logged : ended.2.log = new := log_eq
  have granted : ∀ event ∈ new, event.Granted := logged ▸ granting_granted
  rw [logged]
  exact ⟨granted, whole rfl granted, shown (by decide)⟩

end Session

end Countersign
