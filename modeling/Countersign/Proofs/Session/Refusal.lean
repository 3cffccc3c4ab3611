import Countersign.Proofs.Session.SeedLog

/-!
A command that is not granted ends everything: what came of it is what is reported, nothing is
sent after it, and the session stays open with the seed that it knew. Only when the command was to
derive a seed is none known afterwards. That is kept by every sequence of tasks that keep it.
-/

namespace Countersign

/-- What comes of a command is no success, and is reported so: a response with another status
word, a failure of the channel, or something too short to hold a status word. -/
inductive Refuses : Except Halt Bytes → Error → Prop
  | status (data : Bytes) (word : UInt16) (other : word ≠ 0x9000) :
      Refuses (.ok (Response.toBytes ⟨data, word⟩)) (.status word)
  | channel (error : Error) : Refuses (.error (.failure error)) error
  | short (raw : Bytes) (tooShort : raw.length < 2) :
      Refuses (.ok raw) (.protocol (.statusMissing raw.length))

theorem Refuses.received_eq {reply : Except Halt Bytes} {error : Error}
    (refuses : Refuses reply error) : Session.received reply = .error (.failure error) := by
  cases refuses with
  | status data word other =>
      have refused : Response.read (Response.toBytes ⟨data, word⟩) = .error (.status word) :=
        Response.read_refusal other
      rw [Session.received, refused]
  | channel error => rfl
  | short raw tooShort =>
      have unread : Response.read raw = .error (.protocol (.statusMissing raw.length)) := by
        rw [Response.read, Response.ofBytes, if_pos tooShort]
      rw [Session.received, unread]

namespace ChannelEvent

/-- The command was answered with a success. -/
def Granted : ChannelEvent → Prop
  | exchanged _ reply => ∃ data, Session.received reply = .ok data
  | released => False

instance : DecidablePred Granted
  | exchanged _ reply =>
      match taken : Session.received reply with
      | .ok data => .isTrue ⟨data, taken⟩
      | .error _ => .isFalse fun ⟨_, received⟩ => by rw [taken] at received; cases received
  | released => .isFalse id

theorem not_granted_of_received {bytes : Bytes} {reply : Except Halt Bytes} {halt : Halt}
    (refused : Session.received reply = .error halt) : ¬ (exchanged bytes reply).Granted := by
  rintro ⟨data, received⟩
  rw [refused] at received
  cases received

/-- The seed that is known after a granted command, given the one that was known before it. -/
def seedAfter (known : Option (Path × Algorithm)) (event : ChannelEvent) :
    Option (Path × Algorithm) :=
  match event.derivation? with
  | some (command, _) =>
      match Path.ofPayload command.data, Algorithm.ofDeviceCode? command.p2 with
      | .ok (path, _), some algorithm => some (path, algorithm)
      | _, _ => none
  | none => known

end ChannelEvent

/-- The seed that is known after granted commands. -/
def seedTold (known : Option (Path × Algorithm)) (events : List ChannelEvent) :
    Option (Path × Algorithm) :=
  events.foldl ChannelEvent.seedAfter known

section SeedTold

variable (known : Option (Path × Algorithm))

@[simp] theorem seedTold_append (earlier later : List ChannelEvent) :
    seedTold known (earlier ++ later) = seedTold (seedTold known earlier) later :=
  List.foldl_append

theorem seedTold_derivation (path : Path) (algorithm : Algorithm) (reply : Except Halt Bytes) :
    seedTold known [.exchanged (Session.derivation path algorithm).toBytes reply] =
      some (path, algorithm) := by
  have isDerive : (Session.derivation path algorithm).ins = Instruction.deriveSeed.code := rfl
  have named : Path.ofPayload (Session.derivation path algorithm).data = .ok (path, []) :=
    Path.ofPayload_toPayload path
  have selected : Algorithm.ofDeviceCode? (Session.derivation path algorithm).p2 =
      some algorithm := Algorithm.ofDeviceCode?_deviceCode algorithm
  simp only [seedTold, List.foldl_cons, List.foldl_nil, ChannelEvent.seedAfter,
    ChannelEvent.derivation?_exchanged, if_pos isDerive, named, selected]

theorem seedTold_other {command : Command} (other : command.ins ≠ Instruction.deriveSeed.code)
    (reply : Except Halt Bytes) :
    seedTold known [.exchanged command.toBytes reply] = known := by
  simp only [seedTold, List.foldl_cons, List.foldl_nil, ChannelEvent.seedAfter,
    ChannelEvent.derivation?_exchanged, if_neg other]

end SeedTold

namespace Session

variable {σ τ α β : Type}

/-- What a task has done to a session when it ends: every command was granted, or the last one was
not, which is what the task ended with. -/
inductive Traffic (before after : Session (Recorded σ ChannelEvent)) : Except Halt α → Prop
  | granted {result : Except Halt α} (events : List ChannelEvent)
      (log_eq : after.log = before.log ++ events) (granted : ∀ event ∈ events, event.Granted)
      (closed_eq : after.closed = before.closed)
      (derived_eq : after.derived = seedTold before.derived events) : Traffic before after result
  | refused {halt : Halt} (earlier : List ChannelEvent) (command : Command)
      (reply : Except Halt Bytes)
      (log_eq : after.log = before.log ++ earlier ++ [.exchanged command.toBytes reply])
      (granted : ∀ event ∈ earlier, event.Granted) (refusal : received reply = .error halt)
      (closed_eq : after.closed = before.closed)
      (derived_eq : after.derived =
        if command.ins = Instruction.deriveSeed.code then none
        else seedTold before.derived earlier) : Traffic before after (.error halt)

namespace Traffic

variable {before between after : Session (Recorded σ ChannelEvent)}

theorem refl (session : Session (Recorded σ ChannelEvent)) (result : Except Halt α) :
    Traffic session session result :=
  .granted [] (List.append_nil _).symm (by simp) rfl rfl

theorem trans {value : α} {result : Except Halt β}
    (first : Traffic before between (.ok value)) (second : Traffic between after result) :
    Traffic before after result := by
  cases first with
  | granted events log_eq granted closed_eq derived_eq =>
      cases second with
      | granted later laterLog laterGranted laterClosed laterDerived =>
          refine .granted (events ++ later) ?_ ?_ (laterClosed.trans closed_eq) ?_
          · rw [laterLog, log_eq, List.append_assoc]
          · exact List.forall_mem_append.mpr ⟨granted, laterGranted⟩
          · rw [laterDerived, derived_eq, seedTold_append]
      | refused later command reply laterLog laterGranted refusal laterClosed laterDerived =>
          refine .refused (events ++ later) command reply ?_ ?_ refusal
            (laterClosed.trans closed_eq) ?_
          · rw [laterLog, log_eq, List.append_assoc before.log]
          · exact List.forall_mem_append.mpr ⟨granted, laterGranted⟩
          · rw [laterDerived, derived_eq, seedTold_append]

/-- A task that stops where a command is refused cannot stop in another way. -/
theorem of_error {halt : Halt} (traffic : Traffic (α := α) before after (.error halt)) :
    Traffic (α := β) before after (.error halt) := by
  cases traffic with
  | granted events log_eq granted closed_eq derived_eq =>
      exact .granted events log_eq granted closed_eq derived_eq
  | refused earlier command reply log_eq granted refusal closed_eq derived_eq =>
      exact .refused earlier command reply log_eq granted refusal closed_eq derived_eq

end Traffic

/-- From every state that is ready, a task ends as its traffic tells; if it yields something, the
state that it leaves is ready. -/
def Heeds (view : τ → Session (Recorded σ ChannelEvent)) (ready : τ → Prop) (task : Task τ α) :
    Prop :=
  ∀ state, ready state →
    Traffic (view state) (view (task state).2) (task state).1 ∧
      ∀ value, (task state).1 = .ok value → ready (task state).2

section Rules

variable {view : τ → Session (Recorded σ ChannelEvent)} {ready : τ → Prop}

/-- What leaves its state alone sends nothing. -/
theorem heeds_of_still {task : Task τ α} (still : ∀ state, (task state).2 = state) :
    Heeds view ready task := by
  intro state start
  rw [still state]
  exact ⟨.refl _ _, fun _ _ => start⟩

theorem heeds_pure (value : α) : Heeds view ready (pure value : Task τ α) :=
  heeds_of_still fun _ => rfl

theorem heeds_fail (error : Error) : Heeds view ready (Task.fail error : Task τ α) :=
  heeds_of_still fun _ => rfl

theorem heeds_ofExcept (result : Except Error α) : Heeds view ready (Task.ofExcept result) :=
  heeds_of_still (Task.ofExcept_still result)

theorem heeds_bind {task : Task τ α} {next : α → Task τ β} (first : Heeds view ready task)
    (second : ∀ value, Heeds view ready (next value)) : Heeds view ready (task >>= next) := by
  intro state start
  obtain ⟨traffic, kept⟩ := first state start
  rcases reached : task state with ⟨halt | value, later⟩
  · rw [reached] at traffic
    rw [Task.bind_error reached]
    refine ⟨traffic.of_error, ?_⟩
    intro value yields
    cases yields
  · rw [reached] at traffic kept
    rw [Task.bind_ok reached]
    obtain ⟨rest, keptLater⟩ := second value later (kept value rfl)
    exact ⟨traffic.trans rest, keptLater⟩

theorem heeds_map {task : Task τ α} (f : α → β) (heeds : Heeds view ready task) :
    Heeds view ready (f <$> task) := by
  rw [Task.map_eq_bind]
  exact heeds_bind heeds fun value => heeds_pure (f value)

end Rules

/-- The session sends what it is told to. -/
def IsOpen (session : Session σ) : Prop :=
  session.closed = false

section Commands

variable (transport : Transport σ)

theorem heeds_transmit {instruction : Instruction} (other : instruction ≠ .deriveSeed)
    (p1 p2 : UInt8) (data : Bytes) :
    Heeds id IsOpen (transmit transport.recorded instruction p1 p2 data) := by
  intro session isOpen
  by_cases fits : data.length ≤ 255
  · rw [transmit_sent transport.recorded instruction p1 p2 data isOpen fits]
    refine ⟨?_, fun _ _ => isOpen⟩
    have notDerive : (instruction.command p1 p2 data fits).ins ≠ Instruction.deriveSeed.code :=
      fun same => other (Instruction.code_injective same)
    cases answered : received
        (session.reply transport.recorded (instruction.command p1 p2 data fits)) with
    | ok found =>
        refine .granted _ (log_sent transport _ session) ?_ rfl ?_
        · exact List.forall_mem_singleton.mpr ⟨found, answered⟩
        · exact (seedTold_other _ notDerive _).symm
    | error halt =>
        refine .refused [] _ _ ?_ (by simp) answered rfl (if_neg notDerive).symm
        rw [List.append_nil]
        exact log_sent transport _ session
  · rw [transmit_tooLong transport.recorded instruction p1 p2 data isOpen fits]
    refine ⟨.refl _ _, ?_⟩
    intro value yields
    cases yields

theorem heeds_deriveSeed (path : Path) (algorithm : Algorithm) :
    Heeds id IsOpen (deriveSeed transport.recorded path algorithm) := by
  intro session isOpen
  rw [deriveSeed_open transport.recorded path algorithm isOpen]
  refine ⟨?_, fun _ _ => isOpen⟩
  have isDerive : (derivation path algorithm).ins = Instruction.deriveSeed.code := rfl
  cases answered : received (session.reply transport.recorded (derivation path algorithm)) with
  | ok found =>
      refine .granted _ (log_sent transport (derivation path algorithm) session) ?_ rfl ?_
      · exact List.forall_mem_singleton.mpr ⟨found, answered⟩
      · simp only [id_eq, seedTold_derivation, Session.seedAfter, answered]
  | error halt =>
      refine .refused [] (derivation path algorithm) _ ?_ (by simp) answered rfl ?_
      · rw [List.append_nil]
        exact log_sent transport (derivation path algorithm) session
      · simp only [id_eq, if_pos isDerive, Session.seedAfter, answered]

end Commands

/-! ## Everything that can be asked -/

section Operations

variable (transport : Transport σ) (path : Path) (algorithm : Algorithm)

theorem heeds_readClassicalKey :
    Heeds id IsOpen (readClassicalKey transport.recorded path) := by
  apply heeds_bind (heeds_transmit transport (by decide) _ _ _)
  intro key
  apply heeds_bind (heeds_ofExcept _)
  intro _
  exact heeds_pure key

theorem heeds_readAddress : Heeds id IsOpen (readAddress transport.recorded path) := by
  apply heeds_bind (heeds_readClassicalKey transport path)
  intro key
  exact heeds_ofExcept _

theorem heeds_signHash (hash : Hash) :
    Heeds id IsOpen (signHash transport.recorded path hash) := by
  apply heeds_bind (heeds_transmit transport (by decide) _ _ _)
  intro response
  exact heeds_ofExcept _

theorem heeds_ensureSeed : Heeds id IsOpen (ensureSeed transport.recorded path algorithm) := by
  intro session isOpen
  rw [ensureSeed, Task.bind_ok (Task.get_apply session)]
  by_cases known : session.derived = some (path, algorithm)
  · rw [if_pos known]
    exact heeds_pure () session isOpen
  · rw [if_neg known]
    exact heeds_deriveSeed transport path algorithm session isOpen

theorem heeds_requireSeed :
    Heeds id IsOpen (requireSeed algorithm : Task (Session (Recorded σ ChannelEvent)) Unit) := by
  apply heeds_of_still
  intro session
  rw [requireSeed, Task.bind_ok (Task.get_apply session)]
  split <;> rfl

theorem heeds_readChunksFrom {instruction : Instruction} (other : instruction ≠ .deriveSeed) :
    ∀ (index : Nat) (lengths : List Nat),
      Heeds id IsOpen (readChunksFrom transport.recorded instruction algorithm index lengths)
  | _, [] => heeds_pure _
  | index, expected :: later => by
      apply heeds_bind (heeds_transmit transport other _ _ _)
      intro chunk
      apply heeds_bind (heeds_ofExcept _)
      intro _
      apply heeds_bind (heeds_readChunksFrom other (index + 1) later)
      intro rest
      exact heeds_pure _

theorem heeds_readAnswer {instruction : Instruction} (other : instruction ≠ .deriveSeed)
    (length : AnswerLength) :
    Heeds id IsOpen (readAnswer transport.recorded instruction algorithm length) := by
  apply heeds_bind (heeds_transmit transport other _ _ _)
  intro first
  apply heeds_bind (heeds_ofExcept _)
  intro total
  split
  · exact heeds_fail _
  · split
    · exact heeds_fail _
    · apply heeds_bind (heeds_ofExcept _)
      intro _
      apply heeds_bind (heeds_readChunksFrom transport algorithm other _ _)
      intro rest
      exact heeds_pure _

theorem heeds_absorb :
    ∀ pieces : List Bytes, Heeds id IsOpen (absorb transport.recorded algorithm pieces)
  | [] => heeds_pure ()
  | piece :: later => by
      apply heeds_bind (heeds_transmit transport (by decide) _ _ _)
      intro _
      exact heeds_absorb later

theorem heeds_generateKey : Heeds id IsOpen (generateKey transport.recorded algorithm) := by
  apply heeds_bind (heeds_requireSeed algorithm)
  intro _
  apply heeds_bind (heeds_transmit transport (by decide) _ _ _)
  intro _
  exact heeds_readAnswer transport algorithm (by decide) _

theorem heeds_signMessage (message : Bytes) :
    Heeds id IsOpen (signMessage transport.recorded algorithm message) := by
  apply heeds_bind (heeds_requireSeed algorithm)
  intro _
  split
  · exact heeds_fail _
  · apply heeds_bind (heeds_transmit transport (by decide) _ _ _)
    intro _
    apply heeds_bind (heeds_absorb transport algorithm _)
    intro _
    apply heeds_bind (heeds_transmit transport (by decide) _ _ _)
    intro _
    exact heeds_readAnswer transport algorithm (by decide) _

theorem heeds_readBoth (response : Bytes) :
    Heeds id IsOpen (readBoth transport.recorded algorithm response) := by
  apply heeds_bind (heeds_ofExcept _)
  intro classical
  apply heeds_bind (heeds_readAnswer transport algorithm (by decide) _)
  intro postQuantum
  exact heeds_pure _

theorem heeds_hybridSign (hash : Hash) :
    Heeds id IsOpen (hybridSign transport.recorded path algorithm hash) := by
  apply heeds_bind (heeds_ensureSeed transport path algorithm)
  intro _
  apply heeds_bind (heeds_transmit transport (by decide) _ _ _)
  intro response
  exact heeds_readBoth transport algorithm response

theorem heeds_clearSign (operation : Operation) (contract : Address) (chainId : UInt64) :
    Heeds id IsOpen
      (clearSign transport.recorded path algorithm operation contract chainId) := by
  apply heeds_bind (heeds_ensureSeed transport path algorithm)
  intro _
  apply heeds_bind (heeds_transmit transport (by decide) _ _ _)
  intro _
  apply heeds_bind (heeds_transmit transport (by decide) _ _ _)
  intro _
  apply heeds_bind (heeds_transmit transport (by decide) _ _ _)
  intro _
  apply heeds_bind (heeds_transmit transport (by decide) _ _ _)
  intro response
  exact heeds_readBoth transport algorithm response

end Operations

theorem heeds_perform (transport : Transport σ) (action : Action) :
    Heeds id IsOpen (perform transport.recorded action) := by
  cases action with
  | readClassicalKey path => exact heeds_map _ (heeds_readClassicalKey transport path)
  | readAddress path => exact heeds_map _ (heeds_readAddress transport path)
  | signHash path hash => exact heeds_map _ (heeds_signHash transport path hash)
  | deriveSeed path algorithm => exact heeds_map _ (heeds_deriveSeed transport path algorithm)
  | ensureSeed path algorithm => exact heeds_map _ (heeds_ensureSeed transport path algorithm)
  | generateKey algorithm => exact heeds_map _ (heeds_generateKey transport algorithm)
  | signMessage algorithm message =>
      exact heeds_map _ (heeds_signMessage transport algorithm message)
  | hybridSign path algorithm hash =>
      exact heeds_map _ (heeds_hybridSign transport path algorithm hash)
  | clearSign path algorithm operation contract chainId =>
      exact heeds_map _ (heeds_clearSign transport path algorithm operation contract chainId)

/-- Wherever a refusal stands among the new events of a log, it is the last of them and is
reported, and the session is left as it was before that command. -/
def Reported (before after : Session (Recorded σ ChannelEvent)) (report : Error → Prop) : Prop :=
  ∀ earlier bytes reply later error,
    after.log = before.log ++ earlier ++ .exchanged bytes reply :: later → Refuses reply error →
      report error ∧ later = [] ∧ after.closed = before.closed ∧
        after.derived =
          if bytes[1]? = some Instruction.deriveSeed.code then none
          else seedTold before.derived earlier

theorem Reported.mono {before after : Session (Recorded σ ChannelEvent)}
    {report wider : Error → Prop} (reported : Reported before after report)
    (widen : ∀ error, report error → wider error) :
    Reported before after wider := by
  intro earlier bytes reply later error log_eq refuses
  obtain ⟨holds, rest⟩ := reported earlier bytes reply later error log_eq refuses
  exact ⟨widen error holds, rest⟩

/-- A command that was followed by another one was granted. -/
theorem Traffic.granted_of_followed {before after : Session (Recorded σ ChannelEvent)}
    {result : Except Halt α} (traffic : Traffic before after result)
    {earlier later : List ChannelEvent} {event : ChannelEvent}
    (log_eq : after.log = before.log ++ earlier ++ event :: later) (followed : later ≠ []) :
    event.Granted := by
  rw [List.append_assoc] at log_eq
  cases traffic with
  | granted events grantedLog granted _ _ =>
      rw [grantedLog] at log_eq
      have same := List.append_cancel_left log_eq
      exact granted event (by simp [same])
  | refused others command reply refusedLog granted _ _ _ =>
      rw [refusedLog, List.append_assoc] at log_eq
      have same := List.append_cancel_left log_eq
      obtain ⟨initial, last, rfl⟩ := (List.eq_nil_or_concat later).resolve_left followed
      have shorter : others ++ [.exchanged command.toBytes reply] =
          (earlier ++ event :: initial) ++ [last] := by
        rw [same]
        simp
      obtain ⟨rfl, _⟩ := List.append_inj' shorter rfl
      exact granted event (by simp)

theorem Traffic.reported {before after : Session (Recorded σ ChannelEvent)}
    {result : Except Halt α} (traffic : Traffic before after result) :
    Reported before after fun error => result = .error (.failure error) := by
  intro earlier bytes reply later error split refuses
  have notGranted : ¬ (ChannelEvent.exchanged bytes reply).Granted :=
    ChannelEvent.not_granted_of_received refuses.received_eq
  by_cases followed : later = []
  · subst followed
    cases traffic with
    | granted events log_eq granted closed_eq derived_eq =>
        rw [log_eq, List.append_assoc] at split
        have same := List.append_cancel_left split
        exact absurd (granted _ (by simp [same])) notGranted
    | refused others command answer log_eq granted refusal closed_eq derived_eq =>
        rw [log_eq, List.append_assoc, List.append_assoc] at split
        obtain ⟨rfl, event⟩ := List.append_inj' (List.append_cancel_left split) rfl
        cases event
        rw [refuses.received_eq] at refusal
        cases refusal
        have second : command.toBytes[1]? = some command.ins := rfl
        refine ⟨rfl, rfl, closed_eq, ?_⟩
        simp only [second, Option.some.injEq, derived_eq]
  · exact absurd (traffic.granted_of_followed split followed) notGranted

/-- While every command is granted, the session knows the seed that its log tells of. -/
theorem Traffic.told {before after : Session (Recorded σ ChannelEvent)} {result : Except Halt α}
    (traffic : Traffic before after result) :
    ∃ events, after.log = before.log ++ events ∧
      ((∀ event ∈ events, event.Granted) → after.derived = seedTold before.derived events) := by
  cases traffic with
  | granted events log_eq _ _ derived_eq => exact ⟨events, log_eq, fun _ => derived_eq⟩
  | refused earlier command reply log_eq _ refusal _ _ =>
      refine ⟨earlier ++ [.exchanged command.toBytes reply], ?_, ?_⟩
      · rw [log_eq, List.append_assoc]
      · intro granted
        exact absurd (granted _ (List.mem_append_right _ (List.mem_singleton_self _)))
          (ChannelEvent.not_granted_of_received refusal)

end Session

end Countersign
