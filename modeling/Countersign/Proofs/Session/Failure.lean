import Countersign.Proofs.Session.ClearSigning
import Countersign.Proofs.Session.Reading
import Countersign.Proofs.Session.Refusal
import Countersign.Proofs.Signature

/-!
Whose fault it is when something that is asked of a session fails after the element has been heard.
The last thing that came from the element accounts for the failure: the channel failed, the element
refused, or what it said has the wrong form. One failure does not say so: a signature of the right
form with scalars out of range is reported as if the caller had handed it in.
-/

namespace Countersign

/-- The two components of a signature as the element sends it are not both scalars of the
curve. -/
def OutOfRange (response : Bytes) : Prop :=
  let r := Bytes.toNatBE (response.extract 1 33)
  let s := Bytes.toNatBE (response.extract 33 65)
  ¬ ((0 < r ∧ r < Curve.order) ∧ 0 < s ∧ s < Curve.order)

/-- What came of a command accounts for a failure. -/
inductive Accounts : Except Halt Bytes → Error → Prop
  | channel (fault : ChannelFault) : Accounts (.error (.failure (.channel fault))) (.channel fault)
  | status (data : Bytes) (word : UInt16) (other : word ≠ 0x9000) :
      Accounts (.ok (Response.toBytes ⟨data, word⟩)) (.status word)
  | violation (reply : Except Halt Bytes) (violation : Violation) :
      Accounts reply (.protocol violation)
  | scalars (response : Bytes) (form : response.length = 65) (outOfRange : OutOfRange response) :
      Accounts (.ok (Response.toBytes ⟨response, 0x9000⟩)) (.signature .scalars)

/-- Of these failures, the one for scalars out of range passes for a refusal of an argument. -/
theorem Accounts.isValidation_iff {reply : Except Halt Bytes} {error : Error}
    (accounts : Accounts reply error) :
    error.isValidation = true ↔ error = .signature .scalars := by
  cases accounts <;> simp [Error.isValidation]

/-- A channel fails as a channel, and in no other way. -/
def Transport.FailsAsChannel {σ : Type} (transport : Transport σ) : Prop :=
  ∀ command channel error, (transport.exchange command channel).1 = .error (.failure error) →
    ∃ fault, error = .channel fault

theorem accounts_of_received {reply : Except Halt Bytes} {error : Error}
    (channelOnly : ∀ error, reply = .error (.failure error) → ∃ fault, error = .channel fault)
    (failed : Session.received reply = .error (.failure error)) : Accounts reply error := by
  rcases reply with halt | raw
  · cases failed
    obtain ⟨fault, rfl⟩ := channelOnly error rfl
    exact .channel fault
  · cases parsed : Response.ofBytes raw with
    | error violation =>
        rw [Session.received, Response.read, parsed] at failed
        cases failed
        rw [Response.ofBytes] at parsed
        split at parsed
        · cases parsed
          exact .violation _ _
        · cases parsed
    | ok response =>
        rw [Session.received, Response.read_of_parsed parsed] at failed
        by_cases succeeds : response.status = Response.success
        · rw [if_pos succeeds] at failed
          cases failed
        · rw [if_neg succeeds] at failed
          cases failed
          rw [← Response.toBytes_of_ofBytes parsed]
          exact .status response.data response.status succeeds

section Signatures

variable {response : Bytes} {signature : Signature} {error : Error}

theorem Signature.ofDeviceBytes_eq_ok (read : Signature.ofDeviceBytes response = .ok signature) :
    response.length = 65 ∧ (signature.v = 27 ∨ signature.v = 28) ∧
      signature.r.bytes = response.extract 1 33 ∧ signature.s.bytes = response.extract 33 65 := by
  unfold Signature.ofDeviceBytes Signature.ofParts at read
  split at read
  · rename_i r s byte first second _
    obtain ⟨lifted, accepted, made⟩ := Result.map_eq_ok read
    have firstBytes := Octets.ofBytes?_eq_some first
    have secondBytes := Octets.ofBytes?_eq_some second
    have long : response.length = 65 := by
      have width := congrArg List.length secondBytes
      rw [s.length_bytes, List.length_drop] at width
      omega
    subst made
    refine ⟨long, Signature.chainRecovery_eq_ok accepted, ?_, ?_⟩
    · rw [firstBytes, List.extract_eq_take_drop]
    · rw [secondBytes, List.extract_eq_take_drop, List.take_of_length_le]
      simp [long]
  · cases read

/-- With a recovery byte of the chain, only the scalars can be wrong. -/
theorem Signature.normalize_eq_error (lifted : signature.v = 27 ∨ signature.v = 28)
    (failed : signature.normalize = .error error) :
    error = .signature .scalars ∧
      ¬ ((0 < signature.r.toNat ∧ signature.r.toNat < Curve.order) ∧
        0 < signature.s.toNat ∧ signature.s.toNat < Curve.order) := by
  have recovery : signature.checkRecovery = .ok (signature.v - 27) := by
    simp [Signature.checkRecovery, Signature.recoveryNumber?, lifted]
  rw [Signature.normalize, Signature.checkScalars, recovery] at failed
  by_cases scalars : (Curve.isScalar signature.r.toNat && Curve.isScalar signature.s.toNat) = true
  · rw [if_pos scalars, Result.ok_bind, Result.ok_bind] at failed
    split at failed <;> cases failed
  · rw [if_neg scalars] at failed
    cases failed
    exact ⟨rfl, by simpa [Curve.isScalar] using scalars⟩

theorem Session.readClassicalSignature_eq_error
    (failed : Session.readClassicalSignature response = .error error) :
    (∃ violation, error = .protocol violation) ∨
      (error = .signature .scalars ∧ response.length = 65 ∧ OutOfRange response) := by
  rw [Session.readClassicalSignature] at failed
  cases read : Signature.ofDeviceBytes response with
  | error fault =>
      rw [read] at failed
      cases failed
      exact .inl ⟨_, rfl⟩
  | ok signature =>
      rw [read] at failed
      obtain ⟨long, lifted, r, s⟩ := Signature.ofDeviceBytes_eq_ok read
      obtain ⟨kind, outOfRange⟩ := Signature.normalize_eq_error lifted failed
      rw [Octets.toNat, Octets.toNat, r, s] at outOfRange
      exact .inr ⟨kind, long, outOfRange⟩

end Signatures

namespace Session

variable {σ α β : Type}

/-- The last thing that came from the element is a success with these data. -/
def Told (data : Bytes) (session : Session (Recorded σ ChannelEvent)) : Prop :=
  ∃ earlier bytes,
    session.log = earlier ++ [.exchanged bytes (.ok (Response.toBytes ⟨data, 0x9000⟩))]

/-- The element has been heard, and the session is open. -/
def Engaged (session : Session (Recorded σ ChannelEvent)) : Prop :=
  session.IsOpen ∧ ∃ data, session.Told data

/-- The last thing that came from the element accounts for a failure. A crash is none. -/
def Blamed (halt : Halt) (session : Session (Recorded σ ChannelEvent)) : Prop :=
  ∀ error, halt = .failure error →
    ∃ earlier bytes reply, session.log = earlier ++ [.exchanged bytes reply] ∧ Accounts reply error

theorem Engaged.blamed {session : Session (Recorded σ ChannelEvent)} (engaged : session.Engaged)
    (violation : Violation) : Blamed (.failure (.protocol violation)) session := by
  obtain ⟨_, data, earlier, bytes, log_eq⟩ := engaged
  intro error same
  cases same
  exact ⟨earlier, bytes, _, log_eq, .violation _ violation⟩

/-- Everything that fails is accounted for by what the element said, from the states of a kind. -/
abbrev Owns (before : Session (Recorded σ ChannelEvent) → Prop)
    (task : Task (Session (Recorded σ ChannelEvent)) α)
    (after : α → Session (Recorded σ ChannelEvent) → Prop) : Prop :=
  Task.Ends before task after Blamed

theorem owns_violation {before : Session (Recorded σ ChannelEvent) → Prop}
    {result : Except Error α} (engaged : ∀ session, before session → session.Engaged)
    (only : ∀ error, result = .error error → ∃ violation, error = .protocol violation) :
    Owns before (Task.ofExcept result) fun value session => before session ∧ result = .ok value := by
  apply Task.ends_ofExcept
  intro error failed session start
  obtain ⟨violation, rfl⟩ := only error failed
  exact (engaged session start).blamed violation

section Commands

variable {transport : Transport σ} (channelOnly : transport.FailsAsChannel)

include channelOnly

theorem owns_transmit (instruction : Instruction) (p1 p2 : UInt8) {data : Bytes}
    (fits : data.length ≤ 255) :
    Owns IsOpen (transmit transport.recorded instruction p1 p2 data)
      fun found session => session.IsOpen ∧ session.Told found := by
  intro session isOpen
  rw [transmit_sent transport.recorded instruction p1 p2 data isOpen fits]
  have logged := log_sent transport (instruction.command p1 p2 data fits) session
  refine ⟨?_, ?_⟩
  · intro found yields
    obtain ⟨raw, replied, granted⟩ := received_eq_ok yields
    rw [replied, ← Response.toBytes_of_ofBytes granted] at logged
    exact ⟨isOpen, _, _, logged⟩
  · intro halt failed error same
    subst same
    exact ⟨_, _, _, logged, accounts_of_received
      (fun error refused => channelOnly _ _ error refused) failed⟩

theorem owns_send (instruction : Instruction) (p1 p2 : UInt8) {data : Bytes}
    (fits : data.length ≤ 255) :
    Owns IsOpen (transmit transport.recorded instruction p1 p2 data) fun _ => Engaged :=
  (owns_transmit channelOnly instruction p1 p2 fits).weaken (fun _ isOpen => isOpen)
    fun found _ told => ⟨told.1, found, told.2⟩

theorem owns_sendAgain (instruction : Instruction) (p1 p2 : UInt8) {data : Bytes}
    (fits : data.length ≤ 255) :
    Owns Engaged (transmit transport.recorded instruction p1 p2 data) fun _ => Engaged :=
  (owns_send channelOnly instruction p1 p2 fits).weaken (fun _ engaged => engaged.1)
    fun _ _ engaged => engaged

theorem owns_deriveSeed (path : Path) (algorithm : Algorithm) :
    Owns IsOpen (deriveSeed transport.recorded path algorithm) fun _ => IsOpen := by
  intro session isOpen
  have sent := owns_transmit channelOnly .deriveSeed 0 algorithm.deviceCode
    (derivation path algorithm).length_le session isOpen
  rw [transmit_sent transport.recorded _ _ _ _ isOpen] at sent
  rw [deriveSeed_open transport.recorded path algorithm isOpen]
  refine ⟨fun _ _ => isOpen, ?_⟩
  intro halt failed
  cases answered : received (session.reply transport.recorded (derivation path algorithm)) with
  | ok data =>
      rw [answered] at failed
      cases failed
  | error other =>
      rw [answered] at failed
      cases failed
      exact sent.2 halt answered

theorem owns_ensureSeed (path : Path) (algorithm : Algorithm) :
    Owns IsOpen (ensureSeed transport.recorded path algorithm) fun _ => IsOpen := by
  intro session isOpen
  rw [ensureSeed, Task.bind_ok (Task.get_apply session)]
  by_cases known : session.derived = some (path, algorithm)
  · rw [if_pos known]
    exact Task.ends_pure (fun _ start => start) session isOpen
  · rw [if_neg known]
    exact owns_deriveSeed channelOnly path algorithm session isOpen

end Commands

section Answers

variable {transport : Transport σ} (channelOnly : transport.FailsAsChannel)
  (algorithm : Algorithm)

theorem checkChunk_eq_error {index expected : Nat} {chunk : Bytes} {error : Error}
    (failed : checkChunk index expected chunk = .error error) :
    ∃ violation, error = .protocol violation := by
  rw [checkChunk] at failed
  split at failed
  · cases failed
  · cases failed
    exact ⟨_, rfl⟩

include channelOnly

theorem owns_readChunksFrom (instruction : Instruction) :
    ∀ (index : Nat) (lengths : List Nat),
      Owns Engaged (readChunksFrom transport.recorded instruction algorithm index lengths)
        fun _ => Engaged
  | _, [] => Task.ends_pure fun _ start => start
  | index, expected :: later => by
      apply Task.ends_bind (owns_sendAgain channelOnly instruction _ _ (by simp))
      intro chunk
      apply Task.ends_bind (owns_violation (fun _ engaged => engaged) fun _ => checkChunk_eq_error)
      intro _
      apply Task.ends_bind ((owns_readChunksFrom instruction (index + 1) later).weaken
        (fun _ checked => checked.1) fun _ _ engaged => engaged)
      intro rest
      exact Task.ends_pure fun _ start => start

theorem owns_readAnswer (instruction : Instruction) (length : AnswerLength) :
    Owns IsOpen (readAnswer transport.recorded instruction algorithm length)
      fun _ => Engaged := by
  apply Task.ends_bind (owns_send channelOnly instruction _ _ (by simp))
  intro first
  apply Task.ends_bind (owns_violation (fun _ engaged => engaged) fun _ unknown =>
    ⟨_, total_eq_error unknown⟩)
  intro total
  split
  · exact Task.ends_fail fun _ measured => measured.1.blamed _
  · split
    · exact Task.ends_fail fun _ measured => measured.1.blamed _
    · apply Task.ends_bind (owns_violation (fun _ measured => measured.1) fun _ =>
        checkChunk_eq_error)
      intro _
      apply Task.ends_bind ((owns_readChunksFrom channelOnly algorithm instruction _ _).weaken
        (fun _ checked => checked.1.1) fun _ _ engaged => engaged)
      intro rest
      exact Task.ends_pure fun _ start => start

end Answers

section Operations

variable {transport : Transport σ} (channelOnly : transport.FailsAsChannel) (path : Path)
  (algorithm : Algorithm)

theorem checkPoint_eq_error {key : Bytes} {error : Error} (failed : checkPoint key = .error error) :
    ∃ violation, error = .protocol violation := by
  rw [checkPoint] at failed
  split at failed
  · cases failed
  · cases failed
    exact ⟨_, rfl⟩

/-- What is accepted as a point has an address. -/
theorem ofPublicKey_of_checkPoint {key : Bytes} {accepted : Unit}
    (checked : checkPoint key = .ok accepted) :
    ∃ address, Address.ofPublicKey key = .ok address := by
  rw [checkPoint] at checked
  split at checked
  · rename_i point
    obtain ⟨long, marked⟩ := point
    cases key with
    | nil => cases marked
    | cons mark coordinates =>
        simp only [List.head?_cons, Option.some.injEq] at marked
        have both : coordinates.length = 64 := by simpa using long
        refine ⟨Address.ofCoordinates coordinates, ?_⟩
        simp [Address.ofPublicKey, both, marked]
  · cases checked

theorem owns_readSignature (response : Bytes) :
    Owns (fun session : Session (Recorded σ ChannelEvent) =>
        session.IsOpen ∧ session.Told response)
      (Task.ofExcept (readClassicalSignature response)) fun _ => Engaged := by
  apply Task.Ends.weaken (Task.ends_ofExcept ?_) (fun _ told => told)
    (fun _ _ read => ⟨read.1.1, response, read.1.2⟩)
  intro error failed session told
  rcases readClassicalSignature_eq_error failed with ⟨violation, rfl⟩ | ⟨rfl, form, outOfRange⟩
  · exact Engaged.blamed ⟨told.1, response, told.2⟩ violation
  · obtain ⟨_, earlier, bytes, log_eq⟩ := told
    intro error same
    cases same
    exact ⟨earlier, bytes, _, log_eq, .scalars response form outOfRange⟩

include channelOnly

theorem owns_readClassicalKey :
    Owns IsOpen (readClassicalKey transport.recorded path)
      fun key session => session.Engaged ∧ checkPoint key = .ok () := by
  have short := path.length_toPayload_le
  apply Task.ends_bind (owns_send channelOnly .readClassicalKey 0 0 (by omega))
  intro key
  apply Task.ends_bind (owns_violation (fun _ engaged => engaged) fun _ => checkPoint_eq_error)
  intro _
  exact Task.ends_pure fun _ checked => checked

theorem owns_readAddress :
    Owns IsOpen (readAddress transport.recorded path) fun _ => Engaged := by
  apply Task.ends_bind (owns_readClassicalKey channelOnly path)
  intro key
  apply Task.Ends.weaken (Task.ends_ofExcept ?_) (fun _ checked => checked)
    (fun _ _ found => found.1.1)
  intro error failed session checked
  obtain ⟨address, found⟩ := ofPublicKey_of_checkPoint checked.2
  rw [found] at failed
  cases failed

theorem owns_signHash (hash : Hash) :
    Owns IsOpen (signHash transport.recorded path hash) fun _ => Engaged := by
  apply Task.ends_bind (owns_transmit channelOnly .signHash 0 0 (length_hashPayload_le path hash))
  intro response
  exact owns_readSignature response

theorem owns_absorb : ∀ pieces : List Bytes, (∀ piece ∈ pieces, piece.length ≤ 255) →
    Owns IsOpen (absorb transport.recorded algorithm pieces) fun _ => IsOpen
  | [], _ => Task.ends_pure fun _ start => start
  | piece :: later, short => by
      obtain ⟨here, rest⟩ := List.forall_mem_cons.mp short
      apply Task.ends_bind (owns_send channelOnly .signMessage _ _ here)
      intro _
      exact (owns_absorb later rest).weaken (fun _ engaged => engaged.1) fun _ _ isOpen => isOpen

theorem owns_readBoth (response : Bytes) :
    Owns (fun session => session.IsOpen ∧ session.Told response)
      (readBoth transport.recorded algorithm response) fun _ => Engaged := by
  apply Task.ends_bind (owns_readSignature response)
  intro classical
  apply Task.ends_bind ((owns_readAnswer channelOnly algorithm _ _).weaken
    (fun _ engaged => engaged.1) fun _ _ engaged => engaged)
  intro postQuantum
  exact Task.ends_pure fun _ start => start

theorem owns_hybridSign (hash : Hash) :
    Owns IsOpen (hybridSign transport.recorded path algorithm hash) fun _ => Engaged := by
  apply Task.ends_bind (owns_ensureSeed channelOnly path algorithm)
  intro _
  apply Task.ends_bind (owns_transmit channelOnly .hybridSign _ _ (length_hashPayload_le path hash))
  intro response
  exact owns_readBoth channelOnly algorithm response

theorem owns_clearSign (operation : Operation) (contract : Address) (chainId : UInt64) :
    Owns IsOpen (clearSign transport.recorded path algorithm operation contract chainId)
      fun _ => Engaged := by
  have pathFits := path.length_toPayload_le
  have domainFits := length_domainPayload operation contract chainId
  have fieldsFit := length_fieldsPayload operation
  have callFits : (callPayload operation).length ≤ 255 := by
    rw [callPayload]
    split <;> simp_all
  apply Task.ends_bind (owns_ensureSeed channelOnly path algorithm)
  intro _
  apply Task.ends_bind (owns_send channelOnly .clearSign 0 _ (by omega))
  intro _
  apply Task.ends_bind (owns_sendAgain channelOnly .clearSign 1 _ (by omega))
  intro _
  apply Task.ends_bind (owns_sendAgain channelOnly .clearSign 2 _ (by omega))
  intro _
  apply Task.ends_bind ((owns_transmit channelOnly .clearSign 3 _ callFits).weaken
    (fun _ engaged => engaged.1) fun _ _ told => told)
  intro response
  exact owns_readBoth channelOnly algorithm response

end Operations

/-! ## Failures before contact -/

/-- A failure is accounted for by what the element said, unless the session is as it was. -/
def OwnsOnceHeard (task : Task (Session (Recorded σ ChannelEvent)) α) : Prop :=
  ∀ session : Session (Recorded σ ChannelEvent), session.IsOpen →
    ∀ halt, (task session).1 = .error halt →
      (task session).2 = session ∨ Blamed halt (task session).2

theorem ownsOnceHeard_of_owns {task : Task (Session (Recorded σ ChannelEvent)) α}
    {after : α → Session (Recorded σ ChannelEvent) → Prop} (owns : Owns IsOpen task after) :
    OwnsOnceHeard task :=
  fun session isOpen halt failed => .inr ((owns session isOpen).2 halt failed)

theorem ownsOnceHeard_map {task : Task (Session (Recorded σ ChannelEvent)) α} (f : α → β)
    (owns : OwnsOnceHeard task) : OwnsOnceHeard (f <$> task) := by
  intro session isOpen halt failed
  rw [Task.map_apply] at failed ⊢
  apply owns session isOpen halt
  cases result : (task session).1 with
  | ok value =>
      rw [result] at failed
      cases failed
  | error other =>
      rw [result] at failed
      cases failed
      rfl

/-- A seed that is missing is noticed before anything is sent. -/
theorem ownsOnceHeard_requireSeed {algorithm : Algorithm}
    {next : Unit → Task (Session (Recorded σ ChannelEvent)) α}
    (owns : OwnsOnceHeard (next ())) : OwnsOnceHeard (requireSeed algorithm >>= next) := by
  intro session isOpen halt failed
  by_cases known : session.derived.map Prod.snd = some algorithm
  · rw [Task.bind_ok (requireSeed_of_known algorithm known)] at failed ⊢
    exact owns session isOpen halt failed
  · rw [Task.bind_error (requireSeed_of_unknown algorithm known)]
    exact .inl rfl

section Operations

variable {transport : Transport σ} (channelOnly : transport.FailsAsChannel)
  (algorithm : Algorithm)

include channelOnly

theorem ownsOnceHeard_generateKey :
    OwnsOnceHeard (generateKey transport.recorded algorithm) := by
  apply ownsOnceHeard_requireSeed
  apply ownsOnceHeard_of_owns
  apply Task.ends_bind (owns_send channelOnly .generateKey _ _ (by simp))
  intro _
  exact (owns_readAnswer channelOnly algorithm _ _).weaken (fun _ engaged => engaged.1)
    fun _ _ engaged => engaged

theorem ownsOnceHeard_signMessage (message : Bytes) :
    OwnsOnceHeard (signMessage transport.recorded algorithm message) := by
  apply ownsOnceHeard_requireSeed
  by_cases long : 65535 < message.length
  · rw [if_pos long]
    intro session isOpen halt failed
    exact .inl rfl
  · rw [if_neg long]
    have short : ∀ piece ∈ Bytes.pieces absorbLength message, piece.length ≤ 255 :=
      fun piece member =>
        Nat.le_trans (Bytes.length_le_of_mem_pieces (by decide) member) (by decide)
    apply ownsOnceHeard_of_owns
    apply Task.ends_bind (owns_send channelOnly .signMessage 0 _ (by simp))
    intro _
    apply Task.ends_bind ((owns_absorb channelOnly algorithm _ short).weaken
      (fun _ engaged => engaged.1) fun _ _ isOpen => isOpen)
    intro _
    apply Task.ends_bind (owns_send channelOnly .signMessage 2 _ (by simp))
    intro _
    exact (owns_readAnswer channelOnly algorithm _ _).weaken (fun _ engaged => engaged.1)
      fun _ _ engaged => engaged

theorem ownsOnceHeard_perform (action : Action) :
    OwnsOnceHeard (perform transport.recorded action) := by
  cases action with
  | readClassicalKey path =>
      exact ownsOnceHeard_map _ (ownsOnceHeard_of_owns (owns_readClassicalKey channelOnly path))
  | readAddress path =>
      exact ownsOnceHeard_map _ (ownsOnceHeard_of_owns (owns_readAddress channelOnly path))
  | signHash path hash =>
      exact ownsOnceHeard_map _ (ownsOnceHeard_of_owns (owns_signHash channelOnly path hash))
  | deriveSeed path algorithm =>
      exact ownsOnceHeard_map _ (ownsOnceHeard_of_owns (owns_deriveSeed channelOnly path algorithm))
  | ensureSeed path algorithm =>
      exact ownsOnceHeard_map _ (ownsOnceHeard_of_owns (owns_ensureSeed channelOnly path algorithm))
  | generateKey algorithm =>
      exact ownsOnceHeard_map _ (ownsOnceHeard_generateKey channelOnly algorithm)
  | signMessage algorithm message =>
      exact ownsOnceHeard_map _ (ownsOnceHeard_signMessage channelOnly algorithm message)
  | hybridSign path algorithm hash =>
      exact ownsOnceHeard_map _
        (ownsOnceHeard_of_owns (owns_hybridSign channelOnly path algorithm hash))
  | clearSign path algorithm operation contract chainId =>
      exact ownsOnceHeard_map _ (ownsOnceHeard_of_owns
        (owns_clearSign channelOnly path algorithm operation contract chainId))

end Operations

/-- A closed session sends nothing. -/
theorem steps_of_closed {transport : Transport σ} {owner : Option (Path × Algorithm)}
    {before after : Session (Recorded σ ChannelEvent)}
    (steps : Relation.ReflTransGen (Step transport.recorded owner) before after)
    (closed : before.closed = true) : after.closed = true ∧ after.log = before.log := by
  refine ⟨(closed_eq_of_steps steps).trans closed, ?_⟩
  induction steps with
  | refl => rfl
  | tail earlier step inductionHypothesis =>
      have closedBefore := (closed_eq_of_steps earlier).trans closed
      cases step with
      | forget => exact inductionHypothesis
      | classical _ _ _ _ _ isOpen _ =>
          rw [closedBefore] at isOpen
          cases isOpen
      | derive _ _ isOpen =>
          rw [closedBefore] at isOpen
          cases isOpen
      | lattice _ _ _ _ _ isOpen _ _ _ _ _ _ =>
          rw [closedBefore] at isOpen
          cases isOpen

/-- Once a command was exchanged, the last thing that came back accounts for every failure. The
failure passes for the refusal of an argument if and only if it is that of a signature of the right
form with scalars out of range. -/
theorem failures_after_contact (transport : Transport σ) (channelOnly : transport.FailsAsChannel)
    (action : Action) (session : Session (Recorded σ ChannelEvent)) (error : Error)
    (failed : (perform transport.recorded action session).1 = .error (.failure error))
    (contact : (perform transport.recorded action session).2.log ≠ session.log) :
    (∃ earlier bytes reply,
      (perform transport.recorded action session).2.log =
        session.log ++ earlier ++ [.exchanged bytes reply] ∧ Accounts reply error) ∧
    (error.isValidation = true ↔ error = .signature .scalars) := by
  cases isOpen : session.closed with
  | true =>
      obtain ⟨steps, _⟩ := runs_perform transport.recorded action session trivial
      exact absurd (steps_of_closed steps isOpen).2 contact
  | false =>
      obtain ⟨events, grown, _⟩ :
          ∃ events, (perform transport.recorded action session).2.log = session.log ++ events ∧ _ :=
        (heeds_perform transport action session isOpen).1.told
      rcases ownsOnceHeard_perform channelOnly action session isOpen _ failed with same | blamed
      · rw [same] at contact
        exact absurd rfl contact
      · obtain ⟨whole, bytes, reply, log_eq, accounts⟩ := blamed error rfl
        refine ⟨?_, accounts.isValidation_iff⟩
        rcases List.eq_nil_or_concat events with rfl | ⟨earlier, last, rfl⟩
        · rw [List.append_nil] at grown
          exact absurd grown contact
        · rw [List.concat_eq_append, ← List.append_assoc] at grown
          rw [grown] at log_eq ⊢
          obtain ⟨_, event⟩ := List.append_inj' log_eq rfl
          cases event
          exact ⟨earlier, bytes, reply, rfl, accounts⟩

theorem scripted_failsAsChannel : scripted.FailsAsChannel := by
  intro command responses error failed
  cases responses with
  | nil =>
      cases failed
      exact ⟨_, rfl⟩
  | cons response later => cases failed

theorem failures_after_contact_declined :
    let session := start (Recorded.start [[0x69, 0x85]])
    let action := Action.signHash (Path.account 0) (Octets.zero 32)
    scripted.FailsAsChannel ∧
      (perform scripted.recorded action session).1 = .error (.failure (.status 0x6985)) ∧
      (perform scripted.recorded action session).2.log ≠ session.log ∧
      (Error.status 0x6985).isValidation = false := by
  intro session action
  have failed :
      (perform scripted.recorded action session).1 = .error (.failure (.status 0x6985)) := rfl
  have contact : (perform scripted.recorded action session).2.log ≠ session.log :=
    List.cons_ne_nil _ _
  obtain ⟨_, kind⟩ :=
    failures_after_contact scripted scripted_failsAsChannel action session _ failed contact
  refine ⟨scripted_failsAsChannel, failed, contact, ?_⟩
  rw [← Bool.not_eq_true, kind]
  simp

/-- A signature of sixty-five bytes with a valid recovery byte, and both scalars zero. -/
def zeroScalars : Bytes :=
  0x1b :: Bytes.zeros 64

/-- Not every failure after contact is one of the element: the caller is blamed for scalars that
the element sent. -/
theorem zeroScalars_blamed_on_caller :
    ¬ ∀ (action : Action) (session : Session (Recorded (List Bytes) ChannelEvent)) (error : Error),
      (perform scripted.recorded action session).1 = .error (.failure error) →
        (perform scripted.recorded action session).2.log ≠ session.log →
          error.isValidation = false := by
  intro never
  let session : Session (Recorded (List Bytes) ChannelEvent) :=
    start (Recorded.start [zeroScalars ++ [0x90, 0x00]])
  let action := Action.signHash (Path.account 0) (Octets.zero 32)
  have contact : (perform scripted.recorded action session).2.log ≠ session.log :=
    List.cons_ne_nil _ _
  have refused := never action session (.signature .scalars) rfl contact
  cases refused

end Session

end Countersign
