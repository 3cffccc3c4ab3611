import Countersign.Proofs.Session.Exchange
import Countersign.Session.Action

/-!
A session changes by a few kinds of steps only, and everything that it is asked to do is a run of
them. What a step says about its command is what the command may rely on: a command for a lattice
key is sent only while the session knows the seed, and is made for that seed.
-/

namespace Countersign

/-- A command for a lattice key is made for a seed: it selects the seed's scheme, and where it
names a path, names the seed's path. -/
structure Command.MadeFor (command : Command) (path : Path) (algorithm : Algorithm) : Prop where
  code_eq : command.p2 = algorithm.deviceCode
  hybrid_eq : command.ins = Instruction.hybridSign.code →
    ∃ hash : Hash, command.data = Session.hashPayload path hash
  clear_eq : command.ins = Instruction.clearSign.code → command.p1 = 0 →
    command.data = path.toPayload

/-- The commands that work with a lattice key. -/
def Instruction.usesSeed : Instruction → Bool
  | .readClassicalKey | .signHash | .deriveSeed => false
  | .generateKey | .readPublicKey | .signMessage | .readSignature | .hybridSign | .clearSign => true

namespace Session

variable {σ : Type}

/-- The command that makes the element derive a seed. -/
def derivation (path : Path) (algorithm : Algorithm) : Command :=
  Instruction.deriveSeed.command 0 algorithm.deviceCode path.toPayload
    (by have short := path.length_toPayload_le; omega)

theorem length_hashPayload_le (path : Path) (hash : Hash) :
    (hashPayload path hash).length ≤ 255 := by
  have short := path.length_toPayload_le
  rw [hashPayload, List.length_append, hash.length_bytes]
  omega

/-- The seed that a session knows after a derivation, given what came of it. -/
def seedAfter (path : Path) (algorithm : Algorithm) (reply : Except Halt Bytes) :
    Option (Path × Algorithm) :=
  match received reply with
  | .ok _ => some (path, algorithm)
  | .error _ => none

/-- One step of a session, on behalf of a signer with a lattice key if there is one. -/
inductive Step (transport : Transport σ) (owner : Option (Path × Algorithm)) :
    Session σ → Session σ → Prop
  | forget (session : Session σ) : Step transport owner session { session with derived := none }
  | classical {session : Session σ} (instruction : Instruction) (p1 p2 : UInt8) (data : Bytes)
      (fits : data.length ≤ 255) (isOpen : session.closed = false)
      (other : instruction = .readClassicalKey ∨ instruction = .signHash) :
      Step transport owner session (session.sent transport (instruction.command p1 p2 data fits))
  | derive {session : Session σ} (path : Path) (algorithm : Algorithm)
      (isOpen : session.closed = false) :
      Step transport owner session
        { session.sent transport (derivation path algorithm) with
          derived := seedAfter path algorithm
            (session.reply transport (derivation path algorithm)) }
  | lattice {session : Session σ} (instruction : Instruction) (p1 p2 : UInt8) (data : Bytes)
      (fits : data.length ≤ 255) (isOpen : session.closed = false)
      (uses : instruction.usesSeed = true) (path : Path) (algorithm : Algorithm)
      (known : session.derived = some (path, algorithm))
      (made : (instruction.command p1 p2 data fits).MadeFor path algorithm)
      (owned : ∀ wanted, owner = some wanted → wanted = (path, algorithm)) :
      Step transport owner session (session.sent transport (instruction.command p1 p2 data fits))

theorem Step.closed_eq {transport : Transport σ} {owner : Option (Path × Algorithm)}
    {before after : Session σ} (step : Step transport owner before after) :
    after.closed = before.closed := by
  cases step <;> rfl

theorem closed_eq_of_steps {transport : Transport σ} {owner : Option (Path × Algorithm)}
    {before after : Session σ} (steps : Relation.ReflTransGen (Step transport owner) before after) :
    after.closed = before.closed := by
  induction steps with
  | refl => rfl
  | tail _ step inductionHypothesis => exact step.closed_eq.trans inductionHypothesis

/-- The session knows a seed. -/
def Knows (path : Path) (algorithm : Algorithm) (session : Session σ) : Prop :=
  session.derived = some (path, algorithm)

section Commands

variable (transport : Transport σ) (owner : Option (Path × Algorithm))

theorem runs_classical (instruction : Instruction) (p1 p2 : UInt8) (data : Bytes)
    (other : instruction = .readClassicalKey ∨ instruction = .signHash) :
    Task.Runs (Step transport owner) (fun _ => True)
      (transmit transport instruction p1 p2 data) fun _ _ => True := by
  intro session _
  refine ⟨?_, fun _ _ => trivial⟩
  by_cases isOpen : session.closed = false
  · by_cases fits : data.length ≤ 255
    · rw [transmit_sent transport instruction p1 p2 data isOpen fits]
      exact .single (.classical instruction p1 p2 data fits isOpen other)
    · rw [transmit_tooLong transport instruction p1 p2 data isOpen fits]
  · rw [transmit_closed transport instruction p1 p2 data (by simpa using isOpen)]

theorem runs_lattice {instruction : Instruction} {p1 : UInt8} {data : Bytes} {path : Path}
    {algorithm : Algorithm} (uses : instruction.usesSeed = true)
    (made : ∀ fits, (instruction.command p1 algorithm.deviceCode data fits).MadeFor path algorithm)
    (owned : ∀ wanted, owner = some wanted → wanted = (path, algorithm)) :
    Task.Runs (Step transport owner) (Knows path algorithm)
      (transmit transport instruction p1 algorithm.deviceCode data)
      fun _ => Knows path algorithm := by
  intro session known
  by_cases isOpen : session.closed = false
  · by_cases fits : data.length ≤ 255
    · rw [transmit_sent transport instruction p1 _ data isOpen fits]
      exact ⟨.single (.lattice instruction p1 _ data fits isOpen uses path algorithm known
        (made fits) owned), fun _ _ => known⟩
    · rw [transmit_tooLong transport instruction p1 _ data isOpen fits]
      exact ⟨.refl, fun _ _ => known⟩
  · rw [transmit_closed transport instruction p1 _ data (by simpa using isOpen)]
    exact ⟨.refl, fun _ _ => known⟩

/-- A command that names no path is made for every seed of its scheme. -/
theorem madeFor_of_pathless {instruction : Instruction} {p1 : UInt8} {data : Bytes} {path : Path}
    {algorithm : Algorithm} (notHybrid : instruction ≠ .hybridSign)
    (notClear : instruction ≠ .clearSign ∨ p1 ≠ 0) (fits : data.length ≤ 255) :
    (instruction.command p1 algorithm.deviceCode data fits).MadeFor path algorithm := by
  refine ⟨rfl, ?_, ?_⟩
  · intro isHybrid
    exact absurd (Instruction.code_injective isHybrid) notHybrid
  · intro isClear first
    rcases notClear with otherInstruction | otherPhase
    · exact absurd (Instruction.code_injective isClear) otherInstruction
    · exact absurd first otherPhase

theorem madeFor_hybridSign {path : Path} {algorithm : Algorithm} (hash : Hash)
    (fits : (hashPayload path hash).length ≤ 255) :
    (Instruction.hybridSign.command 0 algorithm.deviceCode (hashPayload path hash) fits).MadeFor
      path algorithm := by
  have differ : Instruction.hybridSign.code ≠ Instruction.clearSign.code := by decide
  exact ⟨rfl, fun _ => ⟨hash, rfl⟩, fun isClear => absurd isClear differ⟩

theorem madeFor_clearSign {path : Path} {algorithm : Algorithm}
    (fits : path.toPayload.length ≤ 255) :
    (Instruction.clearSign.command 0 algorithm.deviceCode path.toPayload fits).MadeFor
      path algorithm := by
  have differ : Instruction.clearSign.code ≠ Instruction.hybridSign.code := by decide
  exact ⟨rfl, fun isHybrid => absurd isHybrid differ, fun _ _ => rfl⟩

end Commands

section Keys

variable (transport : Transport σ) (owner : Option (Path × Algorithm)) (path : Path)
  (algorithm : Algorithm)

theorem runs_readClassicalKey :
    Task.Runs (Step transport owner) (fun _ => True) (readClassicalKey transport path)
      fun _ _ => True := by
  apply Task.runs_bind (runs_classical transport owner _ _ _ _ (.inl rfl))
  intro key
  apply Task.runs_bind (Task.runs_ofExcept _)
  intro _
  exact Task.runs_pure key

theorem runs_readAddress :
    Task.Runs (Step transport owner) (fun _ => True) (readAddress transport path)
      fun _ _ => True := by
  apply Task.runs_bind (runs_readClassicalKey transport owner path)
  intro key
  exact Task.runs_ofExcept _

theorem runs_signHash (hash : Hash) :
    Task.Runs (Step transport owner) (fun _ => True) (signHash transport path hash)
      fun _ _ => True := by
  apply Task.runs_bind (runs_classical transport owner _ _ _ _ (.inr rfl))
  intro response
  exact Task.runs_ofExcept _

theorem deriveSeed_closed {session : Session σ} (closed : session.closed = true) :
    deriveSeed transport path algorithm session =
      (.error (.failure (.channel .closed)), { session with derived := none }) := by
  have closedStill : ({ session with derived := none } : Session σ).closed = true := closed
  unfold deriveSeed
  rw [Task.bind_ok (Task.modify_apply _ session),
    Task.bind_error (transmit_closed transport _ _ _ _ closedStill)]

theorem deriveSeed_open {session : Session σ} (isOpen : session.closed = false) :
    deriveSeed transport path algorithm session =
      ((received (session.reply transport (derivation path algorithm))).map fun _ => (),
        { session.sent transport (derivation path algorithm) with
          derived := seedAfter path algorithm
            (session.reply transport (derivation path algorithm)) }) := by
  have fits : path.toPayload.length ≤ 255 := (derivation path algorithm).length_le
  have openStill : ({ session with derived := none } : Session σ).closed = false := isOpen
  have exchanged := transmit_sent transport .deriveSeed 0 algorithm.deviceCode path.toPayload
    openStill fits
  have same : ({ session with derived := none } : Session σ).reply transport
      (derivation path algorithm) = session.reply transport (derivation path algorithm) := rfl
  change transmit _ _ _ _ _ _ = (received (reply transport (derivation path algorithm) _),
    sent transport (derivation path algorithm) _) at exchanged
  rw [same] at exchanged
  unfold deriveSeed seedAfter
  rw [Task.bind_ok (Task.modify_apply _ session)]
  cases answered : received (session.reply transport (derivation path algorithm)) with
  | error halt =>
      rw [answered] at exchanged
      rw [Task.bind_error exchanged]
      rfl
  | ok data =>
      rw [answered] at exchanged
      rw [Task.bind_ok exchanged]
      rfl

theorem runs_deriveSeed :
    Task.Runs (Step transport owner) (fun _ => True) (deriveSeed transport path algorithm)
      fun _ => Knows path algorithm := by
  intro session _
  by_cases isOpen : session.closed = false
  · rw [deriveSeed_open transport path algorithm isOpen]
    refine ⟨.single (.derive path algorithm isOpen), ?_⟩
    intro _ yields
    unfold Knows seedAfter
    cases answered : received (session.reply transport (derivation path algorithm)) with
    | error halt =>
        simp only [answered] at yields
        cases yields
    | ok data => rfl
  · rw [deriveSeed_closed transport path algorithm (by simpa using isOpen)]
    refine ⟨.single (.forget session), ?_⟩
    intro _ yields
    cases yields

theorem requireSeed_of_known {session : Session σ}
    (known : session.derived.map Prod.snd = some algorithm) :
    requireSeed algorithm session = (.ok (), session) := by
  unfold requireSeed
  rw [Task.bind_ok (Task.get_apply session), if_pos known]
  rfl

theorem requireSeed_of_unknown {session : Session σ}
    (unknown : session.derived.map Prod.snd ≠ some algorithm) :
    requireSeed algorithm session =
      (.error (.failure (.validation (.seedMissing algorithm))), session) := by
  unfold requireSeed
  rw [Task.bind_ok (Task.get_apply session), if_neg unknown]
  rfl

theorem runs_ensureSeed :
    Task.Runs (Step transport owner) (fun _ => True) (ensureSeed transport path algorithm)
      fun _ => Knows path algorithm := by
  intro session _
  unfold ensureSeed
  rw [Task.bind_ok (Task.get_apply session)]
  by_cases known : session.derived = some (path, algorithm)
  · rw [if_pos known]
    exact ⟨.refl, fun _ _ => known⟩
  · rw [if_neg known]
    exact runs_deriveSeed transport owner path algorithm session trivial

end Keys

/-! ## Lattice keys -/

section Lattice

variable (transport : Transport σ) {owner : Option (Path × Algorithm)} {path : Path}
  {algorithm : Algorithm} (owned : ∀ wanted, owner = some wanted → wanted = (path, algorithm))

include owned

theorem runs_readChunksFrom {instruction : Instruction} (uses : instruction.usesSeed = true)
    (notHybrid : instruction ≠ .hybridSign) (notClear : instruction ≠ .clearSign) :
    ∀ (index : Nat) (lengths : List Nat),
      Task.Runs (Step transport owner) (Knows path algorithm)
        (readChunksFrom transport instruction algorithm index lengths)
        fun _ => Knows path algorithm
  | _, [] => Task.runs_pure _
  | index, expected :: later => by
      apply Task.runs_bind (runs_lattice transport owner uses
        (madeFor_of_pathless notHybrid (.inl notClear)) owned)
      intro chunk
      apply Task.runs_bind (Task.runs_ofExcept _)
      intro _
      apply Task.runs_bind (runs_readChunksFrom uses notHybrid notClear (index + 1) later)
      intro rest
      exact Task.runs_pure _

theorem runs_readAnswer {instruction : Instruction} (uses : instruction.usesSeed = true)
    (notHybrid : instruction ≠ .hybridSign) (notClear : instruction ≠ .clearSign)
    (length : AnswerLength) :
    Task.Runs (Step transport owner) (Knows path algorithm)
      (readAnswer transport instruction algorithm length) fun _ => Knows path algorithm := by
  apply Task.runs_bind (runs_lattice transport owner uses
    (madeFor_of_pathless notHybrid (.inl notClear)) owned)
  intro first
  apply Task.runs_bind (Task.runs_ofExcept _)
  intro total
  split
  · exact Task.runs_fail _
  · split
    · exact Task.runs_fail _
    · apply Task.runs_bind (Task.runs_ofExcept _)
      intro _
      apply Task.runs_bind (runs_readChunksFrom transport owned uses notHybrid notClear _ _)
      intro rest
      exact Task.runs_pure _

theorem runs_absorb : ∀ pieces : List Bytes,
    Task.Runs (Step transport owner) (Knows path algorithm) (absorb transport algorithm pieces)
      fun _ => Knows path algorithm
  | [] => Task.runs_pure _
  | piece :: later => by
      apply Task.runs_bind (runs_lattice transport owner rfl
        (madeFor_of_pathless (by decide) (.inl (by decide))) owned)
      intro _
      exact runs_absorb later

omit owned in
theorem runs_requireSeed :
    Task.Runs (Step transport owner) (Knows path algorithm) (requireSeed algorithm)
      fun _ => Knows path algorithm := by
  intro session known
  unfold requireSeed
  rw [Task.bind_ok (Task.get_apply session)]
  split
  · exact ⟨.refl, fun _ _ => known⟩
  · refine ⟨.refl, ?_⟩
    intro _ yields
    cases yields

theorem runs_generateKey :
    Task.Runs (Step transport owner) (Knows path algorithm) (generateKey transport algorithm)
      fun _ => Knows path algorithm := by
  apply Task.runs_bind (runs_requireSeed transport)
  intro _
  apply Task.runs_bind (runs_lattice transport owner rfl
    (madeFor_of_pathless (by decide) (.inl (by decide))) owned)
  intro _
  exact runs_readAnswer transport owned rfl (by decide) (by decide) _

theorem runs_signMessage (message : Bytes) :
    Task.Runs (Step transport owner) (Knows path algorithm)
      (signMessage transport algorithm message) fun _ => Knows path algorithm := by
  apply Task.runs_bind (runs_requireSeed transport)
  intro _
  split
  · exact Task.runs_fail _
  · apply Task.runs_bind (runs_lattice transport owner rfl
      (madeFor_of_pathless (by decide) (.inl (by decide))) owned)
    intro _
    apply Task.runs_bind (runs_absorb transport owned _)
    intro _
    apply Task.runs_bind (runs_lattice transport owner rfl
      (madeFor_of_pathless (by decide) (.inl (by decide))) owned)
    intro _
    exact runs_readAnswer transport owned rfl (by decide) (by decide) _

theorem runs_readBoth (response : Bytes) :
    Task.Runs (Step transport owner) (Knows path algorithm)
      (readBoth transport algorithm response) fun _ => Knows path algorithm := by
  apply Task.runs_bind (Task.runs_ofExcept _)
  intro classical
  apply Task.runs_bind (runs_readAnswer transport owned rfl (by decide) (by decide) _)
  intro postQuantum
  exact Task.runs_pure _

theorem runs_hybridSign (hash : Hash) :
    Task.Runs (Step transport owner) (fun _ => True)
      (hybridSign transport path algorithm hash) fun _ => Knows path algorithm := by
  apply Task.runs_bind (runs_ensureSeed transport owner path algorithm)
  intro _
  apply Task.runs_bind (runs_lattice transport owner rfl (madeFor_hybridSign hash) owned)
  intro response
  exact runs_readBoth transport owned response

theorem runs_clearSign (operation : Operation) (contract : Address) (chainId : UInt64) :
    Task.Runs (Step transport owner) (fun _ => True)
      (clearSign transport path algorithm operation contract chainId)
      fun _ => Knows path algorithm := by
  apply Task.runs_bind (runs_ensureSeed transport owner path algorithm)
  intro _
  apply Task.runs_bind (runs_lattice transport owner rfl madeFor_clearSign owned)
  intro _
  apply Task.runs_bind (runs_lattice transport owner rfl
    (madeFor_of_pathless (by decide) (.inr (by decide))) owned)
  intro _
  apply Task.runs_bind (runs_lattice transport owner rfl
    (madeFor_of_pathless (by decide) (.inr (by decide))) owned)
  intro _
  apply Task.runs_bind (runs_lattice transport owner rfl
    (madeFor_of_pathless (by decide) (.inr (by decide))) owned)
  intro response
  exact runs_readBoth transport owned response

end Lattice

/-- Without a seed for the scheme nothing happens, and with one it is known which. -/
theorem runs_of_requireSeed {α : Type} (transport : Transport σ) (algorithm : Algorithm)
    {next : Unit → Task (Session σ) α}
    (knowing : ∀ path, Task.Runs (Step transport none) (Knows path algorithm)
      (requireSeed algorithm >>= next) fun _ => Knows path algorithm) :
    Task.Runs (Step transport none) (fun _ => True) (requireSeed algorithm >>= next)
      fun _ _ => True := by
  intro session _
  by_cases known : session.derived.map Prod.snd = some algorithm
  · obtain ⟨⟨path, found⟩, derived, same⟩ := Option.map_eq_some_iff.mp known
    cases same
    obtain ⟨steps, _⟩ := knowing path session derived
    exact ⟨steps, fun _ _ => trivial⟩
  · rw [Task.bind_error (requireSeed_of_unknown algorithm known)]
    exact ⟨.refl, fun _ _ => trivial⟩

theorem runs_perform (transport : Transport σ) (action : Action) :
    Task.Runs (Step transport none) (fun _ => True) (perform transport action)
      fun _ _ => True := by
  have free : ∀ (path : Path) (algorithm : Algorithm) (wanted : Path × Algorithm),
      none = some wanted → wanted = (path, algorithm) := by
    intro _ _ _ impossible
    cases impossible
  cases action with
  | readClassicalKey path =>
      exact Task.runs_map _ (runs_readClassicalKey transport none path)
  | readAddress path =>
      exact Task.runs_map _ (runs_readAddress transport none path)
  | signHash path hash =>
      exact Task.runs_map _ (runs_signHash transport none path hash)
  | deriveSeed path algorithm =>
      apply Task.runs_map
      exact (runs_deriveSeed transport none path algorithm).weaken (fun _ start => start)
        fun _ _ _ => trivial
  | ensureSeed path algorithm =>
      apply Task.runs_map
      exact (runs_ensureSeed transport none path algorithm).weaken (fun _ start => start)
        fun _ _ _ => trivial
  | generateKey algorithm =>
      apply Task.runs_map
      exact runs_of_requireSeed transport algorithm fun path =>
        runs_generateKey transport (free path algorithm)
  | signMessage algorithm message =>
      apply Task.runs_map
      exact runs_of_requireSeed transport algorithm fun path =>
        runs_signMessage transport (free path algorithm) message
  | hybridSign path algorithm hash =>
      apply Task.runs_map
      exact (runs_hybridSign transport (free path algorithm) hash).weaken
        (fun _ start => start) fun _ _ _ => trivial
  | clearSign path algorithm operation contract chainId =>
      apply Task.runs_map
      exact (runs_clearSign transport (free path algorithm) operation contract chainId).weaken
        (fun _ start => start) fun _ _ _ => trivial

end Session

end Countersign
