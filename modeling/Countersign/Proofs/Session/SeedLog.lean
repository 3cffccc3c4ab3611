import Countersign.Proofs.Session.Steps
import Countersign.Signer.Element

/-!
What the holders of a shared session do with it, one at a time, is made of the steps of the session
underneath, and the log of a channel tells which seed the element holds. A session that knows a seed
knows what its log tells, so that no command for a lattice key is ever carried out with the seed of
another.
-/

namespace Countersign

/-- Something that a holder does with a shared session. -/
inductive Move
  | perform (action : Session.Action)
  | makeClassical (path : Path)
  | signHash (key : Element.ClassicalKey) (hash : Hash)
  | makeLattice (path : Path) (algorithm : Algorithm)
  | signMessage (key : Element.LatticeKey) (message : Bytes)
  | makeHybrid (path : Path) (algorithm : Algorithm) (mode : Element.SigningMode)
  | signOperation (key : Element.HybridKey) (operation : Operation) (contract : Address)
      (chainId : UInt64)
  | close
  | retain
  | drop

namespace Move

variable {σ : Type}

/-- The path and the scheme of the signer with a lattice key on whose behalf something is done. -/
def owner : Move → Option (Path × Algorithm)
  | makeLattice path algorithm => some (path, algorithm)
  | signMessage key _ => some (key.path, key.algorithm)
  | makeHybrid path algorithm _ => some (path, algorithm)
  | signOperation key _ _ _ => some (key.path, key.algorithm)
  | _ => none

/-- The shared session afterwards. -/
def run (transport : Transport σ) (move : Move) (shared : SharedSession σ) : SharedSession σ :=
  match move with
  | perform action => (SharedSession.locked (Session.perform transport action) shared).2
  | makeClassical path => (Element.ClassicalKey.ofPath transport path shared).2
  | signHash key hash => (key.sign transport hash shared).2
  | makeLattice path algorithm => (Element.LatticeKey.ofPath transport path algorithm shared).2
  | signMessage key message => (key.sign transport message shared).2
  | makeHybrid path algorithm mode =>
      (Element.HybridKey.ofPath transport path algorithm mode shared).2
  | signOperation key operation contract chainId =>
      (key.sign transport operation contract chainId shared).2
  | close => shared.close transport
  | retain => shared.retain
  | drop => shared.drop transport

/-- The shared session after one move after the other. -/
def runAll (transport : Transport σ) (moves : List Move) (shared : SharedSession σ) :
    SharedSession σ :=
  moves.foldl (fun current move => move.run transport current) shared

end Move

/-- A step of a session, or its end. -/
def Session.StepOrEnd {σ : Type} (transport : Transport σ) (owner : Option (Path × Algorithm))
    (before after : Session σ) : Prop :=
  Session.Step transport owner before after ∨ after = before.close transport

namespace SharedSession

variable {σ α : Type} {step : Session σ → Session σ → Prop}

/-- The session underneath goes through steps. -/
def Underneath (step : Session σ → Session σ → Prop) (before after : SharedSession σ) : Prop :=
  Relation.ReflTransGen step before.session after.session

theorem runs_locked {task : Task (Session σ) α} {after : α → Session σ → Prop}
    (runs : Task.Runs step (fun _ => True) task after) :
    Task.Runs (Underneath step) (fun _ => True) (locked task) fun _ _ => True := by
  intro shared _
  refine ⟨.single ?_, fun _ _ => trivial⟩
  obtain ⟨steps, _⟩ := runs shared.session trivial
  unfold Underneath locked
  by_cases poisoned : shared.poisoned = true
  · rw [if_pos poisoned]
  · rw [if_neg poisoned]
    rcases ended : task shared.session with ⟨halt | value, later⟩
    · rw [ended] at steps
      cases halt with
      | failure error => exact steps
      | crash => exact steps
    · rw [ended] at steps
      exact steps

theorem runs_finish (algorithm : Algorithm) (raw : Bytes) (messageLength : Nat) :
    Task.Runs (Underneath step) (fun _ => True) (Element.finish algorithm raw messageLength)
      fun _ _ => True :=
  fun _ _ => ⟨.refl, fun _ _ => trivial⟩

theorem steps_of_runs {transport : Transport σ} {owner : Option (Path × Algorithm)}
    {task : Task (SharedSession σ) α} {after : α → SharedSession σ → Prop}
    (runs : Task.Runs (Underneath (Session.Step transport owner)) (fun _ => True) task after)
    (shared : SharedSession σ) :
    Relation.ReflTransGen (Session.StepOrEnd transport owner) shared.session
      (task shared).2.session := by
  have steps := (runs shared trivial).1.lift' SharedSession.session fun _ _ steps => steps
  exact Relation.ReflTransGen.mono (fun _ _ step => .inl step) _ _ steps

theorem drop_session (transport : Transport σ) (shared : SharedSession σ) :
    (shared.drop transport).session = shared.session.close transport ∨
      (shared.drop transport).session = shared.session := by
  unfold drop
  dsimp only
  split
  · exact .inl rfl
  · exact .inr rfl

end SharedSession

namespace Move

open SharedSession Session

variable {σ : Type}

theorem runs_makeLattice (transport : Transport σ) (path : Path) (algorithm : Algorithm) :
    Task.Runs (Underneath (Step transport (some (path, algorithm)))) (fun _ => True)
      (Element.LatticeKey.ofPath transport path algorithm) fun _ _ => True := by
  have owned : ∀ wanted, some (path, algorithm) = some wanted → wanted = (path, algorithm) :=
    fun _ same => (Option.some.inj same).symm
  have made : Task.Runs (Step transport (some (path, algorithm))) (fun _ => True)
      (do
        deriveSeed transport path algorithm
        generateKey transport algorithm)
      fun _ => Knows path algorithm := by
    apply Task.runs_bind (runs_deriveSeed transport _ path algorithm)
    intro _
    exact runs_generateKey transport owned
  apply Task.runs_bind (runs_locked made)
  intro publicKey
  exact Task.runs_pure _

theorem runs_signMessage (transport : Transport σ) (key : Element.LatticeKey) (message : Bytes) :
    Task.Runs (Underneath (Step transport (some (key.path, key.algorithm)))) (fun _ => True)
      (key.sign transport message) fun _ _ => True := by
  have owned : ∀ wanted, some (key.path, key.algorithm) = some wanted →
      wanted = (key.path, key.algorithm) := fun _ same => (Option.some.inj same).symm
  have signed : Task.Runs (Step transport (some (key.path, key.algorithm))) (fun _ => True)
      (do
        ensureSeed transport key.path key.algorithm
        Session.signMessage transport key.algorithm message)
      fun _ => Knows key.path key.algorithm := by
    apply Task.runs_bind (runs_ensureSeed transport _ key.path key.algorithm)
    intro _
    exact Session.runs_signMessage transport owned message
  apply Task.runs_bind (runs_locked signed)
  intro raw
  exact runs_finish _ _ _

theorem runs_makeHybrid (transport : Transport σ) (path : Path) (algorithm : Algorithm)
    (mode : Element.SigningMode) :
    Task.Runs (Underneath (Step transport (some (path, algorithm)))) (fun _ => True)
      (Element.HybridKey.ofPath transport path algorithm mode) fun _ _ => True := by
  have owned : ∀ wanted, some (path, algorithm) = some wanted → wanted = (path, algorithm) :=
    fun _ same => (Option.some.inj same).symm
  have made : Task.Runs (Step transport (some (path, algorithm))) (fun _ => True)
      (do
        let address ← readAddress transport path
        deriveSeed transport path algorithm
        let publicKey ← generateKey transport algorithm
        return (address, publicKey))
      fun _ => Knows path algorithm := by
    apply Task.runs_bind (runs_readAddress transport _ path)
    intro address
    apply Task.runs_bind (runs_deriveSeed transport _ path algorithm)
    intro _
    apply Task.runs_bind (runs_generateKey transport owned)
    intro publicKey
    exact Task.runs_pure _
  apply Task.runs_bind (runs_locked made)
  intro keys
  exact Task.runs_pure _

/-- Nothing is sent for what a signer does with the signatures that it was given. -/
theorem runs_afterSigning {step : Session σ → Session σ → Prop} (hash : Hash)
    (algorithm : Algorithm) (address : Address) (signatures : Signature × Bytes) :
    Task.Runs (Underneath step) (fun _ => True)
      (do
        Task.ofExcept (Signature.ensureSigner hash signatures.1 address)
        let postQuantum ← Element.finish algorithm signatures.2 hash.bytes.length
        return HybridSignature.make signatures.1 postQuantum)
      fun _ _ => True := by
  apply Task.runs_bind (Task.runs_ofExcept _)
  intro _
  apply Task.runs_bind (runs_finish _ _ _)
  intro postQuantum
  exact Task.runs_pure _

theorem runs_signOperation (transport : Transport σ) (key : Element.HybridKey)
    (operation : Operation) (contract : Address) (chainId : UInt64) :
    Task.Runs (Underneath (Step transport (some (key.path, key.algorithm)))) (fun _ => True)
      (key.sign transport operation contract chainId) fun _ _ => True := by
  have owned : ∀ wanted, some (key.path, key.algorithm) = some wanted →
      wanted = (key.path, key.algorithm) := fun _ same => (Option.some.inj same).symm
  obtain ⟨path, algorithm, mode, address, publicKey⟩ := key
  cases mode with
  | hash =>
      apply Task.runs_bind (runs_locked (runs_hybridSign transport owned _))
      exact runs_afterSigning _ _ _
  | fields =>
      apply Task.runs_bind (runs_locked (runs_clearSign transport owned operation contract chainId))
      exact runs_afterSigning _ _ _

/-- Every move is a run of the session's steps, taken on behalf of the move's owner, or ends it. -/
theorem run_steps (transport : Transport σ) (move : Move) (shared : SharedSession σ) :
    Relation.ReflTransGen (StepOrEnd transport move.owner) shared.session
      (move.run transport shared).session := by
  cases move with
  | perform action => exact steps_of_runs (runs_locked (runs_perform transport action)) shared
  | makeClassical path =>
      apply steps_of_runs
      apply Task.runs_bind (runs_locked (runs_readAddress transport none path))
      intro address
      exact Task.runs_pure _
  | signHash key hash =>
      apply steps_of_runs
      apply Task.runs_bind (runs_locked (Session.runs_signHash transport none key.path hash))
      intro signature
      apply Task.runs_bind (Task.runs_ofExcept _)
      intro _
      exact Task.runs_pure _
  | makeLattice path algorithm =>
      exact steps_of_runs (runs_makeLattice transport path algorithm) shared
  | signMessage key message => exact steps_of_runs (runs_signMessage transport key message) shared
  | makeHybrid path algorithm mode =>
      exact steps_of_runs (runs_makeHybrid transport path algorithm mode) shared
  | signOperation key operation contract chainId =>
      exact steps_of_runs (runs_signOperation transport key operation contract chainId) shared
  | close => exact .single (.inr rfl)
  | retain => exact .refl
  | drop =>
      rcases drop_session transport shared with closes | stays
      · change Relation.ReflTransGen _ _ (shared.drop transport).session
        rw [closes]
        exact .single (.inr rfl)
      · change Relation.ReflTransGen _ _ (shared.drop transport).session
        rw [stays]

end Move

namespace ChannelEvent

/-- The command that makes the element derive a seed, with what came of it. -/
def derivation? : ChannelEvent → Option (Command × Except Halt Bytes)
  | exchanged bytes reply =>
      match Command.ofBytes bytes with
      | .ok command =>
          if command.ins = Instruction.deriveSeed.code then some (command, reply) else none
      | .error _ => none
  | released => none

theorem derivation?_exchanged (command : Command) (reply : Except Halt Bytes) :
    (exchanged command.toBytes reply).derivation? =
      if command.ins = Instruction.deriveSeed.code then some (command, reply) else none := by
  simp only [derivation?, Command.ofBytes_toBytes]

end ChannelEvent

/-- The most recent command of a log that makes the element derive a seed. -/
def lastDerivation? (log : List ChannelEvent) : Option (Command × Except Halt Bytes) :=
  log.reverse.findSome? ChannelEvent.derivation?

/-- The element holds the seed of a path and a scheme: it was told to derive that seed last, and
answered with success. -/
def HeldSeed (log : List ChannelEvent) (path : Path) (algorithm : Algorithm) : Prop :=
  ∃ command raw data,
    lastDerivation? log = some (command, .ok raw) ∧
      Response.ofBytes raw = .ok ⟨data, Response.success⟩ ∧
      command.p2 = algorithm.deviceCode ∧ command.data = path.toPayload

theorem lastDerivation?_append (log : List ChannelEvent) (event : ChannelEvent) :
    lastDerivation? (log ++ [event]) =
      match event.derivation? with
      | some derivation => some derivation
      | none => lastDerivation? log := by
  unfold lastDerivation?
  rw [List.reverse_append, List.reverse_singleton, List.singleton_append, List.findSome?_cons]
  cases event.derivation? <;> rfl

theorem HeldSeed.append {log : List ChannelEvent} {path : Path} {algorithm : Algorithm}
    (held : HeldSeed log path algorithm) {event : ChannelEvent}
    (other : event.derivation? = none) : HeldSeed (log ++ [event]) path algorithm := by
  obtain ⟨command, raw, data, last, granted⟩ := held
  refine ⟨command, raw, data, ?_, granted⟩
  rw [lastDerivation?_append, other]
  exact last

/-- An event may follow a log: if it is a command for a lattice key, then the log tells that the
element holds a seed for which the command is made, and which is the owner's if there is one. -/
def Justified (owner : Option (Path × Algorithm)) (log : List ChannelEvent) :
    ChannelEvent → Prop
  | .exchanged bytes _ =>
      ∃ command, Command.ofBytes bytes = .ok command ∧
        (0x11 ≤ command.ins → command.ins ≤ 0x16 →
          ∃ path algorithm, HeldSeed log path algorithm ∧ command.MadeFor path algorithm ∧
            ∀ wanted, owner = some wanted → wanted = (path, algorithm))
  | .released => True

/-- A log grows by an event that may follow it. -/
def Noted {ε : Type} (allowed : List ε → ε → Prop) (before after : List ε) : Prop :=
  ∃ event, allowed before event ∧ after = before ++ [event]

/-- Every event by which a log has grown was allowed by the log before it. -/
theorem allowed_of_grown {ε : Type} {allowed : List ε → ε → Prop} {before after : List ε}
    (grown : Relation.ReflTransGen (Noted allowed) before after) :
    ∃ new, after = before ++ new ∧
      ∀ earlier event later, new = earlier ++ event :: later →
        allowed (before ++ earlier) event := by
  induction grown with
  | refl =>
      refine ⟨[], (List.append_nil before).symm, ?_⟩
      intro earlier event later split
      simp at split
  | tail _ noted inductionHypothesis =>
      obtain ⟨new, rfl, justified⟩ := inductionHypothesis
      obtain ⟨last, allowedLast, rfl⟩ := noted
      refine ⟨new ++ [last], List.append_assoc before new [last], ?_⟩
      intro earlier event later split
      rcases List.eq_nil_or_concat later with rfl | ⟨initial, final, rfl⟩
      · obtain ⟨rfl, same⟩ := List.append_inj' split rfl
        cases same
        exact allowedLast
      · have shorter : new ++ [last] = (earlier ++ event :: initial) ++ [final] := by
          rw [split]
          simp
        obtain ⟨same, _⟩ := List.append_inj' shorter rfl
        exact justified earlier event initial same

/-! ## Sessions and their logs -/

namespace Session

variable {σ : Type}

/-- The seed that a session knows is the one that its log tells of. -/
def Faithful (session : Session (Recorded σ ChannelEvent)) : Prop :=
  ∀ path algorithm, session.derived = some (path, algorithm) →
    HeldSeed session.log path algorithm

theorem usesSeed_iff (instruction : Instruction) :
    instruction.usesSeed = true ↔ 0x11 ≤ instruction.code ∧ instruction.code ≤ 0x16 := by
  cases instruction <;> decide

theorem faithful_sent {transport : Transport σ} {session : Session (Recorded σ ChannelEvent)}
    (faithful : session.Faithful) {command : Command}
    (other : command.ins ≠ Instruction.deriveSeed.code) :
    (session.sent transport.recorded command).Faithful := by
  intro path algorithm known
  rw [log_sent]
  apply (faithful path algorithm known).append
  rw [ChannelEvent.derivation?_exchanged, if_neg other]

theorem faithful_derive (transport : Transport σ) (path : Path) (algorithm : Algorithm)
    (session : Session (Recorded σ ChannelEvent)) :
    Faithful { session.sent transport.recorded (derivation path algorithm) with
      derived := seedAfter path algorithm
        (session.reply transport.recorded (derivation path algorithm)) } := by
  intro knownPath knownAlgorithm known
  unfold seedAfter at known
  cases answered : received (session.reply transport.recorded (derivation path algorithm)) with
  | error halt =>
      simp only [answered] at known
      cases known
  | ok data =>
      simp only [answered] at known
      cases known
      obtain ⟨raw, replied, granted⟩ := received_eq_ok answered
      refine ⟨derivation path algorithm, raw, data, ?_, granted, rfl, rfl⟩
      have isDerive : (derivation path algorithm).ins = Instruction.deriveSeed.code := rfl
      change lastDerivation? (session.sent transport.recorded (derivation path algorithm)).log = _
      rw [log_sent, lastDerivation?_append, ChannelEvent.derivation?_exchanged, if_pos isDerive,
        replied]

/-- A step keeps a session faithful, and whatever it writes to the log is justified there. -/
theorem step_faithful {transport : Transport σ} {owner : Option (Path × Algorithm)}
    {before after : Session (Recorded σ ChannelEvent)}
    (step : Step transport.recorded owner before after) (faithful : before.Faithful) :
    after.Faithful ∧
      Relation.ReflTransGen (Noted (Justified owner)) before.log after.log := by
  cases step with
  | forget =>
      refine ⟨?_, .refl⟩
      intro path algorithm known
      cases known
  | classical instruction p1 p2 data fits isOpen other =>
      have notDerive : instruction.code ≠ Instruction.deriveSeed.code := by
        rcases other with rfl | rfl <;> decide
      refine ⟨faithful_sent faithful notDerive, .single ⟨_, ?_, log_sent transport _ before⟩⟩
      refine ⟨_, Command.ofBytes_toBytes _, ?_⟩
      intro lower upper
      have uses : instruction.usesSeed = true := (usesSeed_iff instruction).mpr ⟨lower, upper⟩
      rcases other with rfl | rfl <;> cases uses
  | derive path algorithm isOpen =>
      refine ⟨faithful_derive transport path algorithm before,
        .single ⟨_, ?_, log_sent transport (derivation path algorithm) before⟩⟩
      refine ⟨_, Command.ofBytes_toBytes _, ?_⟩
      intro lower _
      have below : ¬ (0x11 : UInt8) ≤ Instruction.deriveSeed.code := by decide
      exact absurd lower below
  | lattice instruction p1 p2 data fits isOpen uses path algorithm known made owned =>
      have notDerive : instruction.code ≠ Instruction.deriveSeed.code := by
        intro same
        rw [Instruction.code_injective same] at uses
        cases uses
      refine ⟨faithful_sent faithful notDerive, .single ⟨_, ?_, log_sent transport _ before⟩⟩
      exact ⟨_, Command.ofBytes_toBytes _, fun _ _ =>
        ⟨path, algorithm, faithful path algorithm known, made, owned⟩⟩

theorem close_faithful (transport : Transport σ) (owner : Option (Path × Algorithm))
    {session : Session (Recorded σ ChannelEvent)} (faithful : session.Faithful) :
    (session.close transport.recorded).Faithful ∧
      Relation.ReflTransGen (Noted (Justified owner)) session.log
        (session.close transport.recorded).log := by
  unfold close
  split
  · exact ⟨faithful, .refl⟩
  · refine ⟨?_, .single ⟨.released, trivial, rfl⟩⟩
    intro path algorithm known
    cases known

theorem steps_faithful {transport : Transport σ} {owner : Option (Path × Algorithm)}
    {before after : Session (Recorded σ ChannelEvent)}
    (steps : Relation.ReflTransGen (StepOrEnd transport.recorded owner) before after)
    (faithful : before.Faithful) :
    after.Faithful ∧
      Relation.ReflTransGen (Noted (Justified owner)) before.log after.log := by
  induction steps with
  | refl => exact ⟨faithful, .refl⟩
  | tail _ step inductionHypothesis =>
      obtain ⟨faithfulBetween, grown⟩ := inductionHypothesis
      rcases step with step | rfl
      · obtain ⟨faithfulAfter, noted⟩ := step_faithful step faithfulBetween
        exact ⟨faithfulAfter, grown.trans noted⟩
      · obtain ⟨faithfulAfter, noted⟩ := close_faithful transport owner faithfulBetween
        exact ⟨faithfulAfter, grown.trans noted⟩

end Session

theorem Move.runAll_faithful {σ : Type} (transport : Transport σ) (moves : List Move)
    {shared : SharedSession (Recorded σ ChannelEvent)} (faithful : shared.session.Faithful) :
    (Move.runAll transport.recorded moves shared).session.Faithful := by
  induction moves generalizing shared with
  | nil => exact faithful
  | cons move rest inductionHypothesis =>
      apply inductionHypothesis
      exact (Session.steps_faithful (move.run_steps transport.recorded shared) faithful).1

/-- Whatever the holders of a session have done with it, every event that the next move writes to
the log is justified by the log before it. -/
theorem latticeCommands_justified {σ : Type} (transport : Transport σ) (channel : σ)
    (moves : List Move) (move : Move) :
    let start := SharedSession.ofSession (Session.start (Recorded.start channel))
    let before := Move.runAll transport.recorded moves start
    let after := move.run transport.recorded before
    ∃ new, after.session.log = before.session.log ++ new ∧
      ∀ earlier event later, new = earlier ++ event :: later →
        Justified move.owner (before.session.log ++ earlier) event := by
  intro start before after
  have fresh : start.session.Faithful := by
    intro path algorithm known
    cases known
  have faithful : before.session.Faithful := Move.runAll_faithful transport moves fresh
  have grown := (Session.steps_faithful (move.run_steps transport.recorded before) faithful).2
  exact allowed_of_grown grown

end Countersign
