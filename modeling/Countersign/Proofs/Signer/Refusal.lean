import Countersign.Proofs.Pipeline.Building
import Countersign.Proofs.Session.Refusal
import Countersign.Signer.Software

/-!
A refusal by the secure element reaches whoever asked, unchanged: through the lock of a shared
session, through the signers whose keys are on the element, and through a pipeline that signs with
one of them.
-/

namespace Countersign

variable {σ α : Type}

namespace SharedSession

open Session

/-- Tasks may work on the session, and the session sends what it is told to. -/
structure Ready (shared : SharedSession σ) : Prop where
  unpoisoned : shared.poisoned = false
  isOpen : shared.session.closed = false

variable {task : Task (SharedSession (Recorded σ ChannelEvent)) α}

/-- The lock changes nothing about how a task ends. -/
theorem heeds_locked {task : Task (Session (Recorded σ ChannelEvent)) α}
    (heeds : Heeds id IsOpen task) : Heeds SharedSession.session Ready (locked task) := by
  intro shared ready
  obtain ⟨traffic, kept⟩ := heeds shared.session ready.isOpen
  have free : ¬ shared.poisoned = true := by simp [ready.unpoisoned]
  rw [locked, if_neg free]
  rcases ended : task shared.session with ⟨(error | _) | value, later⟩
  · rw [ended] at traffic
    refine ⟨traffic, ?_⟩
    intro value yields
    cases yields
  · rw [ended] at traffic
    refine ⟨traffic, ?_⟩
    intro value yields
    cases yields
  · rw [ended] at traffic kept
    exact ⟨traffic, fun _ _ => ⟨ready.unpoisoned, kept value rfl⟩⟩

/-- Whatever the element refuses while the task runs is what the task ends with. -/
def Reports (task : Task (SharedSession (Recorded σ ChannelEvent)) α) : Prop :=
  ∀ shared, shared.poisoned = false → shared.session.closed = false →
    Reported shared.session (task shared).2.session fun error =>
      (task shared).1 = .error (.failure error)

theorem reports_of_heeds (heeds : Heeds SharedSession.session Ready task) : Reports task :=
  fun shared unpoisoned isOpen => (heeds shared ⟨unpoisoned, isOpen⟩).1.reported

end SharedSession

namespace Element

open Session SharedSession

variable (transport : Transport σ)

theorem heeds_finish (algorithm : Algorithm) (raw : Bytes) (messageLength : Nat) :
    Heeds SharedSession.session Ready
      (finish algorithm raw messageLength :
        Task (SharedSession (Recorded σ ChannelEvent)) Bytes) :=
  heeds_of_still fun _ => rfl

namespace ClassicalKey

theorem heeds_ofPath (path : Path) :
    Heeds SharedSession.session Ready (ofPath transport.recorded path) := by
  apply heeds_bind (heeds_locked (heeds_readAddress transport path))
  intro address
  exact heeds_pure _

theorem heeds_sign (key : ClassicalKey) (hash : Hash) :
    Heeds SharedSession.session Ready (key.sign transport.recorded hash) := by
  apply heeds_bind (heeds_locked (heeds_signHash transport key.path hash))
  intro signature
  apply heeds_bind (heeds_ofExcept _)
  intro _
  exact heeds_pure signature

end ClassicalKey

namespace LatticeKey

theorem heeds_ofPath (path : Path) (algorithm : Algorithm) :
    Heeds SharedSession.session Ready (ofPath transport.recorded path algorithm) := by
  apply heeds_bind
  · apply heeds_locked
    apply heeds_bind (heeds_deriveSeed transport path algorithm)
    intro _
    exact heeds_generateKey transport algorithm
  · intro publicKey
    exact heeds_pure _

theorem heeds_sign (key : LatticeKey) (message : Bytes) :
    Heeds SharedSession.session Ready (key.sign transport.recorded message) := by
  apply heeds_bind
  · apply heeds_locked
    apply heeds_bind (heeds_ensureSeed transport key.path key.algorithm)
    intro _
    exact heeds_signMessage transport key.algorithm message
  · intro raw
    exact heeds_finish _ _ _

end LatticeKey

namespace HybridKey

theorem heeds_ofPath (path : Path) (algorithm : Algorithm) (mode : SigningMode) :
    Heeds SharedSession.session Ready (ofPath transport.recorded path algorithm mode) := by
  apply heeds_bind
  · apply heeds_locked
    apply heeds_bind (heeds_readAddress transport path)
    intro address
    apply heeds_bind (heeds_deriveSeed transport path algorithm)
    intro _
    apply heeds_bind (heeds_generateKey transport algorithm)
    intro publicKey
    exact heeds_pure _
  · intro keys
    exact heeds_pure _

theorem heeds_sign (key : HybridKey) (operation : Operation) (contract : Address)
    (chainId : UInt64) :
    Heeds SharedSession.session Ready
      (key.sign transport.recorded operation contract chainId) := by
  apply heeds_bind
  · apply heeds_locked
    cases key.mode with
    | hash => exact heeds_hybridSign transport key.path key.algorithm _
    | fields => exact heeds_clearSign transport key.path key.algorithm operation contract chainId
  · intro signatures
    apply heeds_bind (heeds_ofExcept _)
    intro _
    apply heeds_bind (heeds_finish _ _ _)
    intro postQuantum
    exact heeds_pure _

end HybridKey

/-- The task does nothing with the session, as when a signer keeps its key somewhere else. -/
def Apart {τ : Type} (task : Task τ α) : Prop :=
  ∀ state, (task state).2 = state

/-- Classical signers beside a lattice signer: their key is on the element, or the element has no
part in what they sign. -/
inductive ClassicalHalf (transport : Transport σ) :
    ClassicalSigner (SharedSession (Recorded σ ChannelEvent)) → Prop
  | onElement (key : ClassicalKey) : ClassicalHalf transport (key.toSigner transport.recorded)
  | elsewhere (signer : ClassicalSigner (SharedSession (Recorded σ ChannelEvent)))
      (apart : ∀ hash, Apart (signer.sign hash)) : ClassicalHalf transport signer

/-- Lattice signers beside a classical signer, likewise. -/
inductive LatticeHalf (transport : Transport σ) :
    PostQuantumSigner (SharedSession (Recorded σ ChannelEvent)) → Prop
  | onElement (key : LatticeKey) : LatticeHalf transport (key.toSigner transport.recorded)
  | elsewhere (signer : PostQuantumSigner (SharedSession (Recorded σ ChannelEvent)))
      (apart : ∀ message, Apart (signer.sign message)) : LatticeHalf transport signer

/-- The signers of operations that may use the element: both keys together, or two halves side by
side. -/
inductive OnElement (transport : Transport σ) :
    OperationSigner (SharedSession (Recorded σ ChannelEvent)) → Prop
  | together (key : HybridKey) : OnElement transport (key.toSigner transport.recorded)
  | sideBySide {classical : ClassicalSigner (SharedSession (Recorded σ ChannelEvent))}
      {lattice : PostQuantumSigner (SharedSession (Recorded σ ChannelEvent))}
      (classicalHalf : ClassicalHalf transport classical)
      (latticeHalf : LatticeHalf transport lattice) :
      OnElement transport (HybridSigner.toOperationSigner ⟨classical, lattice⟩)

section Halves

variable {transport : Transport σ}

theorem ClassicalHalf.inMemory (key : SoftwareKey) : ClassicalHalf transport key.toSigner :=
  .elsewhere key.toSigner fun hash => Task.ofExcept_still (key.sign hash)

theorem LatticeHalf.inMemory (key : MlDsaKey) : LatticeHalf transport key.toSigner :=
  .elsewhere key.toSigner fun message => Task.ofExcept_still (key.sign message)

theorem ClassicalHalf.heeds {signer : ClassicalSigner (SharedSession (Recorded σ ChannelEvent))}
    (half : ClassicalHalf transport signer) (hash : Hash) :
    Heeds SharedSession.session Ready (signer.sign hash) := by
  cases half with
  | onElement key => exact key.heeds_sign transport hash
  | elsewhere _ apart => exact heeds_of_still (apart hash)

theorem LatticeHalf.heeds {signer : PostQuantumSigner (SharedSession (Recorded σ ChannelEvent))}
    (half : LatticeHalf transport signer) (message : Bytes) :
    Heeds SharedSession.session Ready (signer.sign message) := by
  cases half with
  | onElement key => exact key.heeds_sign transport message
  | elsewhere _ apart => exact heeds_of_still (apart message)

theorem OnElement.heeds {signer : OperationSigner (SharedSession (Recorded σ ChannelEvent))}
    (onElement : OnElement transport signer) (operation : Operation) (contract : Address)
    (chainId : UInt64) :
    Heeds SharedSession.session Ready (signer.sign operation contract chainId) := by
  cases onElement with
  | together key => exact key.heeds_sign transport operation contract chainId
  | sideBySide classicalHalf latticeHalf =>
      apply heeds_bind (classicalHalf.heeds _)
      intro signature
      apply heeds_bind (latticeHalf.heeds _)
      intro postQuantum
      exact heeds_pure _

end Halves

end Element

namespace Pipeline

open Session

variable {ω : Type} {pipeline : Pipeline ω} {operation : Operation} {before after : ω}

/-- The signer's failure is the failure of building. -/
theorem conclude_reported {result : Except Halt HybridSignature}
    (asked : pipeline.signer.sign operation pipeline.config.entryPoint pipeline.config.chainId
      before = (result, after)) :
    (pipeline.conclude operation before).2 = after ∧
      ∀ error, result = .error (.failure error) →
        (pipeline.conclude operation before).1 = .error error := by
  rcases result with (error | _) | signature
  · rw [conclude, Task.bind_error (Attempt.ofSigning_failure asked)]
    refine ⟨rfl, ?_⟩
    intro _ same
    cases same
    rfl
  · rw [conclude, Task.bind_error (Attempt.ofSigning_crash asked)]
    refine ⟨rfl, ?_⟩
    intro _ impossible
    cases impossible
  · rw [conclude, Task.bind_ok (Attempt.ofSigning_ok asked)]
    refine ⟨rfl, ?_⟩
    intro _ impossible
    cases impossible

variable {get : ω → SharedSession (Recorded σ ChannelEvent)}
  {set : SharedSession (Recorded σ ChannelEvent) → ω → ω}
  {signer : OperationSigner (SharedSession (Recorded σ ChannelEvent))}

theorem build_reported (lawful : ∀ part whole, get (set part whole) = part)
    (heeds : ∀ operation contract chainId,
      Heeds SharedSession.session SharedSession.Ready (signer.sign operation contract chainId))
    (used : pipeline.signer = signer.focus get set) (request : Request) (before : ω)
    (ready : (get (pipeline.prepare request before).2).Ready) :
    Reported (get (pipeline.prepare request before).2).session
      (get (pipeline.build request before).2).session fun error =>
        (pipeline.build request before).1 = .error error := by
  rw [build_eq_conclude]
  generalize pipeline.prepare request before = settled at ready ⊢
  obtain ⟨operation, prepared⟩ := settled
  have asked : pipeline.signer.sign operation pipeline.config.entryPoint pipeline.config.chainId
      prepared =
        ((signer.sign operation pipeline.config.entryPoint pipeline.config.chainId
            (get prepared)).1,
          set (signer.sign operation pipeline.config.entryPoint pipeline.config.chainId
            (get prepared)).2 prepared) := by
    rw [used]
    rfl
  obtain ⟨reached, failed⟩ := conclude_reported asked
  rw [reached, lawful]
  exact (heeds _ _ _ _ ready).1.reported.mono failed

end Pipeline

theorem Error.isUserRejection_status (word : UInt16) :
    (Error.status word).isUserRejection = true ↔ word = 0x6985 :=
  decide_eq_true_iff

/-- When the element refuses a command or the channel fails, that is the last command sent, and it
is reported as it came: by the session, by every signer whose keys are on the element, and by a
pipeline that signs with one, also when only one half of its keys is there. The session stays open
and knows the seed that it knew before, or none if the command was to derive one. -/
theorem refusals_reach_the_caller (transport : Transport σ) :
    (∀ (action : Session.Action) (session : Session (Recorded σ ChannelEvent)),
      session.closed = false →
        (∃ events, (Session.perform transport.recorded action session).2.log =
            session.log ++ events ∧
          ((∀ event ∈ events, event.Granted) →
            (Session.perform transport.recorded action session).2.derived =
              seedTold session.derived events)) ∧
        Session.Reported session (Session.perform transport.recorded action session).2 fun error =>
          (Session.perform transport.recorded action session).1 = .error (.failure error)) ∧
    ((∀ path, SharedSession.Reports (Element.ClassicalKey.ofPath transport.recorded path)) ∧
      (∀ (key : Element.ClassicalKey) hash,
        SharedSession.Reports (key.sign transport.recorded hash)) ∧
      (∀ path algorithm,
        SharedSession.Reports (Element.LatticeKey.ofPath transport.recorded path algorithm)) ∧
      (∀ (key : Element.LatticeKey) message,
        SharedSession.Reports (key.sign transport.recorded message)) ∧
      (∀ path algorithm mode,
        SharedSession.Reports (Element.HybridKey.ofPath transport.recorded path algorithm mode)) ∧
      (∀ (key : Element.HybridKey) operation contract chainId,
        SharedSession.Reports (key.sign transport.recorded operation contract chainId))) ∧
    ((∀ (classical : Element.ClassicalKey) (lattice : Element.LatticeKey),
        Element.OnElement transport (HybridSigner.toOperationSigner
          ⟨classical.toSigner transport.recorded, lattice.toSigner transport.recorded⟩)) ∧
      (∀ (classical : Element.ClassicalKey) (lattice : MlDsaKey),
        Element.OnElement transport (HybridSigner.toOperationSigner
          ⟨classical.toSigner transport.recorded, lattice.toSigner⟩)) ∧
      ∀ (classical : SoftwareKey) (lattice : Element.LatticeKey),
        Element.OnElement transport (HybridSigner.toOperationSigner
          ⟨classical.toSigner, lattice.toSigner transport.recorded⟩)) ∧
    (∀ (ω : Type) (get : ω → SharedSession (Recorded σ ChannelEvent))
      (set : SharedSession (Recorded σ ChannelEvent) → ω → ω),
      (∀ part whole, get (set part whole) = part) →
        ∀ signer, Element.OnElement transport signer →
          ∀ (pipeline : Pipeline ω), pipeline.signer = signer.focus get set →
            ∀ request before, (get (pipeline.prepare request before).2).Ready →
              Session.Reported (get (pipeline.prepare request before).2).session
                (get (pipeline.build request before).2).session fun error =>
                  (pipeline.build request before).1 = .error error) ∧
    (∀ word, (Error.status word).isUserRejection = true ↔ word = 0x6985) := by
  refine ⟨?session, ⟨?classical, ?hash, ?lattice, ?message, ?hybrid, ?operation⟩, ?halves,
    ?pipeline, Error.isUserRejection_status⟩
  case session =>
    intro action session isOpen
    obtain ⟨traffic, _⟩ := Session.heeds_perform transport action session isOpen
    exact ⟨traffic.told, traffic.reported⟩
  case classical =>
    exact fun path => SharedSession.reports_of_heeds
      (Element.ClassicalKey.heeds_ofPath transport path)
  case hash =>
    exact fun key hash => SharedSession.reports_of_heeds (key.heeds_sign transport hash)
  case lattice =>
    exact fun path algorithm => SharedSession.reports_of_heeds
      (Element.LatticeKey.heeds_ofPath transport path algorithm)
  case message =>
    exact fun key message => SharedSession.reports_of_heeds (key.heeds_sign transport message)
  case hybrid =>
    exact fun path algorithm mode => SharedSession.reports_of_heeds
      (Element.HybridKey.heeds_ofPath transport path algorithm mode)
  case operation =>
    exact fun key operation contract chainId => SharedSession.reports_of_heeds
      (key.heeds_sign transport operation contract chainId)
  case halves =>
    exact ⟨fun classical lattice => .sideBySide (.onElement classical) (.onElement lattice),
      fun classical lattice => .sideBySide (.onElement classical) (.inMemory lattice),
      fun classical lattice => .sideBySide (.inMemory classical) (.onElement lattice)⟩
  case pipeline =>
    intro ω get set lawful signer onElement pipeline used request before ready
    exact Pipeline.build_reported lawful onElement.heeds used request before ready

/-- The seed is derived, and the confirmation is declined. -/
def declined : Session (Recorded (List Bytes) ChannelEvent) :=
  Session.start (Recorded.start [[0x90, 0x00], [0x69, 0x85]])

theorem refusals_reach_the_caller_declined :
    let action := Session.Action.hybridSign (Path.account 0) .falcon512 (Octets.zero 32)
    let ended := Session.perform scripted.recorded action declined
    ended.1 = .error (.failure (.status 0x6985)) ∧ ended.2.log.length = 2 ∧
      ended.2.closed = false ∧ ended.2.derived = some (Path.account 0, .falcon512) := by
  intro action ended
  obtain ⟨_, reported⟩ := (refusals_reach_the_caller scripted).1 action declined rfl
  let derivation := Session.derivation (Path.account 0) .falcon512
  let confirmation := Instruction.hybridSign.command 0 Algorithm.falcon512.deviceCode
    (Session.hashPayload (Path.account 0) (Octets.zero 32)) (by decide)
  have exchanged : ended.2.log =
      declined.log ++ [.exchanged derivation.toBytes (.ok [0x90, 0x00])] ++
        [.exchanged confirmation.toBytes (.ok (Response.toBytes ⟨[], 0x6985⟩))] := by
    rfl
  obtain ⟨failed, _, isOpen, known⟩ :=
    reported _ _ _ _ _ exchanged (.status [] 0x6985 (by decide))
  refine ⟨failed, by rw [exchanged]; rfl, isOpen, ?_⟩
  rw [known]
  rfl

end Countersign
