import Countersign.Proofs.SecureElement.Operations

/-!
Whatever has been asked of a session before, and wherever it stopped: what is asked next is answered
as in a session that has just begun.
-/

namespace Countersign.SecureElement

open Session (Action Answer)

section Steps

variable (keys : Keys) (refusals : Nat → Option Refusal)

theorem sent_seed {command : Command} (other : command.ins ≠ Instruction.deriveSeed.code)
    (session : Session Channel) :
    (session.sent (transport keys refusals) command).channel.state.seed =
      session.channel.state.seed := by
  unfold Session.sent
  dsimp only
  cases schedule : refusals session.channel.count with
  | some refusal => rw [exchange_refused keys refusals schedule]
  | none =>
      rw [exchange_carriedOut keys refusals schedule]
      exact carryOut_seed keys session.channel.state other

/-- A derivation that is granted leaves the element with the seed, and one that is refused leaves
the session without. -/
theorem synced_derive (path : Path) (algorithm : Algorithm) (session : Session Channel) :
    Synced
      (Session.seedAfter path algorithm
        (session.reply (transport keys refusals) (Session.derivation path algorithm)))
      (session.sent (transport keys refusals)
        (Session.derivation path algorithm)).channel.state := by
  unfold Session.reply Session.sent
  dsimp only
  cases schedule : refusals session.channel.count with
  | some refusal =>
      rw [exchange_refused keys refusals schedule]
      intro seed known
      rw [Session.seedAfter, received_refusal] at known
      cases known
  | none =>
      rw [exchange_carriedOut keys refusals schedule, carryOut_derivation]
      intro seed known
      rw [Session.seedAfter, received_grant] at known
      exact known

theorem step_synced {owner : Option (Path × Algorithm)} {before after : Session Channel}
    (step : Session.Step (transport keys refusals) owner before after)
    (synced : Synced before.derived before.channel.state) :
    Synced after.derived after.channel.state := by
  cases step with
  | forget =>
      intro seed known
      cases known
  | classical instruction p1 p2 data fits isOpen other =>
      have notDerive : instruction.code ≠ Instruction.deriveSeed.code := by
        rcases other with rfl | rfl <;> decide
      intro seed known
      rw [sent_seed keys refusals notDerive]
      exact synced seed known
  | derive path algorithm isOpen => exact synced_derive keys refusals path algorithm before
  | lattice instruction p1 p2 data fits isOpen uses path algorithm known made owned =>
      have notDerive : instruction.code ≠ Instruction.deriveSeed.code := by
        intro same
        rw [Instruction.code_injective same] at uses
        cases uses
      intro seed wanted
      rw [sent_seed keys refusals notDerive]
      exact synced seed wanted

theorem steps_synced {owner : Option (Path × Algorithm)} {before after : Session Channel}
    (steps : Relation.ReflTransGen (Session.Step (transport keys refusals) owner) before after)
    (isOpen : before.closed = false) (synced : Synced before.derived before.channel.state) :
    after.closed = false ∧ Synced after.derived after.channel.state := by
  induction steps with
  | refl => exact ⟨isOpen, synced⟩
  | tail _ step inductionHypothesis =>
      obtain ⟨openBetween, syncedBetween⟩ := inductionHypothesis
      exact ⟨step.closed_eq.trans openBetween, step_synced keys refusals step syncedBetween⟩

end Steps

/-- A session that has just begun, with an element that may keep anything. -/
def fresh (state : State) : Session Channel :=
  .start ⟨state, 0⟩

/-- The session after a history: each action is performed as far as it goes. -/
def runHistory {σ : Type} (transport : Transport σ) (history : List Action)
    (session : Session σ) : Session σ :=
  history.foldl (fun current action => (Session.perform transport action current).2) session

theorem runHistory_synced (keys : Keys) (refusals : Nat → Option Refusal)
    (history : List Action) {session : Session Channel} (isOpen : session.closed = false)
    (synced : Synced session.derived session.channel.state) :
    (runHistory (transport keys refusals) history session).closed = false ∧
      Synced (runHistory (transport keys refusals) history session).derived
        (runHistory (transport keys refusals) history session).channel.state := by
  induction history generalizing session with
  | nil => exact ⟨isOpen, synced⟩
  | cons action later inductionHypothesis =>
      have steps := (Session.runs_perform (transport keys refusals) action session trivial).1
      have kept := steps_synced keys refusals steps isOpen synced
      exact inductionHypothesis kept.1 kept.2

/-- Something to be asked of a session for its result. -/
inductive Query
  | classicalKey (path : Path)
  | address (path : Path)
  | signature (path : Path) (hash : Hash)
  | latticeKey (path : Path) (algorithm : Algorithm)
  | message (path : Path) (algorithm : Algorithm) (message : Bytes)
  | both (path : Path) (algorithm : Algorithm) (hash : Hash)
  | operation (path : Path) (algorithm : Algorithm) (operation : Operation) (contract : Address)
      (chainId : UInt64)

namespace Query

/-- Asks a session. A seed is made sure of before it is used. -/
def run {σ : Type} (transport : Transport σ) : Query → Task (Session σ) Answer
  | classicalKey path => Session.perform transport (.readClassicalKey path)
  | address path => Session.perform transport (.readAddress path)
  | signature path hash => Session.perform transport (.signHash path hash)
  | latticeKey path algorithm => do
      let _ ← Session.perform transport (.ensureSeed path algorithm)
      Session.perform transport (.generateKey algorithm)
  | message path algorithm content => do
      let _ ← Session.perform transport (.ensureSeed path algorithm)
      Session.perform transport (.signMessage algorithm content)
  | both path algorithm hash => Session.perform transport (.hybridSign path algorithm hash)
  | operation path algorithm requested contract chainId =>
      Session.perform transport (.clearSign path algorithm requested contract chainId)

/-- What an element with given keys has to answer. -/
def answer (keys : Keys) : Query → Except Halt Answer
  | classicalKey path => .ok (.bytes (0x04 :: (keys.coordinates path).bytes))
  | address path => .ok (.address (Address.ofCoordinates (keys.coordinates path).bytes))
  | signature path hash => .ok (.classical (keys.classical path hash).lowered)
  | latticeKey path algorithm => .ok (.bytes (keys.latticeKey path algorithm).bytes)
  | message path algorithm content => (messageResult keys path algorithm content).map .bytes
  | both path algorithm hash =>
      (bothResult keys path algorithm hash).map fun pair => .both pair.1 pair.2
  | operation path algorithm requested contract chainId =>
      (bothResult keys path algorithm (requested.hash contract chainId)).map
        fun pair => .both pair.1 pair.2

end Query

theorem serves_perform {α : Type} {refusals : Nat → Option Refusal} {before after : Situation}
    {task : Task (Session Channel) α} {result : Except Halt α} (f : α → Answer)
    (served : Serves refusals before task result after) :
    Serves refusals before (f <$> task) (result.map f) after := by
  rw [Task.map_eq_bind]
  exact serves_map f served

/-- In every synchronous situation a query is answered, if no command of it is refused. -/
theorem serves_query (keys : Keys) (refusals : Nat → Option Refusal) (query : Query) :
    Serves refusals Synced (query.run (transport keys refusals)) (query.answer keys) Synced := by
  have ensured (path : Path) (algorithm : Algorithm) : Serves refusals Synced
      (Session.perform (transport keys refusals) (.ensureSeed path algorithm)) (.ok .done)
      (Holding path algorithm) :=
    serves_perform (fun _ => .done) (serves_ensureSeed keys refusals path algorithm)
  have synced (path : Path) (algorithm : Algorithm) (derived : Option (Path × Algorithm))
      (state : State) (holding : Holding path algorithm derived state) :
      Synced derived state := holding.synced
  cases query with
  | classicalKey path =>
      exact serves_perform .bytes (serves_readClassicalKey keys refusals path Synced)
  | address path =>
      exact serves_perform .address (serves_readAddress keys refusals path Synced)
  | signature path hash =>
      exact serves_perform .classical (serves_signHash keys refusals path Synced hash)
  | latticeKey path algorithm =>
      have generated := serves_perform .bytes (serves_generateKey keys refusals path algorithm)
      exact serves_bind (ensured path algorithm)
        (generated.weaken (fun _ _ holding => holding) (synced path algorithm))
  | message path algorithm message =>
      have signed := serves_perform .bytes
        (serves_signMessage keys refusals path algorithm message)
      exact serves_bind (ensured path algorithm)
        (signed.weaken (fun _ _ holding => holding) (synced path algorithm))
  | both path algorithm hash =>
      have signed := serves_perform (fun pair => .both pair.1 pair.2)
        (serves_hybridSign keys refusals path algorithm hash)
      exact signed.weaken (fun _ _ start => start) (synced path algorithm)
  | operation path algorithm operation contract chainId =>
      have signed := serves_perform (fun pair => .both pair.1 pair.2)
        (serves_clearSign keys refusals path algorithm operation contract chainId)
      exact signed.weaken (fun _ _ start => start) (synced path algorithm)

theorem fresh_synced (state : State) :
    Synced (fresh state).derived (fresh state).channel.state := by
  intro seed known
  cases known

/-- After a history a query of which no command is refused yields its answer. -/
theorem query_after_history (keys : Keys) (refusals : Nat → Option Refusal) (initial : State)
    (history : List Action) (query : Query)
    (unrefused : Unrefused refusals (runHistory (transport keys refusals) history (fresh initial))
      (query.run (transport keys refusals)
        (runHistory (transport keys refusals) history (fresh initial))).2) :
    (query.run (transport keys refusals)
      (runHistory (transport keys refusals) history (fresh initial))).1 = query.answer keys := by
  have openFirst : (fresh initial).closed = false := rfl
  obtain ⟨isOpen, synced⟩ := runHistory_synced keys refusals history openFirst
    (fresh_synced initial)
  obtain ⟨_, ended⟩ := serves_query keys refusals query _ isOpen synced
  rcases ended with ⟨refused, _⟩ | ⟨answered, _⟩
  · exact absurd unrefused refused
  · exact answered

theorem answer_of_short {keys : Keys} {path : Path} {algorithm : Algorithm} {content : Bytes}
    (short : content.length ≤ 65535)
    (fits : (keys.latticeSignature path algorithm content).length ≤ 65280) :
    (Query.message path algorithm content).answer keys =
      .ok (.bytes (keys.latticeSignature path algorithm content)) := by
  have read : messageResult keys path algorithm content =
      .ok (keys.latticeSignature path algorithm content) := by
    rw [messageResult, if_neg (by omega), readable, if_pos fits]
  rw [Query.answer, read]
  rfl

theorem answer_of_long {keys : Keys} {path : Path} {algorithm : Algorithm} {content : Bytes}
    (short : content.length ≤ 65535)
    (long : 65280 < (keys.latticeSignature path algorithm content).length) :
    (Query.message path algorithm content).answer keys =
      .error (.failure (.protocol (.unreadableLength
        (keys.latticeSignature path algorithm content).length))) := by
  have unreadable : messageResult keys path algorithm content =
      .error (.failure (.protocol (.unreadableLength
        (keys.latticeSignature path algorithm content).length))) := by
    rw [messageResult, if_neg (by omega), readable, if_neg (by omega)]
  rw [Query.answer, unreadable]
  rfl

/-- An element with an empty memory. -/
def blankState : State :=
  ⟨none, none, [], [], none, [], []⟩

/-- Keys that compute the same for every path and message. -/
def constantKeys : Keys where
  coordinates _ := Octets.zero 64
  classical _ _ := ⟨Octets.ofNat 32 1, Octets.ofNat 32 1, 27, by decide, by decide, by decide⟩
  latticeKey _ algorithm := Octets.zero algorithm.publicKeyLength
  mlDsa _ _ := Octets.zero 2420
  salt _ _ := Octets.zero 40
  falcon _ _ := ⟨[0x29], by decide⟩

/-- The second command, which asks for a confirmation, is refused by the user. -/
def refusedConfirmation (index : Nat) : Option Refusal :=
  if index = 1 then some ⟨⟨[], 0x6985⟩, by decide⟩ else none

theorem unread_of_greatest_length {message : Bytes} (length : message.length = 65535) :
    ((Query.message .root .falcon512 message).run (transport constantKeys fun _ => none)
      (fresh blankState)).1 = .error (.failure (.protocol (.unreadableLength 65578))) := by
  have signedLength : (constantKeys.latticeSignature .root .falcon512 message).length =
      65578 := by
    rw [Keys.length_falconSignature, length]
    rfl
  have answered := query_after_history constantKeys (fun _ => none) blankState []
    (Query.message .root .falcon512 message) fun _ _ _ => rfl
  rw [answer_of_long (by omega) (by omega), signedLength] at answered
  exact answered

/-- Whatever a session has been asked before, with whatever refusals: a query of which no command
is refused is answered as the keys have it, just as in a session that has just begun. -/
theorem answered_as_in_fresh_session (keys : Keys) (refusals : Nat → Option Refusal)
    (initial : State) (history : List Action) (query : Query) :
    let session := runHistory (transport keys refusals) history (fresh initial)
    let ended := query.run (transport keys refusals) session
    Unrefused refusals session ended.2 →
      ended.1 = query.answer keys ∧
        (∀ other : State,
          ended.1 = (query.run (transport keys fun _ => none) (fresh other)).1) ∧
        ∀ path algorithm message,
          query = .message path algorithm message → message.length ≤ 65535 →
            (keys.latticeSignature path algorithm message).length ≤ 65280 →
              ended.1 = .ok (.bytes (keys.latticeSignature path algorithm message)) := by
  intro session ended unrefused
  have answered : ended.1 = query.answer keys :=
    query_after_history keys refusals initial history query unrefused
  refine ⟨answered, ?_, ?_⟩
  · intro other
    rw [answered]
    exact (query_after_history keys (fun _ => none) other [] query fun _ _ _ => rfl).symm
  · rintro path algorithm message rfl short fits
    rw [answered]
    exact answer_of_short short fits

/-- After a refused confirmation both signatures are made when they are asked for again. -/
theorem answered_after_refused_confirmation :
    let history := [Action.hybridSign .root .mlDsa44 (Octets.zero 32)]
    let session := runHistory (transport constantKeys refusedConfirmation) history
      (fresh blankState)
    let query := Query.both .root .mlDsa44 (Octets.zero 32)
    let ended := query.run (transport constantKeys refusedConfirmation) session
    Unrefused refusedConfirmation session ended.2 ∧
      ended.1 = .ok (.both ⟨Octets.ofNat 32 1, Octets.ofNat 32 1, 27⟩ (Bytes.zeros 2420)) := by
  intro history session query ended
  have received : session.channel.count = 2 := by decide +kernel
  have unrefused : Unrefused refusedConfirmation session ended.2 := by
    intro index lower _
    rw [received] at lower
    exact if_neg (by omega)
  have specified : query.answer constantKeys =
      .ok (.both ⟨Octets.ofNat 32 1, Octets.ofNat 32 1, 27⟩ (Bytes.zeros 2420)) := by
    decide +kernel
  have answered := (answered_as_in_fresh_session constantKeys refusedConfirmation blankState
    history query unrefused).1
  exact ⟨unrefused, answered.trans specified⟩

/-- A signed message around a message of the greatest length has more chunks than can be asked
for, so that it is not what comes of signing. -/
theorem longest_message_unread :
    let message : Bytes := List.replicate 65535 0
    let ended := (Query.message .root .falcon512 message).run
      (transport constantKeys fun _ => none) (fresh blankState)
    message.length ≤ 65535 ∧
      Unrefused (fun _ => none) (fresh blankState) ended.2 ∧
      ended.1 ≠ .ok (.bytes (constantKeys.latticeSignature .root .falcon512 message)) := by
  intro message ended
  have length : message.length = 65535 := List.length_replicate
  have unread : ended.1 = .error (.failure (.protocol (.unreadableLength 65578))) :=
    unread_of_greatest_length length
  refine ⟨Nat.le_of_eq length, fun _ _ _ => rfl, ?_⟩
  rw [unread]
  intro same
  cases same

end Countersign.SecureElement
