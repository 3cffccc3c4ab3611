import Countersign.Proofs.Session.Refusal

/-!
The end of a session. The channel is given back once, and nothing is sent over it afterwards. What
is asked of a session after its end is refused; but two of its tasks look for a seed first, which
the session has forgotten, and do not say that it is closed.
-/

namespace Countersign.Session

variable {σ : Type}

/-- The channel was not given back in the course of the log. -/
def NeverReleased (log : List ChannelEvent) : Prop :=
  ∀ event ∈ log, event.isRelease = false

theorem NeverReleased.append_exchange {log : List ChannelEvent} (never : NeverReleased log)
    (command : Bytes) (reply : Except Halt Bytes) :
    NeverReleased (log ++ [.exchanged command reply]) := by
  intro event member
  rcases List.mem_append.mp member with earlier | last
  · exact never event earlier
  · rw [List.mem_singleton.mp last]
    rfl

/-- An open session has not given its channel back. A closed one has done so last of all, and
knows no seed. -/
inductive Orderly : Session (Recorded σ ChannelEvent) → Prop
  | inUse {session : Session (Recorded σ ChannelEvent)} (isOpen : session.closed = false)
      (never : NeverReleased session.log) : Orderly session
  | ended {session : Session (Recorded σ ChannelEvent)} (closed : session.closed = true)
      (forgotten : session.derived = none) (exchanges : List ChannelEvent)
      (never : NeverReleased exchanges) (log_eq : session.log = exchanges ++ [.released]) :
      Orderly session

theorem orderly_start (channel : σ) : (start (Recorded.start channel)).Orderly :=
  .inUse rfl fun _ member => absurd member List.not_mem_nil

section Steps

variable {transport : Transport σ} {owner : Option (Path × Algorithm)}
  {before after : Session (Recorded σ ChannelEvent)}

theorem Orderly.neverReleased (orderly : before.Orderly) (isOpen : before.closed = false) :
    NeverReleased before.log := by
  cases orderly with
  | inUse _ never => exact never
  | ended closed _ _ _ _ =>
      rw [isOpen] at closed
      cases closed

theorem orderly_of_exchange (orderly : before.Orderly) (isOpen : before.closed = false)
    (openStill : after.closed = false) {command : Bytes} {reply : Except Halt Bytes}
    (log_eq : after.log = before.log ++ [.exchanged command reply]) : after.Orderly := by
  refine .inUse openStill ?_
  rw [log_eq]
  exact (orderly.neverReleased isOpen).append_exchange command reply

theorem step_orderly (step : Step transport.recorded owner before after)
    (orderly : before.Orderly) : after.Orderly := by
  cases step with
  | forget =>
      cases orderly with
      | inUse isOpen never => exact .inUse isOpen never
      | ended closed _ exchanges never log_eq => exact .ended closed rfl exchanges never log_eq
  | classical instruction p1 p2 data fits isOpen _ =>
      exact orderly_of_exchange orderly isOpen isOpen (log_sent transport _ before)
  | derive path algorithm isOpen =>
      exact orderly_of_exchange orderly isOpen isOpen (log_sent transport _ before)
  | lattice instruction p1 p2 data fits isOpen _ _ _ _ _ _ =>
      exact orderly_of_exchange orderly isOpen isOpen (log_sent transport _ before)

theorem close_of_open {session : Session σ} (isOpen : session.closed = false) :
    session.close transport = ⟨transport.release session.channel, none, true⟩ := by
  rw [close, isOpen]
  rfl

theorem close_of_closed {session : Session σ} (closed : session.closed = true) :
    session.close transport = session := by
  rw [close, if_pos closed]

theorem close_orderly (orderly : before.Orderly) :
    (before.close transport.recorded).Orderly := by
  cases orderly with
  | inUse isOpen never =>
      rw [close_of_open isOpen]
      exact .ended rfl rfl before.log never rfl
  | ended closed forgotten exchanges never log_eq =>
      rw [close_of_closed closed]
      exact .ended closed forgotten exchanges never log_eq

theorem steps_orderly
    (steps : Relation.ReflTransGen (StepOrEnd transport.recorded owner) before after)
    (orderly : before.Orderly) : after.Orderly := by
  induction steps with
  | refl => exact orderly
  | tail _ step inductionHypothesis =>
      rcases step with step | rfl
      · exact step_orderly step inductionHypothesis
      · exact close_orderly inductionHypothesis

/-- Whatever the holders of a shared session do, its channel is given back once at most, and last
of all. -/
theorem runAll_orderly (moves : List Move) {shared : SharedSession (Recorded σ ChannelEvent)}
    (orderly : shared.session.Orderly) :
    (Move.runAll transport.recorded moves shared).session.Orderly := by
  induction moves generalizing shared with
  | nil => exact orderly
  | cons move rest inductionHypothesis =>
      apply inductionHypothesis
      exact steps_orderly (move.run_steps transport.recorded shared) orderly

end Steps

/-- Something that is done with a session by who holds it. To let go of it is to close it. -/
inductive Use
  | perform (action : Action)
  | close
deriving DecidableEq

/-- The session after a use, whatever came of it. -/
def Use.run (transport : Transport σ) (session : Session σ) : Use → Session σ
  | perform action => (Session.perform transport action session).2
  | close => session.close transport

/-- The session after one use after the other. -/
def runUses (transport : Transport σ) (uses : List Use) (session : Session σ) : Session σ :=
  uses.foldl (Use.run transport) session

section Uses

variable (transport : Transport σ)

theorem Use.run_steps (use : Use) (session : Session σ) :
    Relation.ReflTransGen (StepOrEnd transport none) session (use.run transport session) := by
  cases use with
  | perform action =>
      obtain ⟨steps, _⟩ := runs_perform transport action session trivial
      exact Relation.ReflTransGen.mono (fun _ _ step => .inl step) _ _ steps
  | close => exact .single (.inr rfl)

theorem runUses_steps (uses : List Use) (session : Session σ) :
    Relation.ReflTransGen (StepOrEnd transport none) session
      (runUses transport uses session) := by
  induction uses generalizing session with
  | nil => exact .refl
  | cons use later inductionHypothesis =>
      exact (use.run_steps transport session).trans
        (inductionHypothesis (use.run transport session))

theorem runUses_orderly (uses : List Use) {session : Session (Recorded σ ChannelEvent)}
    (orderly : session.Orderly) : (runUses transport.recorded uses session).Orderly :=
  steps_orderly (runUses_steps transport.recorded uses session) orderly

theorem closed_perform (action : Action) (session : Session σ) :
    (perform transport action session).2.closed = session.closed :=
  closed_eq_of_steps (runs_perform transport action session trivial).1

theorem closed_close (session : Session σ) : (session.close transport).closed = true := by
  cases closed : session.closed with
  | true => rw [close_of_closed closed, closed]
  | false => rw [close_of_open closed]

theorem closed_runUses (uses : List Use) (session : Session σ) :
    (runUses transport uses session).closed = true ↔ session.closed = true ∨ .close ∈ uses := by
  induction uses generalizing session with
  | nil => simp [runUses]
  | cons use later inductionHypothesis =>
      change (runUses transport later (use.run transport session)).closed = true ↔ _
      rw [inductionHypothesis, List.mem_cons]
      cases use with
      | perform action =>
          simp [Use.run, closed_perform]
      | close =>
          simp [Use.run, closed_close]

end Uses

/-- With what a closed session refuses an action. -/
def Action.refusalWhenClosed : Action → Error
  | generateKey algorithm => .validation (.seedMissing algorithm)
  | signMessage algorithm _ => .validation (.seedMissing algorithm)
  | _ => .channel .closed

section Closed

variable (transport : Transport σ) {session : Session σ}

theorem requireSeed_forgotten (algorithm : Algorithm) (forgotten : session.derived = none) :
    requireSeed algorithm session =
      (.error (.failure (.validation (.seedMissing algorithm))), session) := by
  apply requireSeed_of_unknown
  rw [forgotten]
  simp

theorem deriveSeed_forgotten (path : Path) (algorithm : Algorithm) (closed : session.closed = true)
    (forgotten : session.derived = none) :
    deriveSeed transport path algorithm session =
      (.error (.failure (.channel .closed)), session) := by
  have same : ({ session with derived := none } : Session σ) = session := by
    rw [← forgotten]
  rw [deriveSeed_closed transport path algorithm closed, same]

theorem ensureSeed_forgotten (path : Path) (algorithm : Algorithm) (closed : session.closed = true)
    (forgotten : session.derived = none) :
    ensureSeed transport path algorithm session =
      (.error (.failure (.channel .closed)), session) := by
  rw [ensureSeed, Task.bind_ok (Task.get_apply session), forgotten, if_neg (by simp)]
  exact deriveSeed_forgotten transport path algorithm closed forgotten

theorem map_refused {α β : Type} {task : Task (Session σ) α} {error : Error} (f : α → β)
    (refused : task session = (.error (.failure error), session)) :
    (f <$> task) session = (.error (.failure error), session) := by
  rw [Task.map_apply, refused]
  rfl

/-- A closed session refuses everything and stays as it is. -/
theorem perform_closed (action : Action) (closed : session.closed = true)
    (forgotten : session.derived = none) :
    perform transport action session = (.error (.failure action.refusalWhenClosed), session) := by
  cases action with
  | readClassicalKey path =>
      exact map_refused _ (Task.bind_error (transmit_closed transport _ _ _ _ closed))
  | readAddress path =>
      exact map_refused _ (Task.bind_error
        (Task.bind_error (transmit_closed transport _ _ _ _ closed)))
  | signHash path hash =>
      exact map_refused _ (Task.bind_error (transmit_closed transport _ _ _ _ closed))
  | deriveSeed path algorithm =>
      exact map_refused _ (deriveSeed_forgotten transport path algorithm closed forgotten)
  | ensureSeed path algorithm =>
      exact map_refused _ (ensureSeed_forgotten transport path algorithm closed forgotten)
  | generateKey algorithm =>
      exact map_refused _ (Task.bind_error (requireSeed_forgotten algorithm forgotten))
  | signMessage algorithm message =>
      exact map_refused _ (Task.bind_error (requireSeed_forgotten algorithm forgotten))
  | hybridSign path algorithm hash =>
      exact map_refused _
        (Task.bind_error (ensureSeed_forgotten transport path algorithm closed forgotten))
  | clearSign path algorithm operation contract chainId =>
      exact map_refused _
        (Task.bind_error (ensureSeed_forgotten transport path algorithm closed forgotten))

theorem runUses_closed (uses : List Use) (closed : session.closed = true)
    (forgotten : session.derived = none) : runUses transport uses session = session := by
  induction uses with
  | nil => rfl
  | cons use later inductionHypothesis =>
      have same : use.run transport session = session := by
        cases use with
        | perform action => rw [Use.run, perform_closed transport action closed forgotten]
        | close => exact close_of_closed closed
      change runUses transport later (use.run transport session) = session
      rw [same]
      exact inductionHypothesis

end Closed

/-- However a session is used and wherever it is closed or let go of, its channel is given back
once, when the session is first closed. After that the session is not connected, knows no seed and
sends nothing, whatever is asked of it. -/
theorem channel_released_once (transport : Transport σ) (channel : σ) (earlier later : List Use) :
    let opened := runUses transport.recorded earlier (start (Recorded.start channel))
    let ended := runUses transport.recorded later (opened.close transport.recorded)
    ∃ exchanges, NeverReleased exchanges ∧
      opened.log = exchanges ++ (if .close ∈ earlier then [.released] else []) ∧
      ended.log = exchanges ++ [.released] ∧
      ended.isConnected transport.recorded = false ∧ ended.derived = none := by
  intro opened ended
  have orderly : opened.Orderly := runUses_orderly transport earlier (orderly_start channel)
  have closedWhen : opened.closed = true ↔ .close ∈ earlier := by
    rw [closed_runUses]
    simp [start]
  cases orderly with
  | inUse isOpen never =>
      have notYet : .close ∉ earlier := by
        rw [← closedWhen, isOpen]
        simp
      have stays : ended = opened.close transport.recorded := by
        apply runUses_closed transport.recorded later (closed_close transport.recorded opened)
        rw [close_of_open isOpen]
      rw [stays, close_of_open isOpen, if_neg notYet]
      exact ⟨opened.log, never, (List.append_nil _).symm, rfl, rfl, rfl⟩
  | ended closed forgotten exchanges never log_eq =>
      have stays : ended = opened := by
        change runUses transport.recorded later (opened.close transport.recorded) = opened
        rw [close_of_closed closed]
        exact runUses_closed transport.recorded later closed forgotten
      rw [stays, if_pos (closedWhen.mp closed)]
      refine ⟨exchanges, never, log_eq, log_eq, ?_, forgotten⟩
      rw [isConnected, closed]
      rfl

/-- What is asked of a session after it was closed fails without a word to the element. It fails
because the session is closed, or for want of a seed where the task looks for one first. -/
theorem closed_session_refuses (transport : Transport σ) (channel : σ) (earlier later : List Use)
    (action : Action) :
    let opened := runUses transport.recorded earlier (start (Recorded.start channel))
    let ended := runUses transport.recorded later (opened.close transport.recorded)
    perform transport.recorded action ended =
      (.error (.failure action.refusalWhenClosed), ended) := by
  intro opened ended
  have orderly : ended.Orderly := by
    apply runUses_orderly transport later
    exact close_orderly (runUses_orderly transport earlier (orderly_start channel))
  have closed : ended.closed = true :=
    (closed_runUses transport.recorded later _).mpr (.inl (closed_close transport.recorded opened))
  cases orderly with
  | inUse isOpen _ =>
      rw [closed] at isOpen
      cases isOpen
  | ended _ forgotten _ _ _ => exact perform_closed transport.recorded action closed forgotten

/-- A closed session that held a seed asks for one when it is to generate a key, and does not say
that it is closed. -/
theorem closed_session_asks_for_seed :
    ¬ ∀ (uses : List Use) (action : Action),
      let closed := (runUses scripted.recorded uses
        (start (Recorded.start [[0x90, 0x00]]))).close scripted.recorded
      ∃ fault, (perform scripted.recorded action closed).1 =
        .error (.failure (.channel fault)) := by
  intro always
  obtain ⟨fault, refused⟩ :=
    always [.perform (.deriveSeed (Path.account 0) .mlDsa44)] (.generateKey .mlDsa44)
  cases refused

end Countersign.Session
