import Countersign.Proofs.SecureElement.Machine
import Countersign.Proofs.Session.Reading

/-!
What tasks yield with an element that follows the protocol, unless it refuses one of their commands.
-/

namespace Countersign.SecureElement

/-- None of the commands between two states of a session was refused. -/
def Unrefused (refusals : Nat → Option Refusal) (before after : Session Channel) : Prop :=
  ∀ index, before.channel.count ≤ index → index < after.channel.count → refusals index = none

/-- Something about the seed that an open session knows and what the element keeps. -/
abbrev Situation := Option (Path × Algorithm) → State → Prop

/-- In a situation, the task ends with a given result and in another situation, or one of its
commands is refused and it yields nothing. -/
def Serves {α : Type} (refusals : Nat → Option Refusal) (before : Situation)
    (task : Task (Session Channel) α) (result : Except Halt α) (after : Situation) : Prop :=
  ∀ session, session.closed = false → before session.derived session.channel.state →
    session.channel.count ≤ (task session).2.channel.count ∧
      ((¬ Unrefused refusals session (task session).2 ∧ ∃ halt, (task session).1 = .error halt) ∨
        ((task session).1 = result ∧ (task session).2.closed = false ∧
          after (task session).2.derived (task session).2.channel.state))

section Rules

variable {α β : Type} {refusals : Nat → Option Refusal} {before between after : Situation}

theorem serves_pure (value : α) :
    Serves refusals before (pure value) (.ok value) before :=
  fun _ isOpen start => ⟨Nat.le_refl _, .inr ⟨rfl, isOpen, start⟩⟩

theorem serves_fail (error : Error) :
    Serves refusals before (Task.fail error : Task (Session Channel) α) (.error (.failure error))
      before :=
  fun _ isOpen start => ⟨Nat.le_refl _, .inr ⟨rfl, isOpen, start⟩⟩

theorem serves_ofExcept {result : Except Error α} {value : α} (found : result = .ok value) :
    Serves refusals before (Task.ofExcept result) (.ok value) before := by
  rw [found]
  exact serves_pure value

theorem serves_know (derived : Option (Path × Algorithm)) :
    Serves refusals (fun _ state => after derived state)
      (modify fun session => { session with derived }) (.ok ()) after :=
  fun _ isOpen start => ⟨Nat.le_refl _, .inr ⟨rfl, isOpen, start⟩⟩

theorem serves_bind {task : Task (Session Channel) α} {next : α → Task (Session Channel) β}
    {value : α} {result : Except Halt β}
    (first : Serves refusals before task (.ok value) between)
    (second : Serves refusals between (next value) result after) :
    Serves refusals before (task >>= next) result after := by
  intro session isOpen start
  obtain ⟨received, ended⟩ := first session isOpen start
  rcases ended with ⟨refused, halt, halted⟩ | ⟨yields, openLater, reached⟩
  · have stopped : (task >>= next) session = (.error halt, (task session).2) :=
      Task.bind_error (Prod.ext halted rfl)
    rw [stopped]
    exact ⟨received, .inl ⟨refused, halt, rfl⟩⟩
  · have continued : (task >>= next) session = next value (task session).2 :=
      Task.bind_ok (Prod.ext yields rfl)
    rw [continued]
    obtain ⟨receivedLater, endedLater⟩ := second (task session).2 openLater reached
    refine ⟨Nat.le_trans received receivedLater, ?_⟩
    rcases endedLater with ⟨refused, halted⟩ | served
    · refine .inl ⟨?_, halted⟩
      intro unrefused
      apply refused
      intro index lower upper
      exact unrefused index (Nat.le_trans received lower) upper
    · exact .inr served

theorem serves_map {task : Task (Session Channel) α} {result : Except Halt α} (f : α → β)
    (served : Serves refusals before task result after) :
    Serves refusals before (task >>= fun value => pure (f value)) (result.map f) after := by
  cases result with
  | ok value =>
      have returned : Serves refusals after (pure (f value)) (.ok (f value)) after :=
        serves_pure (f value)
      exact serves_bind served returned
  | error halt =>
      intro session isOpen start
      obtain ⟨received, ended⟩ := served session isOpen start
      rcases ended with ⟨refused, stop, halted⟩ | ⟨failed, rest⟩
      · have stopped : (task >>= fun value => pure (f value)) session =
            (.error stop, (task session).2) := Task.bind_error (Prod.ext halted rfl)
        rw [stopped]
        exact ⟨received, .inl ⟨refused, stop, rfl⟩⟩
      · have stopped : (task >>= fun value => pure (f value)) session =
            (.error halt, (task session).2) := Task.bind_error (Prod.ext failed rfl)
        rw [stopped]
        exact ⟨received, .inr ⟨rfl, rest⟩⟩

theorem Serves.weaken {task : Task (Session Channel) α} {result : Except Halt α}
    {narrower wider : Situation} (served : Serves refusals before task result after)
    (narrow : ∀ derived state, narrower derived state → before derived state)
    (widen : ∀ derived state, after derived state → wider derived state) :
    Serves refusals narrower task result wider := by
  intro session isOpen start
  obtain ⟨received, ended⟩ := served session isOpen (narrow _ _ start)
  refine ⟨received, ?_⟩
  rcases ended with refused | ⟨yields, openLater, reached⟩
  · exact .inl refused
  · exact .inr ⟨yields, openLater, widen _ _ reached⟩

end Rules

theorem received_refusal (refusal : Refusal) :
    Session.received (.ok refusal.val.toBytes) =
      .error (.failure (.status refusal.val.status)) := by
  rw [Session.received, Response.read_refusal refusal.property]

theorem received_grant (data : Bytes) (state : State) :
    Session.received (.ok (grant data state).1.toBytes) = .ok data := by
  rw [grant, Session.received, Response.read_success]

section Commands

variable (keys : Keys) (refusals : Nat → Option Refusal)

theorem exchange_refused {command : Command} {channel : Channel} {refusal : Refusal}
    (refused : refusals channel.count = some refusal) :
    (transport keys refusals).exchange command.toBytes channel =
      (.ok refusal.val.toBytes, ⟨channel.state, channel.count + 1⟩) := by
  simp only [transport, Command.ofBytes_toBytes, refused]

theorem exchange_carriedOut {command : Command} {channel : Channel}
    (free : refusals channel.count = none) :
    (transport keys refusals).exchange command.toBytes channel =
      (.ok (carryOut keys channel.state command).1.toBytes,
        ⟨(carryOut keys channel.state command).2, channel.count + 1⟩) := by
  simp only [transport, Command.ofBytes_toBytes, free]

theorem serves_transmit {before after : Situation} {instruction : Instruction} {p1 p2 : UInt8}
    {data answer : Bytes} (fits : data.length ≤ 255)
    (carriesOut : ∀ derived state, before derived state → ∃ later,
      carryOut keys state (instruction.command p1 p2 data fits) = grant answer later ∧
        after derived later) :
    Serves refusals before
      (Session.transmit (transport keys refusals) instruction p1 p2 data) (.ok answer) after := by
  intro session isOpen start
  rw [Session.transmit_sent _ instruction p1 p2 data isOpen fits]
  unfold Session.reply Session.sent
  cases schedule : refusals session.channel.count with
  | some refusal =>
      rw [exchange_refused keys refusals schedule]
      refine ⟨Nat.le_succ _, .inl ⟨?_, ?_⟩⟩
      · intro unrefused
        have granted := unrefused session.channel.count (Nat.le_refl _) (Nat.lt_succ_self _)
        rw [schedule] at granted
        cases granted
      · exact ⟨.failure (.status refusal.val.status), received_refusal refusal⟩
  | none =>
      obtain ⟨later, carried, reached⟩ := carriesOut _ _ start
      rw [exchange_carriedOut keys refusals schedule, carried]
      exact ⟨Nat.le_succ _, .inr ⟨received_grant answer later, isOpen, reached⟩⟩

end Commands

section Chunks

variable {keys : Keys} {refusals : Nat → Option Refusal} {before : Situation}
  {instruction : Instruction} {algorithm : Algorithm} {content : Bytes}

/-- The element answers an instruction with the chunks of a content. -/
def Offers (keys : Keys) (before : Situation) (instruction : Instruction) (algorithm : Algorithm)
    (content : Bytes) : Prop :=
  ∀ derived state, before derived state → ∀ p1 fits,
    carryOut keys state (instruction.command p1 algorithm.deviceCode [] fits) =
      grant (chunk content p1) state

/-- An answer that can be read: the number of a chunk is one byte. -/
def readable (content : Bytes) : Except Halt Bytes :=
  if content.length ≤ 65280 then .ok content
  else .error (.failure (.protocol (.unreadableLength content.length)))

theorem chunk_of_pieces {earlier later : List Bytes} {piece : Bytes} {index : Nat}
    (cut : Bytes.pieces Session.chunkLength content = earlier ++ piece :: later)
    (place : earlier.length = index) (small : index < 256) :
    chunk content (UInt8.ofNat index) = piece := by
  have number : (UInt8.ofNat index).toNat = earlier.length := by
    rw [UInt8.toNat_ofNat', Nat.mod_eq_of_lt small, place]
  unfold chunk
  rw [number, cut, List.getD_eq_getElem?_getD, List.getElem?_append_right (Nat.le_refl _),
    Nat.sub_self]
  rfl

theorem serves_chunk (offers : Offers keys before instruction algorithm content) (p1 : UInt8) :
    Serves refusals before
      (Session.transmit (transport keys refusals) instruction p1 algorithm.deviceCode [])
      (.ok (chunk content p1)) before := by
  have fits : ([] : Bytes).length ≤ 255 := by decide
  apply serves_transmit keys refusals fits
  intro derived state start
  exact ⟨state, offers derived state start p1 _, start⟩

theorem serves_readChunksFrom (offers : Offers keys before instruction algorithm content) :
    ∀ {earlier later : List Bytes} {index : Nat},
      Bytes.pieces Session.chunkLength content = earlier ++ later → earlier.length = index →
      index + later.length ≤ 256 →
      Serves refusals before
        (Session.readChunksFrom (transport keys refusals) instruction algorithm index
          (later.map List.length))
        (.ok later.flatten) before
  | _, [], _, _, _, _ => serves_pure []
  | earlier, piece :: later, index, cut, place, within => by
      rw [List.length_cons] at within
      have found : chunk content (UInt8.ofNat index) = piece :=
        chunk_of_pieces cut place (by omega)
      have cutLater : Bytes.pieces Session.chunkLength content = (earlier ++ [piece]) ++ later := by
        rw [cut, List.append_assoc, List.singleton_append]
      have placeLater : (earlier ++ [piece]).length = index + 1 := by
        rw [List.length_append, List.length_singleton, place]
      have accepted : Session.checkChunk index piece.length piece = .ok () := if_pos rfl
      apply serves_bind (found ▸ serves_chunk offers (UInt8.ofNat index))
      apply serves_bind (serves_ofExcept accepted)
      have rest : Serves refusals before
          (Session.readChunksFrom (transport keys refusals) instruction algorithm (index + 1)
            (later.map List.length)) (.ok later.flatten) before :=
        serves_readChunksFrom offers cutLater placeLater (by omega)
      exact serves_map (piece ++ ·) rest

/-- An answer whose length is known from its first chunk is read as it is, or is refused for its
length. -/
theorem serves_readAnswer (offers : Offers keys before instruction algorithm content)
    (nonempty : content ≠ []) {length : Session.AnswerLength}
    (measured : length.total (content.take 255) = .ok content.length) :
    Serves refusals before
      (Session.readAnswer (transport keys refusals) instruction algorithm length)
      (readable content) before := by
  have cut : Bytes.pieces Session.chunkLength content =
      content.take 255 :: Bytes.pieces Session.chunkLength (content.drop 255) :=
    Bytes.pieces_of_ne_nil (by decide) nonempty
  have front : Bytes.pieces Session.chunkLength content =
      [] ++ content.take 255 :: Bytes.pieces Session.chunkLength (content.drop 255) := cut
  have first : chunk content 0 = content.take 255 :=
    chunk_of_pieces front List.length_nil (by decide)
  have count := Session.length_chunkLengths content.length
  have lengths := Session.chunkLengths_eq content
  rw [cut, List.map_cons] at lengths
  rw [lengths, List.length_cons, List.length_map] at count
  apply serves_bind (first ▸ serves_chunk offers 0)
  apply serves_bind (serves_ofExcept measured)
  rw [lengths]
  dsimp only
  rw [List.length_map]
  unfold readable
  by_cases short : content.length ≤ 65280
  · rw [if_pos short, if_neg (by omega)]
    have accepted : Session.checkChunk 0 (content.take 255).length (content.take 255) = .ok () :=
      if_pos rfl
    apply serves_bind (serves_ofExcept accepted)
    have rest : Serves refusals before
        (Session.readChunksFrom (transport keys refusals) instruction algorithm 1
          ((Bytes.pieces Session.chunkLength (content.drop 255)).map List.length))
        (.ok (Bytes.pieces Session.chunkLength (content.drop 255)).flatten) before :=
      serves_readChunksFrom offers cut (List.length_singleton) (by omega)
    have whole := serves_map (content.take 255 ++ ·) rest
    rw [Bytes.flatten_pieces (by decide)] at whole
    simpa [Except.map, List.take_append_drop] using whole
  · rw [if_neg short, if_pos (by omega)]
    exact serves_fail _

end Chunks

end Countersign.SecureElement
