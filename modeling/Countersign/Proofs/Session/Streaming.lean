import Countersign.Proofs.Session.Reading
import Countersign.Proofs.Session.Steps

/-!
Signing a message with an element that grants every command. Nothing stands in the way until the
signature is to be read, so that a message may have been signed whose signature is too long for it.
-/

namespace Countersign.Session

variable {σ : Type}

/-- The session after commands were sent one after the other. -/
def sentAll (transport : Transport σ) : List Command → Session σ → Session σ
  | [], session => session
  | command :: later, session => sentAll transport later (session.sent transport command)

/-- Each of the commands is granted when it is sent after those before it. -/
def GrantsAll (transport : Transport σ) : List Command → Session σ → Prop
  | [], _ => True
  | command :: later, session =>
      (∃ data, received (session.reply transport command) = .ok data) ∧
        GrantsAll transport later (session.sent transport command)

section Grants

variable {transport : Transport σ}

theorem sentAll_append (earlier later : List Command) (session : Session σ) :
    sentAll transport (earlier ++ later) session =
      sentAll transport later (sentAll transport earlier session) := by
  induction earlier generalizing session with
  | nil => rfl
  | cons command rest inductionHypothesis =>
      exact inductionHypothesis (session.sent transport command)

theorem grantsAll_append (earlier later : List Command) (session : Session σ) :
    GrantsAll transport (earlier ++ later) session ↔
      GrantsAll transport earlier session ∧
        GrantsAll transport later (sentAll transport earlier session) := by
  induction earlier generalizing session with
  | nil =>
      rw [List.nil_append, GrantsAll, true_and]
      rfl
  | cons command rest inductionHypothesis =>
      rw [List.cons_append, GrantsAll, GrantsAll, inductionHypothesis, and_assoc]
      rfl

theorem sentAll_closed (commands : List Command) (session : Session σ) :
    (sentAll transport commands session).closed = session.closed := by
  induction commands generalizing session with
  | nil => rfl
  | cons command rest inductionHypothesis =>
      exact inductionHypothesis (session.sent transport command)

end Grants

theorem length_le_of_absorbed {message piece : Bytes}
    (member : piece ∈ Bytes.pieces absorbLength message) : piece.length ≤ 255 :=
  Nat.le_trans (Bytes.length_le_of_mem_pieces (by decide) member) (by decide)

/-- The commands that carry pieces of a message. -/
def absorbCommands (algorithm : Algorithm) (pieces : List Bytes)
    (fit : ∀ piece ∈ pieces, piece.length ≤ 255) : List Command :=
  pieces.pmap (Instruction.signMessage.command 1 algorithm.deviceCode) fit

theorem length_nothing_le : ([] : Bytes).length ≤ 255 :=
  Nat.zero_le 255

def firstCommand (algorithm : Algorithm) : Command :=
  Instruction.signMessage.command 0 algorithm.deviceCode [] length_nothing_le

theorem length_declared_le (message : Bytes) : (Bytes.ofNatBE 2 message.length).length ≤ 255 := by
  rw [Bytes.length_ofNatBE]
  decide

def lastCommand (algorithm : Algorithm) (message : Bytes) : Command :=
  Instruction.signMessage.command 2 algorithm.deviceCode (Bytes.ofNatBE 2 message.length)
    (length_declared_le message)

/-- All that is sent to have a message signed: the first command announces it, and the last one has
it signed and declares its length. -/
def messageCommands (algorithm : Algorithm) (message : Bytes) : List Command :=
  firstCommand algorithm ::
    (absorbCommands algorithm (Bytes.pieces absorbLength message)
      (fun _ => length_le_of_absorbed) ++ [lastCommand algorithm message])

section Messages

variable {transport : Transport σ} {algorithm : Algorithm} {session : Session σ}

theorem transmit_granted {instruction : Instruction} {p1 p2 : UInt8} {data answer : Bytes}
    {fits : data.length ≤ 255} (isOpen : session.closed = false)
    (granted : received (session.reply transport (instruction.command p1 p2 data fits)) =
      .ok answer) :
    transmit transport instruction p1 p2 data session =
      (.ok answer, session.sent transport (instruction.command p1 p2 data fits)) := by
  rw [transmit_sent transport instruction p1 p2 data isOpen fits, granted]

theorem absorb_granted {pieces : List Bytes} {fit : ∀ piece ∈ pieces, piece.length ≤ 255}
    (isOpen : session.closed = false)
    (granted : GrantsAll transport (absorbCommands algorithm pieces fit) session) :
    absorb transport algorithm pieces session =
      (.ok (), sentAll transport (absorbCommands algorithm pieces fit) session) := by
  induction pieces generalizing session with
  | nil => rfl
  | cons piece later inductionHypothesis =>
      obtain ⟨⟨answer, first⟩, rest⟩ := granted
      have sent := transmit_granted isOpen first
      rw [absorb, Task.bind_ok sent]
      exact inductionHypothesis isOpen rest

/-- A message that is not too long is signed, if all is granted, and its signature is read then. -/
theorem signMessage_granted {message : Bytes} (isOpen : session.closed = false)
    (seeded : session.derived.map Prod.snd = some algorithm) (admitted : message.length ≤ 65535)
    (granted : GrantsAll transport (messageCommands algorithm message) session) :
    signMessage transport algorithm message session =
      readAnswer transport .readSignature algorithm (.ofSignature algorithm message.length)
        (sentAll transport (messageCommands algorithm message) session) := by
  obtain ⟨⟨started, first⟩, rest⟩ := granted
  obtain ⟨middle, last⟩ := (grantsAll_append _ _ _).mp rest
  obtain ⟨⟨finished, final⟩, _⟩ := last
  have announced : transmit transport .signMessage 0 algorithm.deviceCode [] session =
      (.ok started, session.sent transport (firstCommand algorithm)) :=
    transmit_granted isOpen first
  have openNext : (session.sent transport (firstCommand algorithm)).closed = false := isOpen
  have absorbed := absorb_granted openNext middle
  have declared := transmit_granted ((sentAll_closed _ _).trans openNext) final
  rw [messageCommands, sentAll, sentAll_append]
  unfold signMessage
  rw [Task.bind_ok (requireSeed_of_known algorithm seeded), if_neg (by omega),
    Task.bind_ok announced, Task.bind_ok absorbed, Task.bind_ok declared]
  rfl

end Messages

/-- The element answers with the chunks of an output as they are asked for by their numbers. -/
def OffersChunks (transport : Transport σ) (instruction : Instruction) (algorithm : Algorithm)
    (raw : Bytes) (session : Session σ) : Prop :=
  ∀ index piece, (Bytes.pieces chunkLength raw)[index]? = some piece → index < 256 →
    chunkReply transport instruction algorithm session index = .ok piece

section Output

variable {transport : Transport σ} {instruction : Instruction} {algorithm : Algorithm}
  {session : Session σ} {raw : Bytes} {length : AnswerLength}

theorem OffersChunks.first (offers : OffersChunks transport instruction algorithm raw session)
    (nonempty : 1 ≤ raw.length) :
    chunkReply transport instruction algorithm session 0 = .ok (raw.take 255) := by
  apply offers 0 _ _ (by decide)
  rw [Bytes.pieces_of_ne_nil (by decide) (List.ne_nil_of_length_pos nonempty)]
  rfl

theorem length_pieces_chunkLength (raw : Bytes) :
    (Bytes.pieces chunkLength raw).length = (raw.length + 254) / 255 :=
  Bytes.length_pieces_eq (by decide) raw

theorem OffersChunks.complete (offers : OffersChunks transport instruction algorithm raw session)
    (measured : length.total (raw.take 255) = .ok raw.length)
    (readable : 1 ≤ raw.length ∧ raw.length ≤ 65280) :
    Complete (chunkReply transport instruction algorithm session) length raw.length
      (Bytes.pieces chunkLength raw) := by
  have count := length_pieces_chunkLength raw
  have begun : Begun (chunkReply transport instruction algorithm session) length raw.length
      (Bytes.pieces chunkLength raw) := by
    refine ⟨⟨raw.take 255, offers.first readable.1, measured⟩, readable, ?_⟩
    apply List.ext_getElem
    · rw [List.length_map, List.length_map, List.length_range]
    · intro index inRange inside
      rw [List.length_map, List.length_range] at inRange
      rw [List.getElem_map, List.getElem_map, List.getElem_range]
      exact offers index _ (List.getElem?_eq_getElem inRange) (by omega)
  refine ⟨begun, ?_⟩
  rw [← chunkLengths_eq, chunkLengths_eq_replicate readable.1]

/-- An output that is offered is read as it is, if it has no more bytes than chunks that can be
numbered by a byte. -/
theorem readAnswer_offered (isOpen : session.closed = false)
    (offers : OffersChunks transport instruction algorithm raw session)
    (measured : length.total (raw.take 255) = .ok raw.length)
    (readable : 1 ≤ raw.length ∧ raw.length ≤ 65280) :
    readAnswer transport instruction algorithm length session =
      (.ok raw,
        afterChunks transport instruction algorithm session ((raw.length + 254) / 255)) := by
  rw [readAnswer_of_complete isOpen (offers.complete measured readable),
    Bytes.flatten_pieces (by decide)]

theorem readAnswer_offered_long (isOpen : session.closed = false)
    (offers : OffersChunks transport instruction algorithm raw session)
    (measured : length.total (raw.take 255) = .ok raw.length) (long : 65280 < raw.length) :
    readAnswer transport instruction algorithm length session =
      (.error (.failure (.protocol (.unreadableLength raw.length))),
        afterChunks transport instruction algorithm session 1) :=
  readAnswer_of_unreadable isOpen (offers.first (by omega)) measured (.inr long)

end Output

/-- What an element puts out for a message of a given length has the form of a signature: detached
for ML-DSA-44; for Falcon-512 a signed message, which holds the message itself. -/
inductive RawSignature (messageLength : Nat) (raw : Bytes) : Algorithm → Prop
  | mlDsa44 (exact : raw.length = 2420) : RawSignature messageLength raw .mlDsa44
  | falcon512 (positive : 1 ≤ Bytes.toNatBE (raw.take 2))
      (bounded : Bytes.toNatBE (raw.take 2) ≤ 1025)
      (whole : raw.length = 42 + messageLength + Bytes.toNatBE (raw.take 2)) :
      RawSignature messageLength raw .falcon512

namespace RawSignature

variable {messageLength : Nat} {raw : Bytes} {algorithm : Algorithm}

theorem nonempty (form : RawSignature messageLength raw algorithm) : 1 ≤ raw.length := by
  cases form <;> omega

theorem measured (form : RawSignature messageLength raw algorithm) :
    (AnswerLength.ofSignature algorithm messageLength).total (raw.take 255) = .ok raw.length := by
  cases form with
  | mlDsa44 exact =>
      rw [exact]
      rfl
  | falcon512 positive bounded whole =>
      have long : ¬ (raw.take 255).length < 2 := by
        rw [List.length_take]
        omega
      rw [AnswerLength.ofSignature, AnswerLength.total, if_neg long, List.take_take, whole]
      rfl

/-- A detached signature is never too long to be read, and the signature of a message is not if
the message leaves room for the longest. -/
theorem readable (form : RawSignature messageLength raw algorithm)
    (room : algorithm = .mlDsa44 ∨ messageLength ≤ 64213) : raw.length ≤ 65280 := by
  cases form with
  | mlDsa44 exact => omega
  | falcon512 positive bounded whole =>
      rcases room with other | room
      · cases other
      · omega

theorem unreadable (form : RawSignature messageLength raw .falcon512)
    (long : 65237 < messageLength) : 65280 < raw.length := by
  cases form with
  | falcon512 positive bounded whole => omega

end RawSignature

/-- An element grants all that it is sent for a message, and offers its output afterwards. -/
structure SignsMessage (transport : Transport σ) (algorithm : Algorithm) (message raw : Bytes)
    (session : Session σ) : Prop where
  granted : GrantsAll transport (messageCommands algorithm message) session
  offered : OffersChunks transport .readSignature algorithm raw
    (sentAll transport (messageCommands algorithm message) session)

section Signing

variable {transport : Transport σ} {algorithm : Algorithm} {message raw : Bytes}
  {session : Session σ}

theorem signMessage_of_readable (isOpen : session.closed = false)
    (seeded : session.derived.map Prod.snd = some algorithm) (admitted : message.length ≤ 65535)
    (signs : SignsMessage transport algorithm message raw session)
    (form : RawSignature message.length raw algorithm) (short : raw.length ≤ 65280) :
    signMessage transport algorithm message session =
      (.ok raw, afterChunks transport .readSignature algorithm
        (sentAll transport (messageCommands algorithm message) session)
        ((raw.length + 254) / 255)) := by
  rw [signMessage_granted isOpen seeded admitted signs.granted]
  exact readAnswer_offered ((sentAll_closed _ _).trans isOpen) signs.offered form.measured
    ⟨form.nonempty, short⟩

theorem signMessage_of_unreadable (isOpen : session.closed = false)
    (seeded : session.derived.map Prod.snd = some algorithm) (admitted : message.length ≤ 65535)
    (signs : SignsMessage transport algorithm message raw session)
    (form : RawSignature message.length raw algorithm) (long : 65280 < raw.length) :
    signMessage transport algorithm message session =
      (.error (.failure (.protocol (.unreadableLength raw.length))),
        afterChunks transport .readSignature algorithm
          (sentAll transport (messageCommands algorithm message) session) 1) := by
  rw [signMessage_granted isOpen seeded admitted signs.granted]
  exact readAnswer_offered_long ((sentAll_closed _ _).trans isOpen) signs.offered form.measured long

end Signing

end Countersign.Session
