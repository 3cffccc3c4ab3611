import Countersign.Proofs.SecureElement.History
import Countersign.Proofs.Session.Streaming

/-!
An element that follows the protocol and refuses nothing signs every message that it is sent and
offers the signature. What a session can read of it depends on the length of the signature alone,
which a signed message shares with the message in it.
-/

namespace Countersign.SecureElement

/-- The channel to an element that refuses nothing. -/
def obedient (keys : Keys) : Transport Channel :=
  transport keys fun _ => none

section Commands

variable {keys : Keys} {session : Session Channel}

theorem reply_obedient {command : Command} {answer : Bytes} {later : State}
    (carried : carryOut keys session.channel.state command = grant answer later) :
    Session.received (session.reply (obedient keys) command) = .ok answer := by
  unfold Session.reply obedient
  rw [exchange_carriedOut keys _ rfl, carried, received_grant]

theorem state_obedient {command : Command} {answer : Bytes} {later : State}
    (carried : carryOut keys session.channel.state command = grant answer later) :
    (session.sent (obedient keys) command).channel.state = later := by
  unfold Session.sent obedient
  rw [exchange_carriedOut keys _ rfl, carried]
  rfl

/-- Whatever pieces are sent, the element adds them to what it has absorbed. -/
theorem grants_absorbed (algorithm : Algorithm) {pieces : List Bytes}
    (fit : ∀ piece ∈ pieces, piece.length ≤ 255) {message : Bytes}
    (started : session.channel.state.message = some message) :
    Session.GrantsAll (obedient keys) (Session.absorbCommands algorithm pieces fit) session ∧
      (Session.sentAll (obedient keys) (Session.absorbCommands algorithm pieces fit)
        session).channel.state =
          { session.channel.state with message := some (message ++ pieces.flatten) } := by
  induction pieces generalizing session message with
  | nil =>
      rw [List.flatten_nil, List.append_nil, ← started]
      exact ⟨trivial, rfl⟩
  | cons piece later inductionHypothesis =>
      have fits : piece.length ≤ 255 := fit piece List.mem_cons_self
      have carried : carryOut keys session.channel.state
          (Instruction.signMessage.command 1 algorithm.deviceCode piece fits) = _ :=
        carryOut_absorb keys fits started
      have absorbed := state_obedient carried
      have startedLater := congrArg State.message absorbed
      obtain ⟨granted, state⟩ := inductionHypothesis
        (fun other member => fit other (List.mem_cons_of_mem _ member)) startedLater
      refine ⟨⟨⟨[], reply_obedient carried⟩, granted⟩, ?_⟩
      rw [List.flatten_cons, ← List.append_assoc]
      refine state.trans ?_
      rw [absorbed]

variable {path : Path} {algorithm : Algorithm}

/-- The element signs the message that it is sent, with the key of the seed that it holds. -/
theorem grants_message {message : Bytes} (short : message.length ≤ 65535)
    (held : session.channel.state.seed = some (path, algorithm)) :
    Session.GrantsAll (obedient keys) (Session.messageCommands algorithm message) session ∧
      (Session.sentAll (obedient keys) (Session.messageCommands algorithm message)
        session).channel.state =
          { session.channel.state with
            message := none, signature := keys.latticeSignature path algorithm message } := by
  have begun : carryOut keys session.channel.state (Session.firstCommand algorithm) =
      grant [] { session.channel.state with message := some [] } := rfl
  have started := state_obedient begun
  have fit : ∀ piece ∈ Bytes.pieces Session.absorbLength message, piece.length ≤ 255 :=
    fun _ => Session.length_le_of_absorbed
  obtain ⟨granted, absorbed⟩ := grants_absorbed algorithm fit (congrArg State.message started)
  rw [Bytes.flatten_pieces (by decide), List.nil_append, started] at absorbed
  have finished : carryOut keys _ (Session.lastCommand algorithm message) = _ :=
    carryOut_finish keys (Session.length_declared_le message) (congrArg State.message absorbed)
      ((congrArg State.seed absorbed).trans held) short
  rw [Session.messageCommands, Session.GrantsAll, Session.grantsAll_append, Session.sentAll,
    Session.sentAll_append]
  refine ⟨⟨⟨[], reply_obedient begun⟩, granted, ⟨[], reply_obedient finished⟩, trivial⟩, ?_⟩
  refine (state_obedient finished).trans ?_
  rw [absorbed]

theorem state_afterChunks (count : Nat) :
    (Session.afterChunks (obedient keys) .readSignature algorithm session count).channel.state =
      session.channel.state := by
  induction count with
  | zero => rfl
  | succ count inductionHypothesis =>
      rw [← inductionHypothesis]
      exact state_obedient rfl

theorem offers_signature {signature : Bytes}
    (signed : session.channel.state.signature = signature) :
    Session.OffersChunks (obedient keys) .readSignature algorithm signature session := by
  intro index piece found few
  have carried : carryOut keys
      (Session.afterChunks (obedient keys) .readSignature algorithm session index).channel.state
      (Session.chunkCommand .readSignature algorithm index) = _ := rfl
  rw [Session.chunkReply, reply_obedient carried, state_afterChunks]
  have number : (UInt8.ofNat index).toNat = index := UInt8.toNat_ofNat_of_lt' few
  change Except.ok (chunk _ (UInt8.ofNat index)) = _
  rw [chunk, number, signed, List.getD_eq_getElem?_getD, found]
  rfl

/-- An element that refuses nothing does what it takes to sign a message. -/
theorem signs_message {message : Bytes} (short : message.length ≤ 65535)
    (held : session.channel.state.seed = some (path, algorithm)) :
    Session.SignsMessage (obedient keys) algorithm message
      (keys.latticeSignature path algorithm message) session := by
  obtain ⟨granted, signed⟩ := grants_message short held
  exact ⟨granted, offers_signature (congrArg State.signature signed)⟩

end Commands

/-- What the keys compute is a signature as elements put it out, if the signature in a signed
message is neither empty nor longer than any of its scheme. -/
theorem latticeSignature_form (keys : Keys) (path : Path) (algorithm : Algorithm) (message : Bytes)
    (bounds : 1 ≤ (keys.falcon path message).val.length ∧
      (keys.falcon path message).val.length ≤ 1025) :
    Session.RawSignature message.length (keys.latticeSignature path algorithm message)
      algorithm := by
  cases algorithm with
  | mlDsa44 => exact .mlDsa44 (keys.mlDsa path message).length_bytes
  | falcon512 =>
      have declared := keys.declared_falconSignature path message
      refine .falcon512 ?_ ?_ ?_
      · rw [declared]
        exact bounds.1
      · rw [declared]
        exact bounds.2
      · rw [declared]
        exact keys.length_falconSignature path message

/-- A session after the element with an empty memory has derived a seed. -/
def seeded (path : Path) (algorithm : Algorithm) : Session Channel :=
  ⟨⟨{ blankState with seed := some (path, algorithm) }, 1⟩, some (path, algorithm), false⟩

theorem seeded_signs {message : Bytes} (short : message.length ≤ 65535) :
    Session.SignsMessage (obedient constantKeys) .falcon512 message
      (constantKeys.latticeSignature .root .falcon512 message) (seeded .root .falcon512) :=
  signs_message short rfl

theorem constantKeys_form (message : Bytes) :
    Session.RawSignature message.length (constantKeys.latticeSignature .root .falcon512 message)
      .falcon512 := by
  have single : (constantKeys.falcon .root message).val.length = 1 := rfl
  exact latticeSignature_form constantKeys .root .falcon512 message (by omega)

end Countersign.SecureElement

namespace Countersign.Session

open SecureElement

/-- With an element that grants every command for a message, signing yields what the element puts
out exactly if that has at most 65280 bytes. If it has more, the message has been signed and the
first chunk read, when the length is found to be unreadable. ML-DSA-44 signatures are always read;
for Falcon-512 it is the message in the signed message that may leave no room. -/
theorem message_read_back_iff {σ : Type} (transport : Transport σ) (algorithm : Algorithm)
    (message raw : Bytes) (session : Session σ) (isOpen : session.closed = false)
    (seedKnown : session.derived.map Prod.snd = some algorithm)
    (admitted : message.length ≤ 65535)
    (signs : SignsMessage transport algorithm message raw session)
    (form : RawSignature message.length raw algorithm) :
    let finalized := sentAll transport (messageCommands algorithm message) session
    let ended := signMessage transport algorithm message session
    (ended.1 = .ok raw ↔ raw.length ≤ 65280) ∧
      (65280 < raw.length →
        ended = (.error (.failure (.protocol (.unreadableLength raw.length))),
          afterChunks transport .readSignature algorithm finalized 1)) ∧
      (algorithm = .mlDsa44 ∨ message.length ≤ 64213 → ended.1 = .ok raw) ∧
      (algorithm = .falcon512 → 65237 < message.length → 65280 < raw.length) := by
  intro finalized ended
  have read (short : raw.length ≤ 65280) : ended.1 = .ok raw :=
    congrArg Prod.fst (signMessage_of_readable isOpen seedKnown admitted signs form short)
  have unread (long : 65280 < raw.length) : ended = (.error _, _) :=
    signMessage_of_unreadable isOpen seedKnown admitted signs form long
  refine ⟨⟨?_, read⟩, unread, fun room => read (form.readable room), ?_⟩
  · intro yields
    by_contra long
    rw [unread (by omega)] at yields
    cases yields
  · rintro rfl long
    exact form.unreadable long

theorem short_message_read_back :
    let message : Bytes := [0x2a]
    let raw := constantKeys.latticeSignature .root .falcon512 message
    SignsMessage (obedient constantKeys) .falcon512 message raw (seeded .root .falcon512) ∧
      RawSignature message.length raw .falcon512 ∧
      (signMessage (obedient constantKeys) .falcon512 message (seeded .root .falcon512)).1 =
        .ok raw := by
  intro message raw
  have signs := seeded_signs (show message.length ≤ 65535 by decide)
  have form := constantKeys_form message
  refine ⟨signs, form, ?_⟩
  have both := message_read_back_iff (obedient constantKeys) .falcon512 message raw
    (seeded .root .falcon512) rfl rfl (by decide) signs form
  exact both.2.2.1 (.inr (by decide))

theorem unread_of_admitted {message : Bytes} (length : message.length = 65238) :
    signMessage (obedient constantKeys) .falcon512 message (seeded .root .falcon512) =
      (.error (.failure (.protocol (.unreadableLength 65281))),
        afterChunks (obedient constantKeys) .readSignature .falcon512
          (sentAll (obedient constantKeys) (messageCommands .falcon512 message)
            (seeded .root .falcon512)) 1) := by
  have signedLength :
      (constantKeys.latticeSignature .root .falcon512 message).length = 65281 := by
    rw [Keys.length_falconSignature, length]
    rfl
  have ended := signMessage_of_unreadable rfl rfl (by omega) (seeded_signs (by omega))
    (constantKeys_form message) (by omega)
  rw [signedLength] at ended
  exact ended

/-- Not for every message that is admitted can the signature be read back: the shortest signature
over a message of 65238 bytes is refused after the element has made it. -/
theorem admitted_message_not_read_back :
    ¬ ∀ (algorithm : Algorithm) (message raw : Bytes),
      message.length ≤ 65535 →
      SignsMessage (obedient constantKeys) algorithm message raw (seeded .root algorithm) →
      RawSignature message.length raw algorithm →
        (signMessage (obedient constantKeys) algorithm message (seeded .root algorithm)).1 =
          .ok raw := by
  intro always
  have length : (Bytes.zeros 65238).length = 65238 := List.length_replicate
  have admitted : (Bytes.zeros 65238).length ≤ 65535 := by omega
  have read := always .falcon512 (Bytes.zeros 65238) _ admitted (seeded_signs admitted)
    (constantKeys_form _)
  rw [unread_of_admitted length] at read
  cases read

end Countersign.Session
