import Countersign.Proofs.Lattice.Falcon.Compact
import Countersign.Proofs.Session.Reading
import Countersign.Proofs.Session.Refusal

/-!
A signed Falcon message tells its length by its first two bytes. It is read chunk by chunk by what
the first chunk says, and cut by what the joined chunks say. Both find the same length, so that a
message that was read is refused only for what its signature holds.
-/

namespace Countersign.Lattice.Falcon

variable {signedMessage : Bytes} {messageLength : UInt64} {halt : Halt}

/-- Why a signed message is refused although it is as long as it says, and with what: it has no
signature, or one without the mark, or one whose body is neither plain nor compressed. -/
inductive Flawed (signedMessage : Bytes) (messageLength : Nat) : Halt → Prop
  | unsigned (nothing : Bytes.toNatBE (signedMessage.take 2) = 0) :
      Flawed signedMessage messageLength
        (.failure (.protocol (.signedMessageTooShort signedMessage.length messageLength)))
  | unmarked {mark : UInt8} (found : signedMessage[42 + messageLength]? = some mark)
      (other : mark ≠ 0x29) :
      Flawed signedMessage messageLength (.failure (.protocol (.falconHeader mark)))
  | undecodable {body : Bytes} {fault : CompressionFault}
      (framed : Framed signedMessage messageLength body) (compressed : body.length ≠ 1024)
      (unread : decompress body = .error fault) :
      Flawed signedMessage messageLength (.failure (.protocol (.compression fault)))

theorem undecodable_or_holds (body : Bytes) :
    (body.length ≠ 1024 ∧ ∃ fault, decompress body = .error fault) ∨
      ∃ coefficient, Holds body coefficient := by
  by_cases plain : body.length = 1024
  · exact .inr (exists_holds (.inl plain))
  · cases unread : decompress body with
    | error fault => exact .inl ⟨plain, fault, rfl⟩
    | ok values =>
        have read : readBody body = .ok values := by rw [readBody_eq, unread, Except.mapError]
        exact .inr (exists_holds (.inr ⟨values, read⟩))

section Compacting

variable (representable : 42 + messageLength.toNat < UInt64.size)
  (whole : signedMessage.length =
    42 + messageLength.toNat + Bytes.toNatBE (signedMessage.take 2))

include representable whole

theorem compact_of_unsigned (nothing : Bytes.toNatBE (signedMessage.take 2) = 0) :
    compact signedMessage messageLength =
      .error (.failure (.protocol
        (.signedMessageTooShort signedMessage.length messageLength.toNat))) := by
  have fits : ¬ UInt64.size ≤ headLength + messageLength.toNat := Nat.not_le.mpr representable
  have behind : signedMessage.drop (headLength + messageLength.toNat) = [] := by
    apply List.drop_eq_nil_of_le
    rw [headLength]
    omega
  simp only [compact, if_neg fits, behind]

theorem compact_of_unmarked {mark : UInt8}
    (found : signedMessage[42 + messageLength.toNat]? = some mark) (other : mark ≠ 0x29) :
    compact signedMessage messageLength = .error (.failure (.protocol (.falconHeader mark))) := by
  have fits : ¬ UInt64.size ≤ headLength + messageLength.toNat := Nat.not_le.mpr representable
  obtain ⟨inside, isMark⟩ := List.getElem?_eq_some_iff.mp found
  have behind : signedMessage.drop (headLength + messageLength.toNat) =
      mark :: signedMessage.drop (42 + messageLength.toNat + 1) := by
    rw [headLength, List.drop_eq_getElem_cons inside, isMark]
  have declared : (signedMessage.drop (42 + messageLength.toNat + 1)).length + 1 =
      Bytes.toNatBE (signedMessage.take 2) := by
    rw [List.length_drop]
    omega
  have noMark : mark ≠ signatureMark := other
  simp only [compact, if_neg fits, behind]
  rw [if_neg (not_not.mpr declared), if_pos noMark]

theorem Flawed.compact_eq (flawed : Flawed signedMessage messageLength.toNat halt) :
    compact signedMessage messageLength = .error halt := by
  cases flawed with
  | unsigned nothing => exact compact_of_unsigned representable whole nothing
  | unmarked found other => exact compact_of_unmarked representable whole found other
  | undecodable framed compressed unread =>
      rw [compact_of_framed representable framed, bodyCoefficients_of_long compressed,
        readBody_eq, unread]
      rfl

theorem flawed_or_compacts :
    (∃ halt, Flawed signedMessage messageLength.toNat halt) ∨
      ∃ signature, compact signedMessage messageLength = .ok signature := by
  by_cases nothing : Bytes.toNatBE (signedMessage.take 2) = 0
  · exact .inl ⟨_, .unsigned nothing⟩
  have long : 42 + messageLength.toNat < signedMessage.length := by omega
  have found := List.getElem?_eq_getElem long
  by_cases marked : signedMessage[42 + messageLength.toNat] = 0x29
  · have declared : Bytes.toNatBE (signedMessage.extract 0 2) =
        signedMessage.length - 42 - messageLength.toNat := by
      rw [List.extract_eq_take_drop, List.drop_zero, Nat.sub_zero]
      omega
    have framed : Framed signedMessage messageLength.toNat _ :=
      ⟨long, declared, found.trans (congrArg some marked), rfl⟩
    rcases undecodable_or_holds (signedMessage.drop (42 + messageLength.toNat + 1)) with
      ⟨compressed, fault, unread⟩ | ⟨coefficient, holds⟩
    · exact .inl ⟨_, .undecodable framed compressed unread⟩
    · exact .inr ⟨_, compact_of_holds representable framed holds⟩
  · exact .inl ⟨_, .unmarked found marked⟩

/-- A signed message that is as long as it says is refused for its flaws alone. -/
theorem compact_eq_error_iff :
    compact signedMessage messageLength = .error halt ↔
      Flawed signedMessage messageLength.toNat halt := by
  constructor
  · intro refused
    rcases flawed_or_compacts representable whole with ⟨found, flawed⟩ | ⟨signature, compacted⟩
    · rw [flawed.compact_eq representable whole] at refused
      cases refused
      exact flawed
    · rw [compacted] at refused
      cases refused
  · exact Flawed.compact_eq representable whole

end Compacting

end Countersign.Lattice.Falcon

namespace Countersign.Session

variable {σ : Type} {transport : Transport σ} {instruction : Instruction} {algorithm : Algorithm}
  {session : Session σ} {raw : Bytes}

/-- A signed message that was read is as long as it says. The bytes by which the first chunk tells
the length are still first when the chunks are joined. -/
theorem length_of_readAnswer {messageLength : Nat}
    (read : (readAnswer transport instruction algorithm (.ofSignature .falcon512 messageLength)
      session).1 = .ok raw) :
    raw.length = 42 + messageLength + Bytes.toNatBE (raw.take 2) := by
  cases closed : session.closed with
  | true =>
      rw [readAnswer, Task.bind_error (transmit_closed transport instruction 0 _ [] closed)] at read
      cases read
  | false =>
      obtain ⟨first, later, long, _, delivered, rfl⟩ :=
        (signature_read_iff_falcon512 closed).mp read
      have front : (first :: later).flatten.take 2 = first.take 2 := by
        rw [List.flatten_cons, List.take_append_of_le_length long]
      rw [front, delivered.length_flatten]

/-- In one of the three ways to sign, a session has come to a lattice signature over so many
bytes. -/
inductive Signs (transport : Transport σ) (algorithm : Algorithm) (session : Session σ) :
    Nat → Bytes → Prop
  | message {message raw : Bytes}
      (signed : (signMessage transport algorithm message session).1 = .ok raw) :
      Signs transport algorithm session message.length raw
  | hash {path : Path} {hash : Hash} {classical : Signature} {raw : Bytes}
      (signed : (hybridSign transport path algorithm hash session).1 = .ok (classical, raw)) :
      Signs transport algorithm session 32 raw
  | operation {path : Path} {operation : Operation} {contract : Address} {chainId : UInt64}
      {classical : Signature} {raw : Bytes}
      (signed : (clearSign transport path algorithm operation contract chainId session).1 =
        .ok (classical, raw)) :
      Signs transport algorithm session 32 raw

theorem readAnswer_of_readBoth {response : Bytes} {classical : Signature}
    (read : (readBoth transport algorithm response session).1 = .ok (classical, raw)) :
    ∃ later, (readAnswer transport .readSignature algorithm (.ofSignature algorithm 32)
      later).1 = .ok raw := by
  obtain ⟨_, _, _, reading⟩ := Task.bind_eq_ok read
  obtain ⟨found, _, answered, returned⟩ := Task.bind_eq_ok reading
  cases returned
  exact ⟨_, congrArg Prod.fst answered⟩

/-- All three ways end with reading an answer whose length is that of a signature over as many
bytes, of which there are never more than the element can be told of. -/
theorem Signs.answered {messageLength : Nat}
    (signs : Signs transport algorithm session messageLength raw) :
    messageLength ≤ 65535 ∧
      ∃ later, (readAnswer transport .readSignature algorithm
        (.ofSignature algorithm messageLength) later).1 = .ok raw := by
  cases signs with
  | @message message raw signed =>
      obtain ⟨_, _, _, sending⟩ := Task.bind_eq_ok signed
      by_cases long : 65535 < message.length
      · rw [if_pos long, Task.fail_apply] at sending
        cases sending
      · rw [if_neg long] at sending
        obtain ⟨_, _, _, absorbing⟩ := Task.bind_eq_ok sending
        obtain ⟨_, _, _, telling⟩ := Task.bind_eq_ok absorbing
        obtain ⟨_, later, _, reading⟩ := Task.bind_eq_ok telling
        exact ⟨Nat.le_of_not_lt long, later, reading⟩
  | hash signed =>
      obtain ⟨_, _, _, sending⟩ := Task.bind_eq_ok signed
      obtain ⟨_, _, _, reading⟩ := Task.bind_eq_ok sending
      exact ⟨by decide, readAnswer_of_readBoth reading⟩
  | operation signed =>
      obtain ⟨_, _, _, asking⟩ := Task.bind_eq_ok signed
      obtain ⟨_, _, _, binding⟩ := Task.bind_eq_ok asking
      obtain ⟨_, _, _, filling⟩ := Task.bind_eq_ok binding
      obtain ⟨_, _, _, showing⟩ := Task.bind_eq_ok filling
      obtain ⟨_, _, _, reading⟩ := Task.bind_eq_ok showing
      exact ⟨by decide, readAnswer_of_readBoth reading⟩

section Falcon

variable {messageLength : Nat} {halt : Halt}

theorem Signs.length_eq (signs : Signs transport .falcon512 session messageLength raw) :
    raw.length = 42 + messageLength + Bytes.toNatBE (raw.take 2) := by
  obtain ⟨_, later, read⟩ := signs.answered
  exact length_of_readAnswer read

/-- What was read for a number of bytes, and is cut for as many, is refused for its flaws alone. -/
theorem Signs.refused_iff (signs : Signs transport .falcon512 session messageLength raw) :
    Algorithm.falcon512.finalizeSignature raw (UInt64.ofNat messageLength) = .error halt ↔
      Lattice.Falcon.Flawed raw messageLength halt := by
  obtain ⟨short, _⟩ := signs.answered
  have number : (UInt64.ofNat messageLength).toNat = messageLength :=
    UInt64.toNat_ofNat_of_lt' (lt_of_le_of_lt short (by decide))
  have representable : 42 + (UInt64.ofNat messageLength).toNat < UInt64.size := by
    rw [number]
    exact lt_of_le_of_lt (Nat.add_le_add_left short 42) (by decide)
  have whole := signs.length_eq
  rw [← number] at whole
  have refused : Algorithm.falcon512.finalizeSignature raw (UInt64.ofNat messageLength) =
      .error halt ↔ Lattice.Falcon.Flawed raw (UInt64.ofNat messageLength).toNat halt :=
    Lattice.Falcon.compact_eq_error_iff representable whole
  rwa [number] at refused

/-- Whatever a channel answers and whatever the state of the session: a signed message that was
read has the length that it declares, for the number of bytes that were signed. So it is refused
for its flaws alone, and never because its lengths disagree. -/
theorem signed_message_agreed (signs : Signs transport .falcon512 session messageLength raw) :
    raw.length = 42 + messageLength + Bytes.toNatBE (raw.take 2) ∧
      (∀ halt, Algorithm.falcon512.finalizeSignature raw (UInt64.ofNat messageLength) =
          .error halt ↔ Lattice.Falcon.Flawed raw messageLength halt) ∧
      ∀ declared found, Algorithm.falcon512.finalizeSignature raw (UInt64.ofNat messageLength) ≠
        .error (.failure (.protocol (.declaredLength declared found))) := by
  refine ⟨signs.length_eq, fun halt => signs.refused_iff, ?_⟩
  intro declared found disagreed
  have flawed := signs.refused_iff.mp disagreed
  cases flawed

end Falcon

/-- A signed message of one byte, whose signature breaks off within the first coefficient. -/
def brokenMessage : Bytes :=
  [0x00, 0x02] ++ Bytes.zeros 40 ++ [0x07] ++ [0x29, 0x80]

/-- The responses by which an element that holds the seed signs one byte. -/
def brokenReplies : List Bytes :=
  [[0x90, 0x00], [0x90, 0x00], [0x90, 0x00], brokenMessage ++ [0x90, 0x00]]

theorem framed_brokenMessage : Lattice.Falcon.Framed brokenMessage 1 [0x80] where
  long := by decide
  declared := by decide
  marked := by decide
  behind := by decide

theorem signed_message_agreed_broken :
    Signs scripted .falcon512 ⟨brokenReplies, some (.root, .falcon512), false⟩ 1 brokenMessage ∧
      brokenMessage.length = 45 ∧
      Algorithm.falcon512.finalizeSignature brokenMessage 1 =
        .error (.failure (.protocol (.compression .truncated))) := by
  have signs : Signs scripted .falcon512 ⟨brokenReplies, some (.root, .falcon512), false⟩
      ([7] : Bytes).length brokenMessage := .message rfl
  obtain ⟨length, refused, _⟩ := signed_message_agreed signs
  refine ⟨signs, length, ?_⟩
  exact (refused _).mpr (.undecodable framed_brokenMessage (by decide) rfl)

end Countersign.Session

namespace Countersign

variable {σ α : Type} {transport : Transport σ}

theorem SharedSession.of_locked {task : Task (Session σ) α} {shared later : SharedSession σ}
    {value : α} (done : locked task shared = (.ok value, later)) :
    ∃ after, task shared.session = (.ok value, after) := by
  unfold locked at done
  by_cases poisoned : shared.poisoned
  · rw [if_pos poisoned] at done
    cases done
  · rw [if_neg poisoned] at done
    rcases reached : task shared.session with ⟨halt | found, after⟩
    · rw [reached] at done
      cases halt <;> cases done
    · rw [reached] at done
      cases done
      exact ⟨after, rfl⟩

/-- A Falcon key cuts what it has read for the message that it was to sign: what its session does
not stop is stopped by a flaw of the signature alone. -/
theorem Element.LatticeKey.flawed_of_halted {key : LatticeKey} {message : Bytes}
    {shared : SharedSession σ} {halt : Halt} (falcon : key.algorithm = .falcon512)
    (halted : (key.sign transport message shared).1 = .error halt) :
    (SharedSession.locked (do
        Session.ensureSeed transport key.path key.algorithm
        Session.signMessage transport key.algorithm message) shared).1 = .error halt ∨
      ∃ session raw, Session.Signs transport .falcon512 session message.length raw ∧
        Lattice.Falcon.Flawed raw message.length halt := by
  rcases reached : SharedSession.locked (do
      Session.ensureSeed transport key.path key.algorithm
      Session.signMessage transport key.algorithm message) shared with ⟨stopped | raw, later⟩
  · left
    have whole : key.sign transport message shared = (.error stopped, later) :=
      Task.bind_error reached
    rwa [whole] at halted
  · right
    have whole : key.sign transport message shared =
        (key.algorithm.finalizeSignature raw (UInt64.ofNat message.length), later) :=
      Task.bind_ok reached
    obtain ⟨_, done⟩ := SharedSession.of_locked reached
    obtain ⟨_, session, _, signed⟩ := Task.bind_eq_ok (congrArg Prod.fst done)
    rw [falcon] at signed
    rw [whole, falcon] at halted
    have signs : Session.Signs transport .falcon512 session message.length raw := .message signed
    exact ⟨session, raw, signs, signs.refused_iff.mp halted⟩

end Countersign
