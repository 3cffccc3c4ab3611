import Countersign.Proofs.Session.Exchange
import Countersign.Session.Chunked

/-!
Reading an answer in chunks, whatever comes as replies. The chunks that a session asks for are the
pieces of the answer, the commands are numbered from zero on, the answer is what the replies hold
one after the other, and the first reply that is not what it has to be ends the reading.
-/

namespace Countersign.Session

theorem chunkLengths_of_short {total : Nat} (positive : 0 < total) (short : total < chunkLength) :
    chunkLengths total = [total] := by
  unfold chunkLengths
  have whole : total / chunkLength = 0 := Nat.div_eq_of_lt short
  have remainder : total % chunkLength = total := Nat.mod_eq_of_lt short
  rw [whole, remainder, if_neg (by omega), List.replicate_zero, List.nil_append]

theorem chunkLengths_add (total : Nat) :
    chunkLengths (total + chunkLength) = chunkLength :: chunkLengths total := by
  unfold chunkLengths
  rw [Nat.add_div_right total (by decide), Nat.add_mod_right, List.replicate_succ,
    List.cons_append]

/-- The lengths of the chunks are the lengths of the pieces. -/
theorem chunkLengths_eq (content : Bytes) :
    chunkLengths content.length = (Bytes.pieces chunkLength content).map List.length := by
  have positive : 0 < chunkLength := by decide
  induction remaining : content.length using Nat.strong_induction_on generalizing content with
  | h length inductionHypothesis =>
      by_cases empty : content = []
      · subst empty
        rw [← remaining]
        rfl
      · have some : 0 < content.length := List.length_pos_of_ne_nil empty
        rw [Bytes.pieces_of_ne_nil positive empty, List.map_cons, List.length_take]
        by_cases short : length < chunkLength
        · have nothing : content.drop chunkLength = [] := List.drop_eq_nil_of_le (by omega)
          rw [nothing, Bytes.pieces_nil, List.map_nil, remaining, Nat.min_eq_right (by omega)]
          exact chunkLengths_of_short (by omega) short
        · have rest : (content.drop chunkLength).length = length - chunkLength := by
            rw [List.length_drop, remaining]
          have sum : length = (length - chunkLength) + chunkLength := by omega
          have fewer : length - chunkLength < length := by omega
          rw [← inductionHypothesis _ fewer _ rest, remaining, Nat.min_eq_left (by omega)]
          exact (congrArg chunkLengths sum).trans (chunkLengths_add _)

theorem length_chunkLengths (total : Nat) :
    (chunkLengths total).length = (total + 254) / 255 := by
  unfold chunkLengths chunkLength
  rw [List.length_append, List.length_replicate]
  split
  · rw [List.length_nil]
    omega
  · rw [List.length_singleton]
    omega

/-- The first chunk takes what one chunk can hold. -/
theorem chunkLengths_of_pos {total : Nat} (positive : 0 < total) :
    chunkLengths total = min total chunkLength :: chunkLengths (total - chunkLength) := by
  by_cases short : total < chunkLength
  · have nothing : total - chunkLength = 0 := by omega
    rw [chunkLengths_of_short positive short, Nat.min_eq_left (Nat.le_of_lt short), nothing]
    rfl
  · have sum : total = (total - chunkLength) + chunkLength := by omega
    rw [Nat.min_eq_right (by omega), ← chunkLengths_add, ← sum]

/-- A chunk is full if another one follows. -/
theorem chunkLengths_split {total index : Nat} (inside : 255 * index < total) :
    ∃ later, chunkLengths total =
      List.replicate index 255 ++ min (total - 255 * index) 255 :: later := by
  induction index generalizing total with
  | zero => exact ⟨_, chunkLengths_of_pos inside⟩
  | succ index inductionHypothesis =>
      have rest : total - 255 - 255 * index = total - 255 * (index + 1) := by omega
      obtain ⟨later, split⟩ :=
        inductionHypothesis (show 255 * index < total - 255 by omega)
      refine ⟨later, ?_⟩
      rw [chunkLengths_of_pos (by omega), chunkLength, Nat.min_eq_right (by omega), split, rest,
        List.replicate_succ, List.cons_append]

/-- All chunks but the last are full, and the last is not empty. -/
theorem chunkLengths_eq_replicate {total : Nat} (positive : 0 < total) :
    chunkLengths total =
      List.replicate ((total + 254) / 255 - 1) 255 ++ [total - 255 * ((total + 254) / 255 - 1)] := by
  have inside : 255 * ((total + 254) / 255 - 1) < total := by omega
  obtain ⟨later, split⟩ := chunkLengths_split inside
  have count := length_chunkLengths total
  rw [split, List.length_append, List.length_replicate, List.length_cons] at count
  have last : later = [] := List.length_eq_zero_iff.mp (by omega)
  rw [split, last, Nat.min_eq_left (by omega)]

/-- What is put in front of a result twice is put there together. -/
theorem append_map_append {σ : Type} (front next : Bytes) (task : Task σ Bytes) :
    (front ++ ·) <$> (next ++ ·) <$> task = ((front ++ next) ++ ·) <$> task := by
  rw [Functor.map_map]
  simp only [List.append_assoc]

/-! ## Commands and replies -/

/-- The command that asks for a chunk. -/
def chunkCommand (instruction : Instruction) (algorithm : Algorithm) (index : Nat) : Command :=
  instruction.command (UInt8.ofNat index) algorithm.deviceCode [] (Nat.zero_le 255)

section Replies

variable {σ : Type} (transport : Transport σ) (instruction : Instruction) (algorithm : Algorithm)
  (session : Session σ)

/-- The session after the first chunks were asked for. -/
def afterChunks : Nat → Session σ
  | 0 => session
  | count + 1 => (afterChunks count).sent transport (chunkCommand instruction algorithm count)

/-- What comes of asking for a chunk after those before it. -/
def chunkReply (index : Nat) : Except Halt Bytes :=
  received ((afterChunks transport instruction algorithm session index).reply transport
    (chunkCommand instruction algorithm index))

theorem afterChunks_closed (count : Nat) :
    (afterChunks transport instruction algorithm session count).closed = session.closed := by
  induction count with
  | zero => rfl
  | succ count inductionHypothesis => exact inductionHypothesis

variable {transport instruction algorithm session}

theorem transmit_chunk (isOpen : session.closed = false) (index : Nat) :
    transmit transport instruction (UInt8.ofNat index) algorithm.deviceCode []
        (afterChunks transport instruction algorithm session index) =
      (chunkReply transport instruction algorithm session index,
        afterChunks transport instruction algorithm session (index + 1)) := by
  have stillOpen := afterChunks_closed transport instruction algorithm session index
  rw [isOpen] at stillOpen
  exact transmit_sent transport instruction _ _ [] stillOpen (Nat.zero_le 255)

/-- A chunk that has come is kept only if it has the length it has to have. -/
theorem checkChunk_apply {α : Type} (index expected : Nat) (chunk : Bytes)
    (next : Task (Session σ) α) (state : Session σ) :
    (Task.ofExcept (checkChunk index expected chunk) >>= fun _ => next) state =
      if chunk.length = expected then next state
      else (.error (.failure (.protocol (.chunkLength index chunk.length expected))), state) := by
  by_cases exact : chunk.length = expected
  · have accepted : checkChunk index expected chunk = .ok () := if_pos exact
    rw [if_pos exact, accepted, Task.bind_ok (Task.ofExcept_ok_apply _ _)]
  · have refused : checkChunk index expected chunk =
        .error (.protocol (.chunkLength index chunk.length expected)) := if_neg exact
    rw [if_neg exact, refused, Task.bind_error (Task.ofExcept_error_apply _ _)]

/-- One chunk is asked for, and the reading goes on if it has the length it has to have. -/
theorem readChunksFrom_cons (isOpen : session.closed = false) (index expected : Nat)
    (later : List Nat) :
    readChunksFrom transport instruction algorithm index (expected :: later)
        (afterChunks transport instruction algorithm session index) =
      match chunkReply transport instruction algorithm session index with
      | .error halt =>
          (.error halt, afterChunks transport instruction algorithm session (index + 1))
      | .ok chunk =>
          if chunk.length = expected then
            ((chunk ++ ·) <$> readChunksFrom transport instruction algorithm (index + 1) later)
              (afterChunks transport instruction algorithm session (index + 1))
          else
            (.error (.failure (.protocol (.chunkLength index chunk.length expected))),
              afterChunks transport instruction algorithm session (index + 1)) := by
  have asked : transmit transport instruction (UInt8.ofNat index) algorithm.deviceCode []
      (afterChunks transport instruction algorithm session index) = _ := transmit_chunk isOpen index
  rw [readChunksFrom]
  cases replied : chunkReply transport instruction algorithm session index with
  | error halt =>
      rw [replied] at asked
      rw [Task.bind_error asked]
  | ok chunk =>
      rw [replied] at asked
      rw [Task.bind_ok asked, checkChunk_apply]
      dsimp only
      rw [Task.map_eq_bind]

/-- Whatever the reading ends with, it has asked for the chunks in order, and for none of them
twice. -/
theorem readChunksFrom_state (isOpen : session.closed = false) (index : Nat) (lengths : List Nat) :
    ∃ count ≤ index + lengths.length,
      (readChunksFrom transport instruction algorithm index lengths
        (afterChunks transport instruction algorithm session index)).2 =
          afterChunks transport instruction algorithm session count := by
  induction lengths generalizing index with
  | nil => exact ⟨index, Nat.le_refl index, rfl⟩
  | cons expected later inductionHypothesis =>
      rw [readChunksFrom_cons isOpen, List.length_cons]
      cases chunkReply transport instruction algorithm session index with
      | error halt => exact ⟨index + 1, by omega, rfl⟩
      | ok chunk =>
          dsimp only
          by_cases exact : chunk.length = expected
          · rw [if_pos exact, Task.map_apply]
            obtain ⟨count, few, state⟩ := inductionHypothesis (index + 1)
            exact ⟨count, by omega, state⟩
          · rw [if_neg exact]
            exact ⟨index + 1, by omega, rfl⟩

/-- The first chunk is asked for to learn the length of the answer, which is then read like any
sequence of chunks, if it is neither empty nor longer than 256 chunks. -/
theorem readAnswer_eq (isOpen : session.closed = false) (length : AnswerLength) :
    readAnswer transport instruction algorithm length session =
      match chunkReply transport instruction algorithm session 0 with
      | .error halt => (.error halt, afterChunks transport instruction algorithm session 1)
      | .ok first =>
          match length.total first with
          | .error error =>
              (.error (.failure error), afterChunks transport instruction algorithm session 1)
          | .ok total =>
              if 1 ≤ total ∧ total ≤ 65280 then
                readChunksFrom transport instruction algorithm 0 (chunkLengths total) session
              else
                (.error (.failure (.protocol (.unreadableLength total))),
                  afterChunks transport instruction algorithm session 1) := by
  have asked : transmit transport instruction 0 algorithm.deviceCode [] session = _ :=
    transmit_chunk isOpen 0
  rw [readAnswer]
  cases replied : chunkReply transport instruction algorithm session 0 with
  | error halt =>
      rw [replied] at asked
      rw [Task.bind_error asked]
  | ok first =>
      rw [replied] at asked
      rw [Task.bind_ok asked]
      dsimp only
      cases measured : length.total first with
      | error error => rw [Task.bind_error (Task.ofExcept_error_apply _ _)]
      | ok total =>
          rw [Task.bind_ok (Task.ofExcept_ok_apply _ _)]
          dsimp only
          have count := length_chunkLengths total
          cases lengths : chunkLengths total with
          | nil =>
              rw [lengths, List.length_nil] at count
              rw [if_neg (by omega)]
              rfl
          | cons expected later =>
              rw [lengths, List.length_cons] at count
              dsimp only
              by_cases long : 256 ≤ later.length
              · rw [if_pos long, if_neg (by omega), Task.fail_apply]
              · have whole : readChunksFrom transport instruction algorithm 0 (expected :: later)
                    session = _ := readChunksFrom_cons isOpen 0 expected later
                rw [replied] at whole
                rw [if_neg long, if_pos (by omega), whole, checkChunk_apply]
                dsimp only
                rw [Task.map_eq_bind]

theorem readAnswer_state (isOpen : session.closed = false) (length : AnswerLength) :
    ∃ count ≤ 256, (readAnswer transport instruction algorithm length session).2 =
      afterChunks transport instruction algorithm session count := by
  rw [readAnswer_eq isOpen]
  cases chunkReply transport instruction algorithm session 0 with
  | error halt => exact ⟨1, by decide, rfl⟩
  | ok first =>
      dsimp only
      cases length.total first with
      | error error => exact ⟨1, by decide, rfl⟩
      | ok total =>
          dsimp only
          by_cases readable : 1 ≤ total ∧ total ≤ 65280
          · rw [if_pos readable]
            obtain ⟨count, few, state⟩ := readChunksFrom_state isOpen 0 (chunkLengths total)
            rw [length_chunkLengths] at few
            exact ⟨count, by omega, state⟩
          · rw [if_neg readable]
            exact ⟨1, by decide, rfl⟩

/-- Chunks that came as replies from a number on are read, and the reading goes on behind them. -/
theorem readChunksFrom_append (isOpen : session.closed = false) {chunks : List Bytes} {index : Nat}
    (delivered : (List.range' index chunks.length).map
      (chunkReply transport instruction algorithm session) = chunks.map .ok) (later : List Nat) :
    readChunksFrom transport instruction algorithm index (chunks.map List.length ++ later)
        (afterChunks transport instruction algorithm session index) =
      ((chunks.flatten ++ ·) <$>
        readChunksFrom transport instruction algorithm (index + chunks.length) later)
          (afterChunks transport instruction algorithm session (index + chunks.length)) := by
  induction chunks generalizing index with
  | nil => simp
  | cons chunk rest inductionHypothesis =>
      rw [List.length_cons, List.range'_succ, List.map_cons, List.map_cons] at delivered
      obtain ⟨first, others⟩ := List.cons.inj delivered
      rw [List.map_cons, List.cons_append, readChunksFrom_cons isOpen, first]
      have next : index + 1 + rest.length = index + (chunk :: rest).length := by
        rw [List.length_cons]
        omega
      dsimp only
      rw [if_pos rfl, Task.map_apply, inductionHypothesis others, ← Task.map_apply,
        append_map_append, next, List.flatten_cons]

/-- What is read was delivered chunk by chunk. -/
theorem delivered_of_readChunksFrom (isOpen : session.closed = false) {lengths : List Nat}
    {index : Nat} {out : Bytes}
    (read : (readChunksFrom transport instruction algorithm index lengths
      (afterChunks transport instruction algorithm session index)).1 = .ok out) :
    ∃ chunks : List Bytes, chunks.map List.length = lengths ∧
      (List.range' index chunks.length).map (chunkReply transport instruction algorithm session) =
        chunks.map .ok ∧
      out = chunks.flatten := by
  induction lengths generalizing index out with
  | nil =>
      cases read
      exact ⟨[], rfl, rfl, rfl⟩
  | cons expected later inductionHypothesis =>
      rw [readChunksFrom_cons isOpen] at read
      cases replied : chunkReply transport instruction algorithm session index with
      | error halt =>
          rw [replied] at read
          cases read
      | ok chunk =>
          rw [replied] at read
          dsimp only at read
          by_cases exact : chunk.length = expected
          · rw [if_pos exact, Task.map_apply] at read
            obtain ⟨rest, readRest, joined⟩ := Result.map_eq_ok read
            obtain ⟨chunks, lengths, delivered, whole⟩ := inductionHypothesis readRest
            refine ⟨chunk :: chunks, ?_, ?_, ?_⟩
            · rw [List.map_cons, exact, lengths]
            · rw [List.length_cons, List.range'_succ, List.map_cons, List.map_cons, replied,
                delivered]
            · rw [← joined, whole, List.flatten_cons]
          · rw [if_neg exact] at read
            cases read

/-! ## Whole answers -/

section Answers

variable (replies : Nat → Except Halt Bytes) (length : AnswerLength) (total : Nat)
  (chunks : List Bytes)

/-- The first replies are chunks of the lengths that an answer of so many bytes is cut into. -/
structure Delivered : Prop where
  replies_eq : (List.range chunks.length).map replies = chunks.map .ok
  lengths : chunks.map List.length =
    List.replicate ((total + 254) / 255 - 1) 255 ++ [total - 255 * ((total + 254) / 255 - 1)]

/-- Chunks have come as the first replies, of an answer whose length is known from the first of
them and fits 256 chunks. -/
structure Begun : Prop where
  measured : ∃ first, replies 0 = .ok first ∧ length.total first = .ok total
  readable : 1 ≤ total ∧ total ≤ 65280
  delivered : (List.range chunks.length).map replies = chunks.map .ok

/-- The chunks are those of the whole answer: all are full but the last, which holds the rest. -/
structure Complete : Prop extends Begun replies length total chunks where
  lengths : chunks.map List.length =
    List.replicate ((total + 254) / 255 - 1) 255 ++ [total - 255 * ((total + 254) / 255 - 1)]

/-- The chunks are full, and the answer is longer than they are. -/
structure Underway : Prop extends Begun replies length total chunks where
  full : ∀ chunk ∈ chunks, chunk.length = 255
  unfinished : 255 * chunks.length < total

variable {replies length total chunks}

theorem Delivered.first (delivered : Delivered replies total chunks) :
    ∃ first later, chunks = first :: later ∧ replies 0 = .ok first := by
  cases chunks with
  | nil =>
      have count := congrArg List.length delivered.lengths
      rw [List.length_append, List.length_singleton] at count
      cases count
  | cons first later =>
      have asked := delivered.replies_eq
      rw [List.length_cons, List.range_succ_eq_map, List.map_cons, List.map_cons] at asked
      exact ⟨first, later, rfl, (List.cons.inj asked).1⟩

theorem Delivered.length_flatten (delivered : Delivered replies total chunks) :
    chunks.flatten.length = total := by
  rw [List.length_flatten, delivered.lengths, List.sum_append, List.sum_replicate_nat,
    List.sum_singleton]
  omega

theorem Complete.delivered_eq (complete : Complete replies length total chunks) :
    Delivered replies total chunks :=
  ⟨complete.delivered, complete.lengths⟩

theorem Complete.chunkLengths_eq (complete : Complete replies length total chunks) :
    chunkLengths total = chunks.map List.length := by
  rw [complete.lengths, chunkLengths_eq_replicate complete.readable.1]

theorem Complete.count (complete : Complete replies length total chunks) :
    chunks.length = (total + 254) / 255 := by
  rw [← length_chunkLengths, complete.chunkLengths_eq, List.length_map]

theorem Complete.length_flatten (complete : Complete replies length total chunks) :
    chunks.flatten.length = total :=
  complete.delivered_eq.length_flatten

theorem Underway.chunkLengths_eq (underway : Underway replies length total chunks) :
    ∃ later, chunkLengths total =
      chunks.map List.length ++ min (total - 255 * chunks.length) 255 :: later := by
  obtain ⟨later, split⟩ := chunkLengths_split underway.unfinished
  have full : chunks.map List.length = List.replicate chunks.length 255 := by
    rw [List.eq_replicate_iff, List.length_map]
    refine ⟨rfl, ?_⟩
    intro found among
    obtain ⟨chunk, isChunk, rfl⟩ := List.mem_map.mp among
    exact underway.full chunk isChunk
  exact ⟨later, by rw [split, full]⟩

end Answers

variable {length : AnswerLength} {total : Nat}

theorem readAnswer_of_halt (isOpen : session.closed = false) {halt : Halt}
    (replied : chunkReply transport instruction algorithm session 0 = .error halt) :
    readAnswer transport instruction algorithm length session =
      (.error halt, afterChunks transport instruction algorithm session 1) := by
  rw [readAnswer_eq isOpen, replied]

theorem readAnswer_of_unmeasured (isOpen : session.closed = false) {first : Bytes} {error : Error}
    (replied : chunkReply transport instruction algorithm session 0 = .ok first)
    (unknown : length.total first = .error error) :
    readAnswer transport instruction algorithm length session =
      (.error (.failure error), afterChunks transport instruction algorithm session 1) := by
  rw [readAnswer_eq isOpen, replied]
  dsimp only
  rw [unknown]

theorem readAnswer_of_unreadable (isOpen : session.closed = false) {first : Bytes}
    (replied : chunkReply transport instruction algorithm session 0 = .ok first)
    (known : length.total first = .ok total) (outside : total = 0 ∨ 65280 < total) :
    readAnswer transport instruction algorithm length session =
      (.error (.failure (.protocol (.unreadableLength total))),
        afterChunks transport instruction algorithm session 1) := by
  rw [readAnswer_eq isOpen, replied]
  dsimp only
  rw [known]
  dsimp only
  rw [if_neg (by omega)]

theorem readAnswer_of_measured (isOpen : session.closed = false)
    (measured : ∃ first, chunkReply transport instruction algorithm session 0 = .ok first ∧
      length.total first = .ok total)
    (readable : 1 ≤ total ∧ total ≤ 65280) :
    readAnswer transport instruction algorithm length session =
      readChunksFrom transport instruction algorithm 0 (chunkLengths total) session := by
  obtain ⟨first, replied, known⟩ := measured
  rw [readAnswer_eq isOpen, replied]
  dsimp only
  rw [known]
  dsimp only
  rw [if_pos readable]

theorem readAnswer_of_complete (isOpen : session.closed = false) {chunks : List Bytes}
    (complete :
      Complete (chunkReply transport instruction algorithm session) length total chunks) :
    readAnswer transport instruction algorithm length session =
      (.ok chunks.flatten,
        afterChunks transport instruction algorithm session ((total + 254) / 255)) := by
  have delivered := complete.delivered
  rw [List.range_eq_range'] at delivered
  have whole : readChunksFrom transport instruction algorithm 0 (chunks.map List.length ++ [])
      session = _ := readChunksFrom_append isOpen delivered []
  rw [List.append_nil, ← complete.chunkLengths_eq, Nat.zero_add, complete.count] at whole
  rw [readAnswer_of_measured isOpen complete.measured complete.readable, whole, Task.map_apply]
  exact Prod.ext (congrArg Except.ok (List.append_nil _)) rfl

theorem complete_of_readAnswer (isOpen : session.closed = false) {out : Bytes}
    (read : (readAnswer transport instruction algorithm length session).1 = .ok out) :
    ∃ total chunks,
      Complete (chunkReply transport instruction algorithm session) length total chunks ∧
        out = chunks.flatten := by
  rw [readAnswer_eq isOpen] at read
  cases replied : chunkReply transport instruction algorithm session 0 with
  | error halt =>
      rw [replied] at read
      cases read
  | ok first =>
      rw [replied] at read
      dsimp only at read
      cases known : length.total first with
      | error error =>
          rw [known] at read
          cases read
      | ok total =>
          rw [known] at read
          dsimp only at read
          by_cases readable : 1 ≤ total ∧ total ≤ 65280
          · rw [if_pos readable] at read
            have fromStart : (readChunksFrom transport instruction algorithm 0 (chunkLengths total)
                (afterChunks transport instruction algorithm session 0)).1 = .ok out := read
            obtain ⟨chunks, lengths, delivered, whole⟩ :=
              delivered_of_readChunksFrom isOpen fromStart
            rw [← List.range_eq_range'] at delivered
            rw [chunkLengths_eq_replicate readable.1] at lengths
            have begun : Begun (chunkReply transport instruction algorithm session) length total
                chunks := ⟨⟨first, replied, known⟩, readable, delivered⟩
            exact ⟨total, chunks, ⟨begun, lengths⟩, whole⟩
          · rw [if_neg readable] at read
            cases read

theorem readAnswer_eq_ok_iff (isOpen : session.closed = false) {out : Bytes} :
    (readAnswer transport instruction algorithm length session).1 = .ok out ↔
      ∃ total chunks,
        Complete (chunkReply transport instruction algorithm session) length total chunks ∧
          out = chunks.flatten := by
  constructor
  · intro read
    exact complete_of_readAnswer isOpen read
  · rintro ⟨total, chunks, complete, rfl⟩
    exact congrArg Prod.fst (readAnswer_of_complete isOpen complete)

/-- What comes after full chunks decides alone what the reading ends with, if it is a halt or has
another length than is needed. -/
theorem readAnswer_of_underway (isOpen : session.closed = false) {chunks : List Bytes}
    (underway :
      Underway (chunkReply transport instruction algorithm session) length total chunks) :
    (∀ halt, chunkReply transport instruction algorithm session chunks.length = .error halt →
      readAnswer transport instruction algorithm length session =
        (.error halt,
          afterChunks transport instruction algorithm session (chunks.length + 1))) ∧
    (∀ chunk, chunkReply transport instruction algorithm session chunks.length = .ok chunk →
      chunk.length ≠ min (total - 255 * chunks.length) 255 →
      readAnswer transport instruction algorithm length session =
        (.error (.failure (.protocol (.chunkLength chunks.length chunk.length
          (min (total - 255 * chunks.length) 255)))),
          afterChunks transport instruction algorithm session (chunks.length + 1))) := by
  have delivered := underway.delivered
  rw [List.range_eq_range'] at delivered
  obtain ⟨later, split⟩ := underway.chunkLengths_eq
  have whole : readChunksFrom transport instruction algorithm 0 (chunks.map List.length ++ _)
      session = _ := readChunksFrom_append isOpen delivered
        (min (total - 255 * chunks.length) 255 :: later)
  rw [← split, Nat.zero_add, Task.map_apply, readChunksFrom_cons isOpen] at whole
  rw [readAnswer_of_measured isOpen underway.measured underway.readable, whole]
  constructor
  · intro halt replied
    rw [replied]
    rfl
  · intro chunk replied wrong
    rw [replied]
    dsimp only
    rw [if_neg wrong]
    rfl

/-- An answer whose length is known beforehand is read if it comes in the chunks of that length. -/
theorem readAnswer_iff_of_total (isOpen : session.closed = false) {expected : Nat}
    (known : ∀ first, length.total first = .ok expected)
    (readable : 1 ≤ expected ∧ expected ≤ 65280) {out : Bytes} :
    (readAnswer transport instruction algorithm length session).1 = .ok out ↔
      ∃ chunks, Delivered (chunkReply transport instruction algorithm session) expected chunks ∧
        out = chunks.flatten := by
  rw [readAnswer_eq_ok_iff isOpen]
  constructor
  · rintro ⟨total, chunks, complete, rfl⟩
    obtain ⟨first, _, measured⟩ := complete.measured
    rw [known first] at measured
    cases measured
    exact ⟨chunks, complete.delivered_eq, rfl⟩
  · rintro ⟨chunks, delivered, rfl⟩
    obtain ⟨first, _, _, replied⟩ := delivered.first
    exact ⟨expected, chunks,
      ⟨⟨⟨first, replied, known first⟩, readable, delivered.replies_eq⟩, delivered.lengths⟩, rfl⟩

/-- A public key is read if it comes in the chunks of 1312 or of 897 bytes. -/
theorem publicKey_read_iff (isOpen : session.closed = false) {scheme : Algorithm} {out : Bytes} :
    (readAnswer transport instruction algorithm (.ofPublicKey scheme) session).1 = .ok out ↔
      ∃ chunks, Delivered (chunkReply transport instruction algorithm session)
        scheme.publicKeyLength chunks ∧ out = chunks.flatten := by
  apply readAnswer_iff_of_total isOpen fun first => AnswerLength.total_ofPublicKey first scheme
  cases scheme <;> decide

/-- A signature of a fixed length is read if it comes in the chunks of 2420 bytes. -/
theorem signature_read_iff_mlDsa44 (isOpen : session.closed = false) {messageLength : Nat}
    {out : Bytes} :
    (readAnswer transport instruction algorithm (.ofSignature .mlDsa44 messageLength)
        session).1 = .ok out ↔
      ∃ chunks, Delivered (chunkReply transport instruction algorithm session) 2420 chunks ∧
        out = chunks.flatten :=
  readAnswer_iff_of_total isOpen
    (fun first => AnswerLength.total_ofSignature_mlDsa44 first messageLength) (by decide)

/-- A signed message is read if it comes in the chunks of 42 bytes, those of the message, and as
many as the first two bytes of the first chunk tell. -/
theorem signature_read_iff_falcon512 (isOpen : session.closed = false) {messageLength : Nat}
    {out : Bytes} :
    (readAnswer transport instruction algorithm (.ofSignature .falcon512 messageLength)
        session).1 = .ok out ↔
      ∃ first later, 2 ≤ first.length ∧
        42 + messageLength + Bytes.toNatBE (first.take 2) ≤ 65280 ∧
        Delivered (chunkReply transport instruction algorithm session)
          (42 + messageLength + Bytes.toNatBE (first.take 2)) (first :: later) ∧
        out = (first :: later).flatten := by
  rw [readAnswer_eq_ok_iff isOpen]
  constructor
  · rintro ⟨total, chunks, complete, rfl⟩
    obtain ⟨first, later, rfl, replied⟩ := complete.delivered_eq.first
    obtain ⟨found, alsoReplied, known⟩ := complete.measured
    rw [replied] at alsoReplied
    cases alsoReplied
    by_cases long : 2 ≤ first.length
    · rw [AnswerLength.total_ofSignature_falcon512 messageLength long] at known
      cases known
      exact ⟨first, later, long, complete.readable.2, complete.delivered_eq, rfl⟩
    · rw [AnswerLength.total_ofSignature_falcon512_of_short messageLength (by omega)] at known
      cases known
  · rintro ⟨first, later, long, readable, delivered, rfl⟩
    obtain ⟨_, _, same, replied⟩ := delivered.first
    cases same
    have known := AnswerLength.total_ofSignature_falcon512 messageLength long
    exact ⟨_, first :: later,
      ⟨⟨⟨first, replied, known⟩, ⟨by omega, readable⟩, delivered.replies_eq⟩, delivered.lengths⟩,
      rfl⟩

end Replies

section Buffer

variable {σ : Type} {transport : Transport σ} {instruction : Instruction} {algorithm : Algorithm}

theorem chunkNumber_eq {index : Nat} (few : index < 256) :
    chunkNumber index = .ok (UInt8.ofNat index) :=
  if_pos few

/-- What a buffer still lacks is read like any sequence of chunks, and a number of a chunk is never
more than a byte. -/
theorem fillBuffer_apply {total remaining index : Nat} (later : 0 < index)
    {buffer : Bytes} (count : (chunkLengths (total - buffer.length)).length = remaining)
    (few : index + remaining ≤ 256) (chunk : Bytes) (session : Session σ) :
    fillBuffer transport instruction algorithm total remaining index chunk buffer session =
      ((buffer ++ ·) <$> readChunksFrom transport instruction algorithm index
        (chunkLengths (total - buffer.length))) session := by
  induction remaining generalizing index buffer chunk session with
  | zero =>
      have nothing : chunkLengths (total - buffer.length) = [] := List.length_eq_zero_iff.mp count
      rw [nothing, Task.map_apply, fillBuffer]
      change (Except.ok buffer, session) = (Except.ok (buffer ++ []), session)
      rw [List.append_nil]
  | succ remaining inductionHypothesis =>
      have lacking : 0 < total - buffer.length := by
        by_contra full
        have zero : total - buffer.length = 0 := by omega
        rw [zero] at count
        cases count
      rw [chunkLengths_of_pos lacking, List.length_cons] at count
      rw [fillBuffer, if_pos later, chunkNumber_eq (by omega),
        Task.bind_ok (Task.ofExcept_ok_apply _ _), chunkLengths_of_pos lacking, Task.map_apply,
        readChunksFrom]
      rcases replied : transmit transport instruction (UInt8.ofNat index) algorithm.deviceCode []
        session with ⟨halt | found, after⟩
      · rw [Task.bind_error replied, Task.bind_error replied]
        rfl
      · rw [Task.bind_ok replied, Task.bind_ok replied]
        dsimp only
        rw [checkChunk_apply, checkChunk_apply]
        by_cases exact : found.length = min (total - buffer.length) chunkLength
        · have rest : total - (buffer ++ found).length = total - buffer.length - chunkLength := by
            rw [List.length_append, exact]
            omega
          rw [if_pos exact, if_pos exact, inductionHypothesis (Nat.succ_pos index)
            (by rw [rest]; omega) (by omega), rest, ← Task.map_eq_bind, ← Task.map_apply,
            append_map_append]
        · rw [if_neg exact, if_neg exact]
          rfl

/-- Reading into a buffer is reading chunk by chunk. -/
theorem readBuffered_eq (length : AnswerLength) :
    readBuffered transport instruction algorithm length =
      readAnswer transport instruction algorithm length := by
  funext session
  rw [readBuffered, readAnswer]
  rcases replied : transmit transport instruction 0 algorithm.deviceCode [] session
    with ⟨halt | first, after⟩
  · rw [Task.bind_error replied, Task.bind_error replied]
  · rw [Task.bind_ok replied, Task.bind_ok replied]
    cases measured : length.total first with
    | error error =>
        rw [Task.bind_error (Task.ofExcept_error_apply _ _),
          Task.bind_error (Task.ofExcept_error_apply _ _)]
    | ok total =>
        rw [Task.bind_ok (Task.ofExcept_ok_apply _ _), Task.bind_ok (Task.ofExcept_ok_apply _ _)]
        have chunks : (total + (chunkLength - 1)) / chunkLength = (total + 254) / 255 := rfl
        have count := length_chunkLengths total
        by_cases empty : total = 0
        · rw [if_pos (Or.inl empty), empty]
          rfl
        · rw [chunkLengths_of_pos (by omega), List.length_cons] at count
          rw [chunkLengths_of_pos (by omega), chunks, ← count]
          dsimp only
          by_cases long : 256 ≤ (chunkLengths (total - chunkLength)).length
          · rw [if_pos (Or.inr (by omega)), if_pos long]
          · rw [if_neg (by omega), if_neg long, fillBuffer, if_neg (Nat.lt_irrefl 0), pure_bind]
            dsimp only
            rw [checkChunk_apply, checkChunk_apply, List.length_nil, Nat.sub_zero, List.nil_append]
            by_cases exact : first.length = min total chunkLength
            · have rest : total - first.length = total - chunkLength := by omega
              rw [if_pos exact, if_pos exact,
                fillBuffer_apply (Nat.succ_pos 0) (by rw [rest]) (by omega), rest,
                Task.map_eq_bind]
            · rw [if_neg exact, if_neg exact]

end Buffer

section Exact

variable {σ : Type} (transport : Transport σ) (instruction : Instruction) (algorithm : Algorithm)
  (session : Session (Recorded σ ChannelEvent))

/-- Asking for a chunk after those before it, as it is written down. -/
def chunkExchange (index : Nat) : ChannelEvent :=
  .exchanged (chunkCommand instruction algorithm index).toBytes
    ((afterChunks transport.recorded instruction algorithm session index).reply transport.recorded
      (chunkCommand instruction algorithm index))

theorem log_afterChunks (count : Nat) :
    (afterChunks transport.recorded instruction algorithm session count).log =
      session.log ++
        (List.range count).map (chunkExchange transport instruction algorithm session) := by
  induction count with
  | zero => simp [afterChunks]
  | succ count inductionHypothesis =>
      rw [afterChunks, log_sent, inductionHypothesis, List.range_succ, List.map_append,
        List.append_assoc]
      rfl

theorem total_eq_error {length : AnswerLength} {first : Bytes} {error : Error}
    (unknown : length.total first = .error error) : error = .protocol .lengthHeaderMissing := by
  cases length with
  | fixed length => cases unknown
  | signedMessage messageLength =>
      unfold AnswerLength.total at unknown
      dsimp only at unknown
      split at unknown
      · cases unknown
        rfl
      · cases unknown

/-- Whatever comes as replies, an answer is read exactly if its chunks come as the first replies,
and it is then what they hold together. Its chunks are asked for by their numbers, each of which is
a byte, and no further command is sent after the last of them, or after the first reply that does
not belong to an answer. -/
theorem readAnswer_exact (transport : Transport σ) (instruction : Instruction)
    (algorithm : Algorithm) (length : AnswerLength) (channel : Recorded σ ChannelEvent)
    (derived : Option (Path × Algorithm)) :
    let session : Session (Recorded σ ChannelEvent) := ⟨channel, derived, false⟩
    let read := readAnswer transport.recorded instruction algorithm length session
    let replies := chunkReply transport.recorded instruction algorithm session
    let asked := afterChunks transport.recorded instruction algorithm session
    (∀ out, read.1 = .ok out ↔
      ∃ total chunks, Complete replies length total chunks ∧ out = chunks.flatten) ∧
    (∀ total chunks, Complete replies length total chunks →
      chunks.flatten.length = total ∧ read = (.ok chunks.flatten, asked ((total + 254) / 255))) ∧
    (∀ first error, replies 0 = .ok first → length.total first = .error error →
      error = .protocol .lengthHeaderMissing ∧ read = (.error (.failure error), asked 1)) ∧
    (∀ first total, replies 0 = .ok first → length.total first = .ok total →
      total = 0 ∨ 65280 < total →
        read = (.error (.failure (.protocol (.unreadableLength total))), asked 1)) ∧
    (∀ total chunks chunk, Underway replies length total chunks →
      replies chunks.length = .ok chunk →
      chunk.length ≠ min (total - 255 * chunks.length) 255 →
        read = (.error (.failure (.protocol (.chunkLength chunks.length chunk.length
          (min (total - 255 * chunks.length) 255)))), asked (chunks.length + 1))) ∧
    (∀ total chunks halt, Underway replies length total chunks →
      replies chunks.length = .error halt → read = (.error halt, asked (chunks.length + 1))) ∧
    (∀ halt, replies 0 = .error halt → read = (.error halt, asked 1)) ∧
    (∃ count ≤ 256, read.2 = asked count) ∧
    (∀ count, (asked count).log = session.log ++
      (List.range count).map (chunkExchange transport instruction algorithm session)) ∧
    (∀ index < 256, ∃ p1 : UInt8, chunkNumber index = .ok p1 ∧ p1.toNat = index ∧
      (chunkCommand instruction algorithm index).toBytes =
        [0xE0, instruction.code, p1, algorithm.deviceCode, 0]) ∧
    readBuffered transport.recorded instruction algorithm length session = read := by
  intro session read replies asked
  have isOpen : session.closed = false := rfl
  refine ⟨?yields, ?complete, ?headless, ?unreadable, ?wrong, ?halted, ?mute, ?few, ?commands,
    ?numbers, ?buffered⟩
  case yields =>
    intro out
    exact readAnswer_eq_ok_iff isOpen
  case complete =>
    intro total chunks complete
    exact ⟨complete.length_flatten,
      readAnswer_of_complete isOpen complete⟩
  case headless =>
    intro first error replied unknown
    exact ⟨total_eq_error unknown,
      readAnswer_of_unmeasured isOpen replied unknown⟩
  case unreadable =>
    intro first total replied known outside
    exact readAnswer_of_unreadable isOpen replied known outside
  case wrong =>
    intro total chunks chunk underway replied wrong
    exact (readAnswer_of_underway isOpen underway).2 chunk replied wrong
  case halted =>
    intro total chunks halt underway replied
    exact (readAnswer_of_underway isOpen underway).1 halt replied
  case mute =>
    intro halt replied
    exact readAnswer_of_halt isOpen replied
  case few => exact readAnswer_state isOpen length
  case commands =>
    intro count
    exact log_afterChunks transport instruction algorithm session count
  case numbers =>
    intro index few
    exact ⟨UInt8.ofNat index, chunkNumber_eq few, UInt8.toNat_ofNat_of_lt' few, rfl⟩
  case buffered =>
    exact congrFun (readBuffered_eq length) session

end Exact

end Countersign.Session
