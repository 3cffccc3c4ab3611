import Countersign.Session

/-!
Answers that are longer than one response, read chunk by chunk. Every chunk but the last is full,
the last holds what remains, and no chunk is empty. Put into a buffer, what is expected of a chunk
is what the buffer still lacks.
-/

namespace Countersign.Session

variable {σ : Type}

/-- The length of a full chunk. -/
def chunkLength : Nat := 255

/-- The lengths of the chunks of an answer. -/
def chunkLengths (total : Nat) : List Nat :=
  List.replicate (total / chunkLength) chunkLength ++
    if total % chunkLength = 0 then [] else [total % chunkLength]

/-- How the length of an answer is known: beforehand, or from the signature length at the head of
a signed Falcon message. -/
inductive AnswerLength
  | fixed (length : Nat)
  | signedMessage (messageLength : Nat)

namespace AnswerLength

/-- The length of a public key as it is read. -/
def ofPublicKey (algorithm : Algorithm) : AnswerLength :=
  .fixed algorithm.publicKeyLength

/-- The length of a signature over a message as it is read. -/
def ofSignature (algorithm : Algorithm) (messageLength : Nat) : AnswerLength :=
  match algorithm with
  | .mlDsa44 => .fixed Algorithm.mlDsa44.signatureLength
  | .falcon512 => .signedMessage messageLength

/-- The length of an answer, given its first chunk. A signed message consists of two bytes for the
length of the signature, forty bytes of nonce, the message and the signature. -/
def total (first : Bytes) : AnswerLength → Except Error Nat
  | fixed length => .ok length
  | signedMessage messageLength =>
      if first.length < 2 then .error (.protocol .lengthHeaderMissing)
      else .ok (42 + messageLength + Bytes.toNatBE (first.take 2))

section Total

variable (first : Bytes) (algorithm : Algorithm) (messageLength : Nat)

theorem total_fixed (length : Nat) : (fixed length).total first = .ok length := rfl

theorem total_ofPublicKey : (ofPublicKey algorithm).total first = .ok algorithm.publicKeyLength :=
  total_fixed first algorithm.publicKeyLength

theorem total_ofSignature_mlDsa44 : (ofSignature .mlDsa44 messageLength).total first = .ok 2420 :=
  total_fixed first 2420

variable {first}

theorem total_ofSignature_falcon512 (long : 2 ≤ first.length) :
    (ofSignature .falcon512 messageLength).total first =
      .ok (42 + messageLength + Bytes.toNatBE (first.take 2)) :=
  if_neg (Nat.not_lt.mpr long)

theorem total_ofSignature_falcon512_of_short (short : first.length < 2) :
    (ofSignature .falcon512 messageLength).total first =
      .error (.protocol .lengthHeaderMissing) :=
  if_pos short

end Total

end AnswerLength

/-- Refuses a chunk of any but the expected length. -/
def checkChunk (index expected : Nat) (chunk : Bytes) : Except Error Unit :=
  if chunk.length = expected then .ok ()
  else .error (.protocol (.chunkLength index chunk.length expected))

/-- Reads the chunks from a number on, given the lengths that they have to have. -/
def readChunksFrom (transport : Transport σ) (instruction : Instruction) (algorithm : Algorithm) :
    Nat → List Nat → Task (Session σ) Bytes
  | _, [] => return []
  | index, expected :: later => do
      let chunk ← transmit transport instruction (UInt8.ofNat index) algorithm.deviceCode []
      Task.ofExcept (checkChunk index expected chunk)
      let rest ← readChunksFrom transport instruction algorithm (index + 1) later
      return chunk ++ rest

/-- Reads an answer. The number of a chunk is one byte, so that it has at most 256 of them. -/
def readAnswer (transport : Transport σ) (instruction : Instruction) (algorithm : Algorithm)
    (length : AnswerLength) : Task (Session σ) Bytes := do
  let first ← transmit transport instruction 0 algorithm.deviceCode []
  let total ← Task.ofExcept (length.total first)
  match chunkLengths total with
  | [] => Task.fail (.protocol (.unreadableLength total))
  | expected :: later =>
      if 256 ≤ later.length then
        Task.fail (.protocol (.unreadableLength total))
      else
        Task.ofExcept (checkChunk 0 expected first)
        let rest ← readChunksFrom transport instruction algorithm 1 later
        return first ++ rest

/-- The number of a chunk as a byte. -/
def chunkNumber (index : Nat) : Except Error UInt8 :=
  if index < UInt8.size then .ok (UInt8.ofNat index) else .error (.protocol (.chunkIndex index))

/-- Fills the buffer with a number of chunks, the first of which is there already if its index
is zero. -/
def fillBuffer (transport : Transport σ) (instruction : Instruction) (algorithm : Algorithm)
    (total : Nat) : (remaining index : Nat) → (chunk buffer : Bytes) → Task (Session σ) Bytes
  | 0, _, _, buffer => return buffer
  | remaining + 1, index, chunk, buffer => do
      let chunk ←
        if 0 < index then do
          let p1 ← Task.ofExcept (chunkNumber index)
          transmit transport instruction p1 algorithm.deviceCode []
        else
          pure chunk
      let expected := min (total - buffer.length) chunkLength
      Task.ofExcept (checkChunk index expected chunk)
      fillBuffer transport instruction algorithm total remaining (index + 1) chunk (buffer ++ chunk)

/-- Reads an answer into a buffer. -/
def readBuffered (transport : Transport σ) (instruction : Instruction) (algorithm : Algorithm)
    (length : AnswerLength) : Task (Session σ) Bytes := do
  let first ← transmit transport instruction 0 algorithm.deviceCode []
  let total ← Task.ofExcept (length.total first)
  let chunks := (total + (chunkLength - 1)) / chunkLength
  if total = 0 ∨ 256 < chunks then
    Task.fail (.protocol (.unreadableLength total))
  else
    fillBuffer transport instruction algorithm total chunks 0 first []

end Countersign.Session
