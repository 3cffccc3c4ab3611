import Countersign.Bytes

/-!
Hash functions built as sponges over the permutation `Keccak-f[1600]` on twenty-five lanes of 64
bits: the 256-bit digest of the chain and the two extendable-output functions of the lattice
schemes. A sponge's output is a sequence of blocks, and `squeeze` cuts its first bytes off; a reader
holds what has not been read of the current block, and the state that gave the block out.
-/

namespace Countersign.Digest

/-- Five things in a circle, addressed by a column or a row number modulo five. -/
structure Five (α : Type) where
  at0 : α
  at1 : α
  at2 : α
  at3 : α
  at4 : α
deriving DecidableEq

namespace Five

variable {α β γ : Type}

def map (f : α → β) (five : Five α) : Five β :=
  ⟨f five.at0, f five.at1, f five.at2, f five.at3, f five.at4⟩

def zip (f : α → β → γ) (left : Five α) (right : Five β) : Five γ :=
  ⟨f left.at0 right.at0, f left.at1 right.at1, f left.at2 right.at2,
    f left.at3 right.at3, f left.at4 right.at4⟩

/-- The circle read from the next place on. -/
def next (five : Five α) : Five α :=
  ⟨five.at1, five.at2, five.at3, five.at4, five.at0⟩

/-- The circle read from the previous place on. -/
def previous (five : Five α) : Five α :=
  ⟨five.at4, five.at0, five.at1, five.at2, five.at3⟩

def toList (five : Five α) : List α :=
  [five.at0, five.at1, five.at2, five.at3, five.at4]

/-- The first five members of a list, missing ones replaced by `absent`. -/
def ofList (absent : α) (items : List α) : Five α :=
  ⟨items.getD 0 absent, items.getD 1 absent, items.getD 2 absent,
    items.getD 3 absent, items.getD 4 absent⟩

end Five

/-- The state of the permutation: rows of lanes. -/
abbrev Lanes := Five (Five UInt64)

namespace Lanes

def zero : Lanes :=
  let row : Five UInt64 := ⟨0, 0, 0, 0, 0⟩
  ⟨row, row, row, row, row⟩

/-- The lanes row by row. -/
def toList (lanes : Lanes) : List UInt64 :=
  (Five.toList lanes).flatMap Five.toList

/-- Reads lanes row by row, missing ones as zero. -/
def ofList (items : List UInt64) : Lanes :=
  ⟨Five.ofList 0 items, Five.ofList 0 (items.drop 5), Five.ofList 0 (items.drop 10),
    Five.ofList 0 (items.drop 15), Five.ofList 0 (items.drop 20)⟩

/-- The lane rotated towards its high end; the amount is below 64. -/
def rotate (amount lane : UInt64) : UInt64 :=
  if amount = 0 then lane else (lane <<< amount) ||| (lane >>> (64 - amount))

private def xorRows (left right : Five UInt64) : Five UInt64 :=
  Five.zip (fun a b => a ^^^ b) left right

/-- Adds to each lane the parities of two neighbouring columns. -/
def theta (lanes : Lanes) : Lanes :=
  let parity :=
    xorRows (xorRows (xorRows (xorRows lanes.at0 lanes.at1) lanes.at2) lanes.at3) lanes.at4
  let effect := xorRows parity.previous (parity.next.map (rotate 1))
  lanes.map (xorRows effect)

private def rotations : Five (Five UInt64) :=
  ⟨⟨0, 1, 62, 28, 27⟩, ⟨36, 44, 6, 55, 20⟩, ⟨3, 10, 43, 25, 39⟩,
    ⟨41, 45, 15, 21, 8⟩, ⟨18, 2, 61, 56, 14⟩⟩

/-- Rotates every lane by its own amount. -/
def rho (lanes : Lanes) : Lanes :=
  Five.zip (Five.zip rotate) rotations lanes

/-- Moves the lane of row `x`, column `x + 3y` to row `y`, column `x`. -/
def pi (lanes : Lanes) : Lanes :=
  let ⟨r0, r1, r2, r3, r4⟩ := lanes
  ⟨⟨r0.at0, r1.at1, r2.at2, r3.at3, r4.at4⟩,
    ⟨r0.at3, r1.at4, r2.at0, r3.at1, r4.at2⟩,
    ⟨r0.at1, r1.at2, r2.at3, r3.at4, r4.at0⟩,
    ⟨r0.at4, r1.at0, r2.at1, r3.at2, r4.at3⟩,
    ⟨r0.at2, r1.at3, r2.at4, r3.at0, r4.at1⟩⟩

/-- Combines each lane with the two lanes that follow it in its row. -/
def chi (lanes : Lanes) : Lanes :=
  lanes.map fun row =>
    xorRows row (Five.zip (fun a b => ~~~a &&& b) row.next row.next.next)

/-- Adds a round constant to the first lane. -/
def iota (constant : UInt64) (lanes : Lanes) : Lanes :=
  { lanes with at0 := { lanes.at0 with at0 := lanes.at0.at0 ^^^ constant } }

private def roundConstants : List UInt64 :=
  [0x0000000000000001, 0x0000000000008082, 0x800000000000808A, 0x8000000080008000,
    0x000000000000808B, 0x0000000080000001, 0x8000000080008081, 0x8000000000008009,
    0x000000000000008A, 0x0000000000000088, 0x0000000080008009, 0x000000008000000A,
    0x000000008000808B, 0x800000000000008B, 0x8000000000008089, 0x8000000000008003,
    0x8000000000008002, 0x8000000000000080, 0x000000000000800A, 0x800000008000000A,
    0x8000000080008081, 0x8000000000008080, 0x0000000080000001, 0x8000000080008008]

/-- The twenty-four rounds. -/
def permute (lanes : Lanes) : Lanes :=
  roundConstants.foldl (fun state constant => iota constant (chi (pi (rho (theta state))))) lanes

end Lanes

/-- What distinguishes the sponge functions: the bytes taken in or given out per permutation, and
the byte that follows the message. -/
structure Sponge where
  rate : Nat
  suffix : UInt8

namespace Sponge

/-- The message followed by the suffix, zeros up to a whole block, and the top bit of the last
byte. -/
def pad (sponge : Sponge) (message : Bytes) : Bytes :=
  let free := sponge.rate - 1 - message.length % sponge.rate
  if free = 0 then
    message ++ [sponge.suffix ||| 0x80]
  else
    message ++ sponge.suffix :: Bytes.zeros (free - 1) ++ [0x80]

private def laneOfBytes (bytes : Bytes) : UInt64 :=
  bytes.foldr (fun byte lane => (lane <<< 8) ||| byte.toUInt64) 0

private def bytesOfLane (lane : UInt64) : Bytes :=
  [lane.toUInt8, (lane >>> 8).toUInt8, (lane >>> 16).toUInt8, (lane >>> 24).toUInt8,
    (lane >>> 32).toUInt8, (lane >>> 40).toUInt8, (lane >>> 48).toUInt8, (lane >>> 56).toUInt8]

/-- Mixes one block into the state. -/
def absorbBlock (state : Lanes) (block : Bytes) : Lanes :=
  let input := Lanes.ofList ((Bytes.pieces 8 block).map laneOfBytes)
  Lanes.permute (Five.zip (Five.zip fun a b => a ^^^ b) state input)

/-- The state after the whole message. -/
def absorb (sponge : Sponge) (message : Bytes) : Lanes :=
  (Bytes.pieces sponge.rate (sponge.pad message)).foldl absorbBlock Lanes.zero

/-- The block that a state gives out. -/
def outputBlock (sponge : Sponge) (state : Lanes) : Bytes :=
  ((Lanes.toList state).flatMap bytesOfLane).take sponge.rate

private def squeezeBlocks (sponge : Sponge) : Nat → Nat → Lanes → Bytes
  | 0, _, _ => []
  | blocks + 1, length, state =>
      let block := sponge.outputBlock state
      if length ≤ block.length then
        block.take length
      else
        block ++ squeezeBlocks sponge blocks (length - block.length) (Lanes.permute state)

/-- The first `length` bytes of output. -/
def squeeze (sponge : Sponge) (length : Nat) (state : Lanes) : Bytes :=
  squeezeBlocks sponge (length / sponge.rate + 1) length state

/-- The first `length` bytes of the sponge's output on a message. -/
def hash (sponge : Sponge) (length : Nat) (message : Bytes) : Bytes :=
  sponge.squeeze length (sponge.absorb message)

theorem length_outputBlock {sponge : Sponge} (fits : sponge.rate ≤ 200) (state : Lanes) :
    (sponge.outputBlock state).length = sponge.rate := by
  have whole : ((Lanes.toList state).flatMap bytesOfLane).length = 200 := rfl
  rw [outputBlock, List.length_take, whole]
  omega

private theorem length_squeezeBlocks {sponge : Sponge} (fits : sponge.rate ≤ 200)
    (blocks : Nat) {length : Nat} (enough : length ≤ blocks * sponge.rate) (state : Lanes) :
    (squeezeBlocks sponge blocks length state).length = length := by
  induction blocks generalizing length state with
  | zero =>
      rw [Nat.zero_mul] at enough
      rw [squeezeBlocks, List.length_nil]
      omega
  | succ blocks inductionHypothesis =>
      rw [Nat.succ_mul] at enough
      have block := length_outputBlock fits state
      simp only [squeezeBlocks]
      split
      · rename_i short
        rw [List.length_take]
        omega
      · rename_i long
        rw [List.length_append, inductionHypothesis (by omega)]
        omega

theorem length_hash {sponge : Sponge} (positive : 0 < sponge.rate) (fits : sponge.rate ≤ 200)
    (length : Nat) (message : Bytes) : (sponge.hash length message).length = length := by
  have below : length ≤ (length / sponge.rate + 1) * sponge.rate :=
    Nat.le_of_lt (Nat.lt_mul_of_div_lt (Nat.lt_succ_self _) positive)
  exact length_squeezeBlocks fits _ below _

theorem squeeze_of_le {sponge : Sponge} (fits : sponge.rate ≤ 200) {length : Nat}
    (short : length ≤ sponge.rate) (state : Lanes) :
    sponge.squeeze length state = (sponge.outputBlock state).take length := by
  rw [squeeze, squeezeBlocks, length_outputBlock fits, if_pos short]

theorem squeeze_of_lt {sponge : Sponge} (positive : 0 < sponge.rate) (fits : sponge.rate ≤ 200)
    {length : Nat} (long : sponge.rate < length) (state : Lanes) :
    sponge.squeeze length state =
      sponge.outputBlock state ++ sponge.squeeze (length - sponge.rate) (Lanes.permute state) := by
  have blocks : length / sponge.rate = (length - sponge.rate) / sponge.rate + 1 :=
    Nat.div_eq_sub_div positive (Nat.le_of_lt long)
  rw [squeeze, squeezeBlocks, length_outputBlock fits, if_neg (Nat.not_le.mpr long), blocks,
    squeeze]

end Sponge

def keccak : Sponge := ⟨136, 0x01⟩
def shake128 : Sponge := ⟨168, 0x1F⟩
def shake256 : Sponge := ⟨136, 0x1F⟩

end Countersign.Digest

namespace Countersign

/-- The digest that the chain uses. -/
def keccak256 (message : Bytes) : Hash :=
  Octets.take 32 (Digest.keccak.hash 32 message)

end Countersign

namespace Countersign.Digest

structure Reader where
  sponge : Sponge
  state : Lanes
  unread : Bytes

/-- A reader of the output on a message. -/
def Sponge.reader (sponge : Sponge) (message : Bytes) : Reader :=
  let state := sponge.absorb message
  ⟨sponge, state, sponge.outputBlock state⟩

namespace Reader

/-- The reader at the start of the next block. -/
def advance (reader : Reader) : Reader :=
  let state := Lanes.permute reader.state
  ⟨reader.sponge, state, reader.sponge.outputBlock state⟩

/-- The next byte. No block is empty, as the rate of a sponge is positive. -/
def next (reader : Reader) : UInt8 × Reader :=
  match reader.unread with
  | byte :: unread => (byte, { reader with unread })
  | [] =>
      let reader := reader.advance
      (reader.unread.headD 0, { reader with unread := reader.unread.tail })

/-- The next bytes. -/
def read : Nat → Reader → Bytes × Reader
  | 0, reader => ([], reader)
  | count + 1, reader =>
      let (byte, reader) := reader.next
      let (rest, reader) := read count reader
      (byte :: rest, reader)

end Reader

end Countersign.Digest
