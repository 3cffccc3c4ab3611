import Countersign.Lattice.Falcon.Compact

/-!
A signed message cut by guarded steps: sums, differences and shifts of machine numbers, and places
in buffers. A compressed polynomial is read byte by byte from a word of 32 bits; the bits that are
still to be read are its lowest ones, and those that were read stay above them until they are
shifted out.
-/

namespace Countersign.Lattice.Falcon

/-- A word with the number of its lowest bits that are still to be read, and the bytes that have
not been shifted in. -/
structure Accumulator where
  word : UInt32
  unread : Nat
  bytes : Bytes

namespace Accumulator

/-- Shifts the next byte in, whose bits are to be read after those that were unread. -/
def shiftIn (acc : Accumulator) : Except CompressionFault Accumulator :=
  match acc.bytes with
  | [] => .error .truncated
  | byte :: rest => .ok ⟨(acc.word <<< 8) ||| byte.toUInt32, acc.unread + 8, rest⟩

/-- The highest `count` of the unread bits are read, as the lowest ones of a word. -/
def window (acc : Accumulator) (count : Nat) : UInt32 × Accumulator :=
  let unread := acc.unread - count
  (acc.word >>> UInt32.ofNat unread, { acc with unread })

/-- Reads one bit, from the next byte if none is left of the last. -/
def readBit (acc : Accumulator) : Except CompressionFault (Bool × Accumulator) := do
  let acc ← if acc.unread = 0 then acc.shiftIn else .ok acc
  let (bit, acc) := acc.window 1
  return (bit &&& 1 ≠ 0, acc)

/-- Reads the unary part of a magnitude whose low part is known. -/
def readUnary (magnitude : Nat) (acc : Accumulator) :
    Except CompressionFault (Nat × Accumulator) :=
  match acc.readBit with
  | .error fault => .error fault
  | .ok (true, acc) => .ok (magnitude, acc)
  | .ok (false, acc) =>
      if 2047 < magnitude + 128 then .error .outOfRange else readUnary (magnitude + 128) acc
termination_by 2048 - magnitude

/-- Reads one coefficient, which has to fit sixteen bits. -/
def readValue (acc : Accumulator) : Except CompressionFault (Int × Accumulator) := do
  let acc ← acc.shiftIn
  let (first, acc) := acc.window 8
  let negative : Bool := first &&& 0x80 ≠ 0
  let (magnitude, acc) ← readUnary (first &&& 0x7F).toNat acc
  if negative && magnitude = 0 then
    throw .negativeZero
  if 32767 < magnitude then
    throw .outOfRange
  return (if negative then -(magnitude : Int) else magnitude, acc)

/-- Reads a number of coefficients. -/
def readValues : Nat → Accumulator → Except CompressionFault (List Int × Accumulator)
  | 0, acc => .ok ([], acc)
  | count + 1, acc => do
      let (value, acc) ← acc.readValue
      let (values, acc) ← readValues count acc
      return (value :: values, acc)

/-- Reads a whole polynomial. What is left in the word and all bytes behind it have to be zero. -/
def readAll (body : Bytes) : Except CompressionFault (List Int) := do
  let (values, acc) ← readValues degree ⟨0, 0, body⟩
  if acc.word &&& ((1 <<< UInt32.ofNat acc.unread) - 1) ≠ 0 then
    throw .trailingBits
  if acc.bytes.any (· ≠ 0) then
    throw .padding
  return values

end Accumulator

/-- The coefficients of a compressed polynomial, as a caller is told of them. -/
def readBody (body : Bytes) : Except Error (List Int) :=
  (Accumulator.readAll body).mapError fun fault => .protocol (.compression fault)

end Countersign.Lattice.Falcon

namespace Countersign.Lattice.Falcon.Guarded

open Countersign.Guarded

/-- What a caller is told of a malformed polynomial. -/
def malformed (fault : CompressionFault) : Halt :=
  .failure (.protocol (.compression fault))

/-- A word with the number of its lowest bits that are still to be read, and the bytes that have
not been shifted in. -/
structure Register where
  word : UInt32
  unread : UInt32
  bytes : Bytes

namespace Register

/-- Shifts the next byte in. -/
def shiftIn (register : Register) : Except Halt Register :=
  match register.bytes with
  | [] => .error (malformed .truncated)
  | byte :: rest => do
      let word ← shiftLeft32 register.word 8
      return { register with word := word ||| byte.toUInt32, bytes := rest }

/-- Shifts the next byte in if no bit is left of the last. -/
def refill (register : Register) : Except Halt Register :=
  if register.unread = 0 then do
    let register ← register.shiftIn
    return { register with unread := 8 }
  else
    .ok register

/-- Reads one bit. -/
def readBit (register : Register) : Except Halt (Bool × Register) := do
  let register ← register.refill
  let unread ← difference32 register.unread 1
  let bit ← shiftRight32 register.word unread
  return (bit &&& 1 ≠ 0, { register with unread })

/-- Reads the unary part of a magnitude whose low part is known. -/
def readUnary (magnitude : UInt32) (register : Register) : Except Halt (UInt32 × Register) :=
  match register.readBit with
  | .error halt => .error halt
  | .ok (true, register) => .ok (magnitude, register)
  | .ok (false, register) =>
      match _ : sum32 magnitude 128 with
      | .error halt => .error halt
      | .ok larger =>
          if 2047 < larger then .error (malformed .outOfRange) else readUnary larger register
termination_by 2048 - magnitude.toNat
decreasing_by
  rename_i summed small
  have sum : larger.toNat = magnitude.toNat + 128 := toNat_of_sum32 summed
  have bound : larger.toNat ≤ 2047 := Nat.not_lt.mp small
  omega

/-- Reads one coefficient, which has to fit sixteen bits. -/
def readValue (register : Register) : Except Halt (Int × Register) := do
  let register ← register.shiftIn
  let first ← shiftRight32 register.word register.unread
  let negative : Bool := first &&& 0x80 ≠ 0
  let (magnitude, register) ← readUnary (first &&& 0x7F) register
  if negative && magnitude = 0 then
    throw (malformed .negativeZero)
  if 32767 < magnitude then
    throw (malformed .outOfRange)
  let value ← if negative then opposite16 magnitude.toNat else .ok magnitude.toNat
  return (value, register)

/-- Reads a number of coefficients. -/
def readValues : Nat → Register → Except Halt (List Int × Register)
  | 0, register => .ok ([], register)
  | count + 1, register => do
      let (value, register) ← register.readValue
      let (values, register) ← readValues count register
      return (value :: values, register)

/-- Reads a whole polynomial. What is left in the word and all bytes behind it have to be zero. -/
def readAll (body : Bytes) : Except Halt (List Int) := do
  let (values, register) ← readValues degree ⟨0, 0, body⟩
  let bound ← shiftLeft32 1 register.unread
  let mask ← difference32 bound 1
  if register.word &&& mask ≠ 0 then
    throw (malformed .trailingBits)
  if register.bytes.any (· ≠ 0) then
    throw (malformed .padding)
  return values

end Register

/-- A signed coefficient as a field element. -/
def toField (coefficient : Int) : Except Halt UInt32 :=
  if coefficient < 0 then
    difference32 (UInt32.ofNat modulus) (UInt32.ofNat coefficient.natAbs)
  else
    .ok (UInt32.ofNat coefficient.natAbs)

/-- The number in two bytes, most significant first. -/
def readPair (pair : Bytes) : Except Halt UInt32 := do
  let high ← byteAt pair 0
  let low ← byteAt pair 1
  return UInt32.ofNat (Bytes.toNatBE [high, low])

/-- The coefficients of a body: plain in one of the plain length, and compressed in any other. -/
def bodyCoefficients (body : Bytes) : Except Halt (List UInt32) :=
  if body.length = plainLength then
    (Bytes.pieces 2 body).mapM readPair
  else do
    let coefficients ← Register.readAll body
    coefficients.mapM toField

/-- Cuts a signed message in which the signature starts at a place. -/
def compactFrom (start : UInt64) (signedMessage : Bytes) (messageLength : UInt64) :
    Except Halt Bytes := do
  if signedMessage.length ≤ start.toNat then
    throw (.failure (.protocol
      (.signedMessageTooShort signedMessage.length messageLength.toNat)))
  let high ← byteAt signedMessage 0
  let low ← byteAt signedMessage 1
  let declared := Bytes.toNatBE [high, low]
  let signature ← sliceFrom signedMessage start.toNat
  if signature.length ≠ declared then
    throw (.failure (.protocol (.declaredLength declared signature.length)))
  let mark ← byteAt signature 0
  if mark ≠ signatureMark then
    throw (.failure (.protocol (.falconHeader mark)))
  let body ← sliceFrom signature 1
  let coefficients ← bodyCoefficients body
  let words ← Slots.pack 16 coefficients
  let salt ← slice signedMessage 2 headLength
  return salt ++ wordBytes words

/-- Cuts a signed message of a known message length. -/
def compact (signedMessage : Bytes) (messageLength : UInt64) : Except Halt Bytes := do
  let start ← sum64 (UInt64.ofNat headLength) messageLength
  compactFrom start signedMessage messageLength

end Countersign.Lattice.Falcon.Guarded
