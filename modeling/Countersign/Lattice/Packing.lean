import Countersign.Task

/-!
Coefficients packed into 256-bit words, the lowest bits first, and words written in bytes; and the
same slot by slot, where the word of a coefficient and the distance of its slot from the low end are
computed from its number. There is no result if a place is outside its list or a word is shifted too
far.
-/

namespace Countersign.Lattice

/-- How many coefficients of a given width fill a word. Only widths up to 32 that divide 256 are
packed. -/
def coefficientsPerWord (width : Nat) : Except Error Nat :=
  if width = 0 ∨ 32 < width ∨ 256 % width ≠ 0 then
    .error (.validation (.coefficientWidth width))
  else
    .ok (256 / width)

/-- The first coefficient that needs more than `width` bits, with its index. -/
def firstTooWide (width index : Nat) : List UInt32 → Option (Nat × Nat)
  | [] => none
  | coefficient :: rest =>
      if 1 <<< width ≤ coefficient.toNat then some (coefficient.toNat, index)
      else firstTooWide width (index + 1) rest

/-- The word whose digits of `width` bits, lowest first, are the coefficients. -/
def packWord (width : Nat) (coefficients : List UInt32) : Word :=
  coefficients.foldr
    (fun coefficient word => (word <<< width) ||| BitVec.ofNat 256 coefficient.toNat) 0

/-- Packs coefficients of `width` bits. They have to fill whole words, and each has to fit. -/
def pack (width : Nat) (coefficients : List UInt32) : Except Error (List Word) := do
  let perWord ← coefficientsPerWord width
  if coefficients.length % perWord ≠ 0 then
    throw (.validation (.coefficientCount coefficients.length width))
  match firstTooWide width 0 coefficients with
  | some (coefficient, index) =>
      throw (.validation (.coefficientRange coefficient index width))
  | none => return (Bytes.pieces perWord coefficients).map (packWord width)

/-- The lowest `count` digits of `width` bits of a word. -/
def unpackWord (width count : Nat) (word : Word) : List UInt32 :=
  (List.range count).map fun slot =>
    UInt32.ofNat ((word >>> (slot * width)).toNat % (1 <<< width))

/-- Unpacks words into coefficients of `width` bits. -/
def unpack (width : Nat) (words : List Word) : Except Error (List UInt32) := do
  let perWord ← coefficientsPerWord width
  return words.flatMap (unpackWord width perWord)

/-- Each word in thirty-two bytes, the lowest first. -/
def wordBytes (words : List Word) : Bytes :=
  words.flatMap fun word => Bytes.ofNatLE 32 word.toNat

end Countersign.Lattice

namespace Countersign.Lattice.Slots

/-- A word of 32 bits is shifted by fewer than 32 places. -/
def shiftRight? (word : UInt32) (places : Nat) : Option UInt32 :=
  if places < 32 then some (word >>> UInt32.ofNat places) else none

/-- Whether something is left of a coefficient when `width` bits are shifted out. Nothing can be
left of it if that is all of them, in which case nothing is shifted. -/
def exceeds? (width : Nat) (coefficient : UInt32) : Option Bool :=
  if width < 32 then (shiftRight? coefficient width).map fun left => left ≠ 0 else some false

/-- Joins a coefficient to the word that it belongs to. -/
def put (width perWord : Nat) (words : List Word) (index : Nat) (coefficient : UInt32) :
    Option (List Word) := do
  let word ← words[index * width / 256]?
  let slot := BitVec.ofNat 256 coefficient.toNat <<< (index % perWord * width)
  return words.set (index * width / 256) (word ||| slot)

/-- Puts the coefficients from a number on into their slots. -/
def putFrom (width perWord : Nat) : Nat → List UInt32 → List Word → Except Halt (List Word)
  | _, [], words => .ok words
  | index, coefficient :: rest, words =>
      match exceeds? width coefficient with
      | none => .error .crash
      | some true =>
          .error (.failure (.validation (.coefficientRange coefficient.toNat index width)))
      | some false =>
          match put width perWord words index coefficient with
          | none => .error .crash
          | some words => putFrom width perWord (index + 1) rest words

/-- Packs coefficients of `width` bits into words that are zero at first. -/
def pack (width : Nat) (coefficients : List UInt32) : Except Halt (List Word) := do
  let perWord ← (coefficientsPerWord width).mapError .failure
  if coefficients.length % perWord ≠ 0 then
    throw (.failure (.validation (.coefficientCount coefficients.length width)))
  putFrom width perWord 0 coefficients (List.replicate (coefficients.length / perWord) 0)

/-- What a slot holds, which has to fit 32 bits. -/
def read (width : Nat) (word : Word) (slot : Nat) : Except Halt UInt32 :=
  let mask := ((1 : Word) <<< width) - 1
  let value := (word >>> (slot * width)) &&& mask
  if value.toNat < UInt32.size then .ok (UInt32.ofNat value.toNat) else .error .crash

/-- Unpacks words slot by slot. -/
def unpack (width : Nat) (words : List Word) : Except Halt (List UInt32) := do
  let perWord ← (coefficientsPerWord width).mapError .failure
  let slots ← words.mapM fun word => (List.range perWord).mapM (read width word)
  return slots.flatten

end Countersign.Lattice.Slots
