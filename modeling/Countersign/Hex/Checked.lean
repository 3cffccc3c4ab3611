import Countersign.Task

/-!
Hexadecimal text for values of a known length, among them the thirty-two secret bytes that software
keys grow from.
-/

namespace Countersign.Hex

/-- The bytes that a text denotes, of the expected length if one is given. -/
def read (text : String) (expected : Option Nat) : Except Error Bytes :=
  match decode text with
  | .error fault => .error (.hexDecode fault)
  | .ok bytes =>
      match expected with
      | none => .ok bytes
      | some length =>
          if bytes.length = length then .ok bytes else .error (.length length bytes.length)

/-- The `n` bytes that a text denotes. -/
def readOctets (n : Nat) (text : String) : Except Error (Octets n) :=
  match decode text with
  | .error fault => .error (.hexDecode fault)
  | .ok bytes =>
      if length_eq : bytes.length = n then .ok ⟨bytes, length_eq⟩
      else .error (.length n bytes.length)

/-- The array of `n` bytes that a text denotes. -/
def readArray (n : Nat) (text : String) : Except Halt (Octets n) := do
  let bytes ← (read text (some n)).mapError Halt.failure
  Guarded.overwrite n bytes

end Countersign.Hex

namespace Countersign

/-- A secret of thirty-two bytes. -/
structure Seed where
  octets : Octets 32
deriving DecidableEq

namespace Seed

def bytes (seed : Seed) : Bytes :=
  seed.octets.bytes

def ofBytes (bytes : Bytes) : Except Error Seed :=
  match Octets.ofBytes? 32 bytes with
  | some octets => .ok ⟨octets⟩
  | none => .error (.length 32 bytes.length)

def ofHex (text : String) : Except Error Seed :=
  (Hex.readOctets 32 text).map Seed.mk

/-- Names the seed by its first two bytes and shows no more of it. -/
def summary (seed : Seed) : String :=
  "Seed(" ++ Hex.text (seed.bytes.take 2) ++ "..)"

end Seed

end Countersign
