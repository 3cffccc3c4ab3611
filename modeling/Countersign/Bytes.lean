/-!
Byte strings: numbers written in bytes in either order, cutting into pieces, and strings of a
fixed length. Powers, inverses and differences modulo a number are here as well.
-/

namespace Countersign

/-- A byte string. -/
abbrev Bytes := List UInt8

namespace Bytes

/-- The number whose base-256 digits, least significant first, are the bytes. -/
def toNatLE : Bytes → Nat
  | [] => 0
  | byte :: rest => byte.toNat + 256 * toNatLE rest

/-- The lowest `width` base-256 digits of a number, least significant first. -/
def ofNatLE : Nat → Nat → Bytes
  | 0, _ => []
  | width + 1, value => UInt8.ofNat value :: ofNatLE width (value / 256)

/-- The number whose base-256 digits, most significant first, are the bytes. -/
def toNatBE (bytes : Bytes) : Nat :=
  toNatLE bytes.reverse

/-- The lowest `width` base-256 digits of a number, most significant first. -/
def ofNatBE (width value : Nat) : Bytes :=
  (ofNatLE width value).reverse

@[simp] theorem length_ofNatLE (width value : Nat) :
    (ofNatLE width value).length = width := by
  induction width generalizing value with
  | zero => rfl
  | succ width ih => simp [ofNatLE, ih]

@[simp] theorem length_ofNatBE (width value : Nat) :
    (ofNatBE width value).length = width := by
  simp [ofNatBE]

private def piecesUpTo {α : Type} (size : Nat) : Nat → List α → List (List α)
  | 0, _ => []
  | _ + 1, [] => []
  | fuel + 1, item :: rest =>
      (item :: rest).take size :: piecesUpTo size fuel ((item :: rest).drop size)

/-- Cuts a list into consecutive pieces of `size` items, the last one possibly shorter. For a
positive size no piece is empty. -/
def pieces {α : Type} (size : Nat) (items : List α) : List (List α) :=
  piecesUpTo size items.length items

@[simp] theorem pieces_nil {α : Type} (size : Nat) : pieces size ([] : List α) = [] := rfl

private theorem piecesUpTo_enough {α : Type} {size : Nat} (positive : 0 < size) :
    ∀ (fuel : Nat) (items : List α), items.length ≤ fuel →
      piecesUpTo size fuel items = pieces size items
  | 0, [], _ => rfl
  | 0, item :: rest, enough => by
      simp at enough
  | _ + 1, [], _ => rfl
  | fuel + 1, item :: rest, enough => by
      have short : ((item :: rest).drop size).length ≤ rest.length := by
        simp only [List.length_drop, List.length_cons]
        omega
      have fewer : rest.length < fuel + 1 := by
        simp only [List.length_cons] at enough
        omega
      have within : ((item :: rest).drop size).length ≤ fuel := by omega
      rw [pieces, List.length_cons, piecesUpTo, piecesUpTo,
        piecesUpTo_enough positive fuel _ within,
        piecesUpTo_enough positive rest.length _ short]

/-- The first piece, and the pieces of what follows it. -/
theorem pieces_of_ne_nil {α : Type} {size : Nat} (positive : 0 < size) {items : List α}
    (nonempty : items ≠ []) :
    pieces size items = items.take size :: pieces size (items.drop size) := by
  cases items with
  | nil => exact absurd rfl nonempty
  | cons item rest =>
      have short : ((item :: rest).drop size).length ≤ rest.length := by
        simp only [List.length_drop, List.length_cons]
        omega
      rw [pieces, List.length_cons, piecesUpTo, piecesUpTo_enough positive rest.length _ short]

/-- A run of zero bytes. -/
def zeros (count : Nat) : Bytes :=
  List.replicate count 0

/-- The zero bytes that complete a length to a multiple of 32. -/
def wordPadding (length : Nat) : Bytes :=
  zeros ((32 - length % 32) % 32)

end Bytes

/-- A byte string of exactly `n` bytes. -/
structure Octets (n : Nat) where
  bytes : Bytes
  length_bytes : bytes.length = n
deriving DecidableEq

/-- The name of a contract or an account: twenty bytes. -/
abbrev Address := Octets 20

/-- A digest of thirty-two bytes. -/
abbrev Hash := Octets 32

/-- An integer of the chain's machine. -/
abbrev Word := BitVec 256

namespace Octets

/-- The bytes as a string of the wanted length, if they have it. -/
def ofBytes? (n : Nat) (bytes : Bytes) : Option (Octets n) :=
  if length_eq : bytes.length = n then some ⟨bytes, length_eq⟩ else none

/-- The lowest `n` bytes of a number, most significant first. -/
def ofNat (n value : Nat) : Octets n :=
  ⟨Bytes.ofNatBE n value, Bytes.length_ofNatBE n value⟩

/-- The number that the bytes denote, most significant first. -/
def toNat {n : Nat} (octets : Octets n) : Nat :=
  Bytes.toNatBE octets.bytes

/-- Every byte zero. -/
def zero (n : Nat) : Octets n :=
  ⟨Bytes.zeros n, List.length_replicate⟩

/-- The first `n` bytes, completed with zero bytes. -/
def take (n : Nat) (bytes : Bytes) : Octets n :=
  ⟨(bytes ++ Bytes.zeros n).take n, by simp [Bytes.zeros]⟩

theorem ext {n : Nat} {left right : Octets n} (h : left.bytes = right.bytes) :
    left = right := by
  cases left
  cases right
  cases h
  rfl

end Octets

/-- The power of a base modulo a number, for exponents of at most `bits` bits. -/
def powerMod (modulus : Nat) : Nat → Nat → Nat → Nat
  | 0, _, _ => 1 % modulus
  | bits + 1, base, exponent =>
      let rest := powerMod modulus bits (base * base % modulus) (exponent / 2)
      if exponent % 2 = 1 then base * rest % modulus else rest

/-- The inverse modulo a prime below `2 ^ 256`, which is the power to the prime less two. -/
def inverseMod (prime value : Nat) : Nat :=
  powerMod prime 256 value (prime - 2)

/-- The difference modulo a number, for a subtrahend that is not above it. -/
def subtractMod (modulus left right : Nat) : Nat :=
  (left + modulus - right) % modulus

end Countersign
