import Countersign.Lattice.MlDsa.Key

/-!
A public key expanded in words: the matrix is drawn three bytes at a time, the coefficients of ten
bits are put together from five bytes at a time, and the transform overwrites the words two at a
time, with a table of roots. There is no result if a number does not fit 64 bits or a place is
outside its list. Nothing here is shared with the making of keys but the hash functions and the size
of the field.
-/

namespace Countersign.Lattice.MlDsa.InPlace

def add? (left right : UInt64) : Option UInt64 :=
  if left.toNat + right.toNat < UInt64.size then some (left + right) else none

def sub? (left right : UInt64) : Option UInt64 :=
  if right.toNat ≤ left.toNat then some (left - right) else none

def mul? (left right : UInt64) : Option UInt64 :=
  if left.toNat * right.toNat < UInt64.size then some (left * right) else none

/-- The size of the field as a divisor. -/
def divisor : UInt64 := UInt64.ofNat modulus

/-- A factor times a power of a base, which is squared while the exponent is halved. -/
def powerFrom (exponent : Nat) (base factor : UInt64) : Option UInt64 :=
  if exponent = 0 then
    some factor
  else do
    let factor ←
      if exponent % 2 = 1 then do
        let product ← mul? factor base
        some (product % divisor)
      else
        some factor
    let square ← mul? base base
    powerFrom (exponent / 2) (square % divisor) factor
termination_by exponent
decreasing_by omega

/-- The table of the splitting roots by the numbers of their blocks. -/
def rootTable : Option (List UInt32) :=
  (List.range 256).mapM fun block => do
    let power ← powerFrom (reverseBits 8 block) (UInt64.ofNat root) 1
    some power.toUInt32

/-- Overwrites a word and the one `half` places behind it by their two remainders. -/
def butterfly (half : Nat) (root : UInt32) (words : List UInt32) (place : Nat) :
    Option (List UInt32) := do
  let high ← words[place + half]?
  let product ← mul? root.toUInt64 high.toUInt64
  let scaled := product % divisor
  let low ← words[place]?
  let raised ← add? low.toUInt64 divisor
  let difference ← sub? raised scaled
  let words := words.set (place + half) (difference % divisor).toUInt32
  let sum ← add? low.toUInt64 scaled
  return words.set place (sum % divisor).toUInt32

/-- Overwrites the block that starts at a place and has two halves. -/
def splitAt (half : Nat) (root : UInt32) (start : Nat) (words : List UInt32) :
    Option (List UInt32) :=
  (List.range' start half).foldlM (butterfly half root) words

/-- Overwrites the blocks from a place on. The running number is that of the last root used. -/
def layer (roots : List UInt32) (half start number : Nat) (words : List UInt32) :
    Option (Nat × List UInt32) :=
  if half = 0 ∨ 256 ≤ start then
    some (number, words)
  else do
    let root ← roots[number + 1]?
    let words ← splitAt half root start words
    layer roots half (start + 2 * half) (number + 1) words
termination_by 256 - start
decreasing_by omega

/-- Overwrites all blocks of two halves, and then their halves as blocks. -/
def layers (roots : List UInt32) (half number : Nat) (words : List UInt32) :
    Option (List UInt32) :=
  if half = 0 then
    some words
  else do
    let (number, words) ← layer roots half 0 number words
    layers roots (half / 2) number words
termination_by half
decreasing_by omega

/-- Overwrites the words of a polynomial by its values. -/
def transform (words : List UInt32) : Option (List UInt32) := do
  let roots ← rootTable
  layers roots 128 0 words

end Countersign.Lattice.MlDsa.InPlace

namespace Countersign.Lattice.MlDsa.Expansion

open Digest

/-- The number of three bytes, the lowest first, without its top bit. -/
def candidate (group : Bytes) : UInt32 :=
  UInt32.ofNat (Bytes.toNatLE group) &&& 0x7fffff

/-- Reads at most a number of groups of three bytes, until there are 256 words, and keeps the
candidates that are in the field. -/
def fill : Nat → Reader → List UInt32 → List UInt32
  | 0, _, filled => filled
  | groups + 1, reader, filled =>
      if 256 ≤ filled.length then
        filled
      else
        let (group, reader) := reader.read 3
        let word := candidate group
        fill groups reader (if word < UInt32.ofNat modulus then filled ++ [word] else filled)

/-- The bound on the groups that are read for one polynomial. A block of output has 56. -/
def groupLimit : Nat := 56 * blockLimit

/-- The matrix entry in a given row and column, words that were not drawn as zero. -/
def cell (rho : Bytes) (row column : Nat) : List UInt32 :=
  let message := rho ++ [UInt8.ofNat column, UInt8.ofNat row]
  let filled := fill groupLimit (shake128.reader message) []
  filled ++ List.replicate (256 - filled.length) 0

/-- Four coefficients of ten bits from five bytes. -/
def tenBits : Bytes → List UInt32
  | [b₀, b₁, b₂, b₃, b₄] =>
      [(b₀.toUInt32 ||| (b₁.toUInt32 <<< 8)) &&& 0x3ff,
        ((b₁.toUInt32 >>> 2) ||| (b₂.toUInt32 <<< 6)) &&& 0x3ff,
        ((b₂.toUInt32 >>> 4) ||| (b₃.toUInt32 <<< 4)) &&& 0x3ff,
        ((b₃.toUInt32 >>> 6) ||| (b₄.toUInt32 <<< 2)) &&& 0x3ff]
  | _ => []

/-- The coefficients of a polynomial of the vector. -/
def coefficients (bytes : Bytes) : List UInt32 :=
  (Bytes.pieces 5 bytes).flatMap tenBits

/-- A polynomial of the vector scaled by `2¹³` and transformed, eight words to one. -/
def scaled (words : List UInt32) : Except Halt (List Word) :=
  match InPlace.transform (words.map fun word : UInt32 => word <<< (13 : UInt32)) with
  | some values => (pack 32 values).mapError .failure
  | none => .error .crash

def ofPublicKey (publicKey : Bytes) : Except Halt ExpandedKey := do
  if publicKey.length ≠ Algorithm.mlDsa44.publicKeyLength then
    throw (.failure (.publicKey (.latticeLength .mlDsa44 publicKey.length)))
  let rho := publicKey.take 32
  let matrix ← (List.range 4).mapM fun row =>
    (List.range 4).mapM fun column => (pack 32 (cell rho row column)).mapError .failure
  let t1 ← (Bytes.pieces t1Length (publicKey.drop 32)).mapM fun chunk => scaled (coefficients chunk)
  return ⟨matrix, publicKeyHash publicKey, t1⟩

end Countersign.Lattice.MlDsa.Expansion
