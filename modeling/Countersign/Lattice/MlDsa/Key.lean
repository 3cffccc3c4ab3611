import Countersign.Abi
import Countersign.Lattice.Packing

/-!
ML-DSA-44 keys: the ring of polynomials modulo `X²⁵⁶ + 1` with its transform, which halves the
modulus again and again, the polynomials that are drawn from hash functions, the packing of
coefficients, the key pair of a seed, and the public key as the verifying contract reads it. The
contract would otherwise have to draw the matrix and to transform the key on every call.
-/

namespace Countersign.Lattice.MlDsa

/-- The size of the field. -/
def modulus : Nat := 8380417

/-- A primitive root of unity of order 512. -/
def root : Nat := 1753

/-- Coefficients, the constant one first. -/
abbrev Poly := List Nat

def addMod (left right : Nat) : Nat :=
  (left + right) % modulus

def subMod (left right : Nat) : Nat :=
  (left + modulus - right) % modulus

def mulMod (left right : Nat) : Nat :=
  left * right % modulus

namespace Poly

def add (left right : Poly) : Poly :=
  List.zipWith addMod left right

def sub (left right : Poly) : Poly :=
  List.zipWith subMod left right

/-- The product place by place, which multiplies polynomials given by their values. -/
def mul (left right : Poly) : Poly :=
  List.zipWith mulMod left right

def zero : Poly :=
  List.replicate 256 0

end Poly

/-- The lowest `width` bits of a number in reverse order. -/
def reverseBits : Nat → Nat → Nat
  | 0, _ => 0
  | width + 1, value => (value % 2) <<< width + reverseBits width (value / 2)

/-- The root that splits the block with a given number, blocks being numbered as in a binary heap
from one on. -/
def splittingRoot (block : Nat) : Nat :=
  powerMod modulus 9 root (reverseBits 8 block)

/-- The inverse of the splitting root. -/
def inverseSplittingRoot (block : Nat) : Nat :=
  powerMod modulus 9 root (512 - reverseBits 8 block)

/-- Splits a block of `2 ^ depth` coefficients down to single ones. -/
def splitBlock : Nat → Nat → Poly → Poly
  | 0, _, block => block
  | depth + 1, number, block =>
      let low := block.take (1 <<< depth)
      let high := (block.drop (1 <<< depth)).map (mulMod (splittingRoot number))
      splitBlock depth (2 * number) (Poly.add low high) ++
        splitBlock depth (2 * number + 1) (Poly.sub low high)

/-- Joins a block of `2 ^ depth` remainders. -/
def joinBlock : Nat → Nat → Poly → Poly
  | 0, _, block => block
  | depth + 1, number, block =>
      let left := joinBlock depth (2 * number) (block.take (1 <<< depth))
      let right := joinBlock depth (2 * number + 1) (block.drop (1 <<< depth))
      let half := (modulus + 1) / 2
      let unscale := mulMod half (inverseSplittingRoot number)
      (Poly.add left right).map (mulMod half) ++ (Poly.sub left right).map (mulMod unscale)

/-- The values of a polynomial of 256 coefficients. -/
def ntt (poly : Poly) : Poly :=
  splitBlock 8 1 poly

/-- The polynomial with given values. -/
def inverseNtt (values : Poly) : Poly :=
  joinBlock 8 1 values

open Digest

/-- The first `wanted` values that `read` finds in the blocks which a sponge gives out, among
`blocks` many. -/
def collect {α : Type} (sponge : Sponge) (read : Bytes → List α) :
    Nat → Nat → Lanes → List α
  | 0, _, _ => []
  | blocks + 1, wanted, state =>
      let found := (read (sponge.outputBlock state)).take wanted
      if found.length = wanted then
        found
      else
        found ++ collect sponge read blocks (wanted - found.length) (Lanes.permute state)

/-- The bound on the blocks that are read for one polynomial: 256 times the number of states that a
sponge can be in. The states of a sponge recur, so that values which so many blocks do not hold are
in none of the later blocks either. -/
def blockLimit : Nat := 256 <<< 1600

/-- The first 256 values, missing ones as zero. -/
def ofValues (values : List Nat) : Poly :=
  (values ++ Poly.zero).take 256

/-- The value of three bytes, lowest first, without the top bit, if it is in the field. -/
def uniformValue? (b₀ b₁ b₂ : UInt8) : Option Nat :=
  let value := (b₀.toNat + 256 * b₁.toNat + 65536 * b₂.toNat) % (1 <<< 23)
  if value < modulus then some value else none

/-- The accepted values of consecutive groups of three bytes. A block of output holds whole
groups only. -/
def uniformValues : Bytes → List Nat
  | b₀ :: b₁ :: b₂ :: rest => (uniformValue? b₀ b₁ b₂).toList ++ uniformValues rest
  | _ => []

/-- The matrix entry in a given row and column. -/
def sampleUniform (rho : Bytes) (row column : UInt8) : Poly :=
  ofValues (collect shake128 uniformValues blockLimit 256 (shake128.absorb (rho ++ [column, row])))

/-- The four rows of the public matrix, in transformed form. -/
def expandMatrix (rho : Bytes) : List (List Poly) :=
  [0, 1, 2, 3].map fun row => [0, 1, 2, 3].map fun column => sampleUniform rho row column

/-- The coefficient from two down to minus two that half a byte stands for, if it stands for
one. -/
def smallValue? (half : Nat) : Option Nat :=
  if half < 15 then some (subMod 2 (half % 5)) else none

/-- The accepted coefficients of each byte, the low half before the high one. -/
def smallValues (bytes : Bytes) : List Nat :=
  bytes.flatMap fun byte =>
    (smallValue? (byte.toNat % 16)).toList ++ (smallValue? (byte.toNat / 16)).toList

/-- The secret polynomial with a given number. -/
def sampleSmall (seed : Bytes) (number : Nat) : Poly :=
  ofValues
    (collect shake256 smallValues blockLimit 256
      (shake256.absorb (seed ++ Bytes.ofNatLE 2 number)))

/-- The number of coefficients of a challenge that are not zero. -/
def challengeWeight : Nat := 39

/-- Goes through the places from `place` on. Each takes the coefficient of an earlier place or its
own, which is drawn by the next byte that is not above it, and leaves a sign there. -/
def scatter (signs : Nat) (place : Nat) (poly : Poly) : Bytes → Poly
  | [] => poly
  | byte :: rest =>
      if 256 ≤ place then
        poly
      else if byte.toNat ≤ place then
        let sign :=
          if signs.testBit (place + challengeWeight - 256) then modulus - 1 else 1
        let moved := poly.set place (poly.getD byte.toNat 0)
        scatter signs (place + 1) (moved.set byte.toNat sign) rest
      else
        scatter signs place poly rest

/-- The sparse polynomial of a challenge. Two blocks of output hold far more bytes than a
challenge uses. -/
def sampleInBall (challenge : Bytes) : Poly :=
  let output := shake256.hash 272 challenge
  scatter (Bytes.toNatLE (output.take 8)) (256 - challengeWeight) Poly.zero (output.drop 8)

/-- The number with given digits, the lowest first. -/
def ofDigits (base : Nat) : List Nat → Nat
  | [] => 0
  | digit :: rest => digit + base * ofDigits base rest

/-- The lowest `count` digits of a number, the lowest first. -/
def digits (base : Nat) : Nat → Nat → List Nat
  | 0, _ => []
  | count + 1, value => value % base :: digits base count (value / base)

/-- Packs values below `2 ^ width`. -/
def packBits (width : Nat) (values : List Nat) : Bytes :=
  (Bytes.pieces 8 values).flatMap fun group =>
    Bytes.ofNatLE width (ofDigits (1 <<< width) group)

/-- Unpacks values of `width` bits. -/
def unpackBits (width : Nat) (bytes : Bytes) : List Nat :=
  (Bytes.pieces width bytes).flatMap fun group =>
    digits (1 <<< width) 8 (Bytes.toNatLE group)

/-- The number of bytes of `t1` that hold one polynomial. -/
def t1Length : Nat := 320

/-- The polynomials of the second part of a public key, ten bits to a coefficient. -/
def unpackT1 (bytes : Bytes) : List Poly :=
  (Bytes.pieces t1Length bytes).map (unpackBits 10)

/-- The product of a matrix and a vector of transformed polynomials. -/
def applyMatrix (matrix : List (List Poly)) (vector : List Poly) : List Poly :=
  matrix.map fun row => (List.zipWith Poly.mul row vector).foldl Poly.add Poly.zero

/-- A coefficient as a high part and a low part in `(-2¹², 2¹²]`, the low part in the field. -/
def power2Round (coefficient : Nat) : Nat × Nat :=
  let low := coefficient % 8192
  if low ≤ 4096 then (coefficient / 8192, low)
  else (coefficient / 8192 + 1, low + modulus - 8192)

/-- What the holder of a key knows. `t0` is what the public key leaves out of `t`. -/
structure KeyPair where
  rho : Bytes
  secret : Bytes
  publicKey : Bytes
  s1 : List Poly
  s2 : List Poly
  t0 : List Poly

/-- The hash that stands for a public key. -/
def publicKeyHash (publicKey : Bytes) : Bytes :=
  shake256.hash 64 publicKey

/-- The key pair of a seed of thirty-two bytes. -/
def KeyPair.ofSeed (seed : Bytes) : KeyPair :=
  let expanded := shake256.hash 128 (seed ++ [4, 4])
  let rho := expanded.take 32
  let small := (expanded.drop 32).take 64
  let s1 := [0, 1, 2, 3].map (sampleSmall small)
  let s2 := [4, 5, 6, 7].map (sampleSmall small)
  let product := applyMatrix (expandMatrix rho) (s1.map ntt)
  let t := List.zipWith Poly.add (product.map inverseNtt) s2
  let rounded := t.map fun poly => poly.map power2Round
  let t1 := rounded.map fun poly => poly.map Prod.fst
  { rho := rho
    secret := expanded.drop 96
    publicKey := rho ++ t1.flatMap (packBits 10)
    s1 := s1
    s2 := s2
    t0 := rounded.map fun poly => poly.map Prod.snd }

/-- A public key with its matrix drawn, its hash taken, and its vector scaled and transformed. A
polynomial is packed eight coefficients to a word. -/
structure ExpandedKey where
  matrix : List (List (List Word))
  hash : Bytes
  t1 : List (List Word)
deriving DecidableEq

/-- A polynomial with coefficients below `2 ^ 32`, eight to a word. -/
def packPoly (poly : Poly) : Except Error (List Word) :=
  pack 32 (poly.map UInt32.ofNat)

/-- The vector entry that is kept: scaled by `2¹³` and transformed. -/
def scaledNtt (poly : Poly) : Poly :=
  ntt (poly.map fun coefficient => coefficient <<< 13)

namespace ExpandedKey

def ofPublicKey (publicKey : Bytes) : Except Error ExpandedKey := do
  if publicKey.length ≠ Algorithm.mlDsa44.publicKeyLength then
    throw (.publicKey (.latticeLength .mlDsa44 publicKey.length))
  let matrix ← (expandMatrix (publicKey.take 32)).mapM fun row => row.mapM packPoly
  let t1 ← (unpackT1 (publicKey.drop 32)).mapM fun poly => packPoly (scaledNtt poly)
  return ⟨matrix, publicKeyHash publicKey, t1⟩

/-- The three parts as a sequence. -/
def encode (key : ExpandedKey) : Bytes :=
  Abi.sequence
    [Abi.member (.array (.array (.array .word))) key.matrix,
      Abi.member .bytes key.hash,
      Abi.member (.array (.array .word)) key.t1]

/-- Reads the three parts of a sequence. -/
def decode? (data : Bytes) : Option ExpandedKey := do
  let member (kind : Abi.Kind) (place : Nat) : Option kind.Value :=
    Abi.readMember? kind (Abi.read? data kind) data 0 place
  return {
    matrix := ← member (.array (.array (.array .word))) 0
    hash := ← member .bytes 1
    t1 := ← member (.array (.array .word)) 2 }

end ExpandedKey

end Countersign.Lattice.MlDsa
