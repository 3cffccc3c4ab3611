import Countersign.Digest.Sha256

/-!
Digital signatures on the curve `y² = x³ + 7` over the prime field of secp256k1, with a recovery
number: signing, with a nonce drawn from a keyed hash of the secret key and the signed digest, and
finding the key that a signature belongs to.
-/

namespace Countersign.Curve

/-- The size of the field. -/
def prime : Nat := 0xFFFFFFFFFFFFFFFFFFFFFFFFFFFFFFFFFFFFFFFFFFFFFFFFFFFFFFFEFFFFFC2F

/-- The number of points on the curve, a prime. -/
def order : Nat := 0xFFFFFFFFFFFFFFFFFFFFFFFFFFFFFFFEBAAEDCE6AF48A03BBFD25E8CD0364141

/-- A point: the neutral one, or a pair of coordinates below `prime`. -/
inductive Point
  | infinity
  | affine (x y : Nat)
deriving DecidableEq

namespace Point

def generator : Point :=
  affine 0x79BE667EF9DCBBAC55A06295CE870B07029BFCDB2DCE28D959F2815B16F81798
    0x483ADA7726A3C4655DA4FBFC0E1108A8FD17B448A68554199C47D08FFB10D4B8

/-- The negated third point on the line of a given slope through the first point. -/
def alongLine (slope x₁ y₁ x₂ : Nat) : Point :=
  let x₃ := subtractMod prime (subtractMod prime (slope * slope % prime) x₁) x₂
  affine x₃ (subtractMod prime (slope * subtractMod prime x₁ x₃ % prime) y₁)

def add : Point → Point → Point
  | infinity, right => right
  | left, infinity => left
  | affine x₁ y₁, affine x₂ y₂ =>
      if x₁ = x₂ then
        if (y₁ + y₂) % prime = 0 then
          infinity
        else
          alongLine (3 * x₁ * x₁ * inverseMod prime (2 * y₁ % prime) % prime) x₁ y₁ x₂
      else
        alongLine
          (subtractMod prime y₂ y₁ * inverseMod prime (subtractMod prime x₂ x₁) % prime) x₁ y₁ x₂

/-- The multiple of a point by the lowest bits of a factor. -/
def scaleBits : Nat → Nat → Point → Point
  | 0, _, _ => infinity
  | bits + 1, factor, point =>
      let rest := scaleBits bits (factor / 2) (add point point)
      if factor % 2 = 1 then add point rest else rest

/-- The multiple of a point by a factor below `2 ^ 256`. -/
def scale (factor : Nat) (point : Point) : Point :=
  scaleBits 256 factor point

/-- The point with a given abscissa whose ordinate is odd or even as wanted. -/
def lift? (x : Nat) (odd : Bool) : Option Point :=
  let square := (x * x * x + 7) % prime
  let root := powerMod prime 256 square ((prime + 1) / 4)
  if root * root % prime = square then
    some (affine x (if (root % 2 = 1) = odd then root else subtractMod prime 0 root))
  else
    none

/-- The sixty-five bytes of a point: a mark and both coordinates. The neutral point has none. -/
def toBytes : Point → Bytes
  | infinity => []
  | affine x y => 0x04 :: Bytes.ofNatBE 32 x ++ Bytes.ofNatBE 32 y

end Point

/-- The two values that the generator keeps. -/
structure NonceState where
  key : Bytes
  value : Bytes

namespace NonceState

/-- Replaces the key by a hash of the value, a mark and some input, and renews the value. -/
def stir (state : NonceState) (mark : UInt8) (input : Bytes) : NonceState :=
  let key := Digest.hmacSha256 state.key (state.value ++ mark :: input)
  ⟨key, Digest.hmacSha256 key state.value⟩

def start (secret digest : Bytes) : NonceState :=
  let blank : NonceState := ⟨Bytes.zeros 32, List.replicate 32 1⟩
  (blank.stir 0x00 (secret ++ digest)).stir 0x01 (secret ++ digest)

/-- The first drawn value that is a scalar, among `attempts` many. -/
def draw : Nat → NonceState → Option Nat
  | 0, _ => none
  | attempts + 1, state =>
      let value := Digest.hmacSha256 state.key state.value
      let candidate := Bytes.toNatBE value
      if 0 < candidate ∧ candidate < order then
        some candidate
      else
        draw attempts (NonceState.stir ⟨state.key, value⟩ 0x00 [])

end NonceState

/-- The nonce for a digest. The draws are bounded by the number of states that the generator can
be in: what so many draws do not yield is not drawn later either. -/
def nonce? (secret digest : Bytes) : Option Nat :=
  (NonceState.start secret digest).draw (1 <<< 512)

/-- A number is a usable scalar. -/
def isScalar (value : Nat) : Bool :=
  0 < value && value < order

/-- The scalar lies in the upper half of its range. -/
def isHigh (value : Nat) : Bool :=
  order / 2 < value

/-- The two scalars of a signature, and the recovery number: whether the nonce point's ordinate is
odd, and two more if its abscissa was reduced. -/
structure Scalars where
  r : Nat
  s : Nat
  recovery : Nat

namespace Scalars

/-- The other signature over the same digest by the same key: the second scalar negated, which
negates the nonce point. -/
def negated (scalars : Scalars) : Scalars :=
  ⟨scalars.r, order - scalars.s, scalars.recovery ^^^ 1⟩

/-- Of the two signatures, the one whose second scalar is low. -/
def lowered (scalars : Scalars) : Scalars :=
  if isHigh scalars.s then scalars.negated else scalars

/-- Signs a digest with a given nonce. It fails only if one of the scalars is zero. -/
def sign? (key digest nonce : Nat) : Option Scalars :=
  match Point.scale nonce Point.generator with
  | .infinity => none
  | .affine x y =>
      let r := x % order
      let s := inverseMod order nonce * ((digest + r * key) % order) % order
      if r = 0 ∨ s = 0 then
        none
      else
        some (lowered ⟨r, s, y % 2 + if order ≤ x then 2 else 0⟩)

end Scalars

/-- The only key that may have signed: lifts `r` to the nonce point `R` of the given parity and
solves the signature equation for the key, `r⁻¹ (s R - z G)`. It fails if there is no such point
or the key would be the neutral point. -/
def recover? (digest r s : Nat) (odd : Bool) : Option Point :=
  match Point.lift? r odd with
  | none => none
  | some point =>
      let inverse := inverseMod order r
      let base := subtractMod order 0 (inverse * digest % order)
      let key :=
        (Point.scale base Point.generator).add (Point.scale (inverse * s % order) point)
      match key with
      | .infinity => none
      | .affine x y => some (.affine x y)

end Countersign.Curve
