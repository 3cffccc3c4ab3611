import Countersign.Lattice.MlDsa.Key

/-!
Signatures of ML-DSA-44 over a message with an empty context, without added randomness.
-/

namespace Countersign.Lattice.MlDsa

open Digest

/-- Twice the range of a low part. -/
def lowRange : Nat := 190464

/-- A coefficient as a high part below 44 and a low part centred at zero. -/
def decompose (coefficient : Nat) : Nat × Int :=
  let low := coefficient % lowRange
  let low : Int := if low ≤ lowRange / 2 then low else (low : Int) - lowRange
  let rest := (coefficient : Int) - low
  if rest = (modulus : Int) - 1 then (0, low - 1) else ((rest / lowRange).toNat, low)

def highPart (coefficient : Nat) : Nat :=
  (decompose coefficient).1

def lowPart (coefficient : Nat) : Int :=
  (decompose coefficient).2

/-- The distance of a coefficient from zero around the field. -/
def magnitude (coefficient : Nat) : Nat :=
  min coefficient (modulus - coefficient)

/-- Every coefficient is nearer to zero than a bound. -/
def isBelow (bound : Nat) (vector : List Poly) : Bool :=
  vector.all fun poly => poly.all fun coefficient => magnitude coefficient < bound

/-- The range of a mask's coefficients. -/
def maskRange : Nat := 131072

/-- The masking vector for a counter. -/
def expandMask (seed : Bytes) (counter : Nat) : List Poly :=
  [0, 1, 2, 3].map fun index =>
    (unpackBits 18 (shake256.hash 576 (seed ++ Bytes.ofNatLE 2 (counter + index)))).map
      (subMod maskRange)

/-- The places where adding a correction changes the high part. -/
def hintPlaces (correction vector : Poly) : List Nat :=
  let changed := List.zipWith
    (fun change coefficient =>
      decide (highPart coefficient ≠ highPart (addMod coefficient change)))
    correction vector
  (changed.zipIdx.filter fun entry => entry.1).map Prod.snd

/-- The places of all hints, padded to eighty, and how many there are up to each polynomial. -/
def encodeHints (places : List (List Nat)) : Bytes :=
  let all := places.flatten
  let counts := (places.foldl
    (fun (counts, total) poly => (counts ++ [total + poly.length], total + poly.length))
    (([] : List Nat), 0)).1
  (all ++ List.replicate (80 - all.length) 0 ++ counts).map UInt8.ofNat

/-- The transformed parts of a key that every attempt uses. -/
structure Prepared where
  matrix : List (List Poly)
  s1 : List Poly
  s2 : List Poly
  t0 : List Poly
  message : Bytes
  maskSeed : Bytes

/-- One attempt. It yields a signature unless it would tell something about the key. -/
def attempt (prepared : Prepared) (counter : Nat) : Option Bytes :=
  let mask := expandMask prepared.maskSeed counter
  let w := (applyMatrix prepared.matrix (mask.map ntt)).map inverseNtt
  let high := w.flatMap fun poly => packBits 6 (poly.map highPart)
  let challenge := shake256.hash 32 (prepared.message ++ high)
  let c := ntt (sampleInBall challenge)
  let timesC (vector : List Poly) := vector.map fun poly => inverseNtt (Poly.mul c poly)
  let z := List.zipWith Poly.add mask (timesC prepared.s1)
  let reduced := List.zipWith Poly.sub w (timesC prepared.s2)
  let lowIsSmall := reduced.all fun poly => poly.all fun coefficient =>
    (lowPart coefficient).natAbs < lowRange / 2 - 78
  if !(isBelow (maskRange - 78) z) || !lowIsSmall then
    none
  else
    let correction := timesC prepared.t0
    let places := List.zipWith hintPlaces
      (correction.map fun poly => poly.map (subMod 0)) (List.zipWith Poly.add reduced correction)
    if !(isBelow (lowRange / 2) correction) || 80 < places.flatten.length then
      none
    else
      some (challenge ++ z.flatMap (fun poly => packBits 18 (poly.map (subMod maskRange))) ++
        encodeHints places)

/-- The signature of the first attempt that yields one, among `attempts` many. -/
def attempts (prepared : Prepared) : Nat → Nat → Option Bytes
  | 0, _ => none
  | count + 1, counter =>
      match attempt prepared counter with
      | some signature => some signature
      | none => attempts prepared count (counter + 4)

/-- The number of attempts for which the counter of masks has two bytes. One attempt in four
succeeds, so that they are never used up. -/
def attemptLimit : Nat := 16384

/-- Signs a message. -/
def KeyPair.sign? (key : KeyPair) (message : Bytes) : Option Bytes :=
  let digest := shake256.hash 64 (publicKeyHash key.publicKey ++ 0 :: 0 :: message)
  let prepared : Prepared :=
    { matrix := expandMatrix key.rho
      s1 := key.s1.map ntt
      s2 := key.s2.map ntt
      t0 := key.t0.map ntt
      message := digest
      maskSeed := shake256.hash 64 (key.secret ++ Bytes.zeros 32 ++ digest) }
  attempts prepared attemptLimit 0

end Countersign.Lattice.MlDsa
