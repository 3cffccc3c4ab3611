import Countersign.Curve.Ecdsa
import Countersign.Proofs.Bytes
import Mathlib.Algebra.Module.ZMod
import Mathlib.AlgebraicGeometry.EllipticCurve.Affine.Point
import Mathlib.Data.List.Prime
import Mathlib.FieldTheory.Finite.Basic
import Mathlib.GroupTheory.Perm.Cycle.Type
import Mathlib.NumberTheory.LucasPrimality
import Mathlib.Tactic.NormNum.Prime

/-!
The points with their operations are the group of the curve, which has as many elements as its name
says, a prime. Primes are shown by ladders: each step tells a number, a primitive root of it and the
factors of its predecessor. The generator has the order of the group, and an abscissa belongs to two
points at most, so that there is room for one or two such multiples; an even number is impossible
because no point has the ordinate zero.
-/

namespace Countersign.Primality

/-- A number, a primitive root of it, and the prime factors of the number less one. -/
structure Step where
  value : Nat
  root : Nat
  factors : List Nat

/-- The root has the order `value - 1`, provided that the factors are primes. -/
def Step.passes (step : Step) : Bool :=
  1 < step.value && step.value ≤ 2 ^ 256 && step.factors.prod == step.value - 1 &&
    powerMod step.value 256 step.root (step.value - 1) == 1 &&
      step.factors.all fun factor =>
        powerMod step.value 256 step.root ((step.value - 1) / factor) != 1

/-- Every step passes and rests on what is known before it. -/
def climbs : List Nat → List Step → Bool
  | _, [] => true
  | known, step :: above =>
      step.factors.all (known.contains ·) && step.passes && climbs (step.value :: known) above

theorem natCast_pow_eq_one_iff {modulus : Nat} (large : 1 < modulus) (base exponent : Nat) :
    (base : ZMod modulus) ^ exponent = 1 ↔ base ^ exponent % modulus = 1 := by
  rw [← Nat.cast_pow, ← Nat.cast_one, ZMod.natCast_eq_natCast_iff', Nat.mod_eq_of_lt large]

theorem Step.prime_of_passes {step : Step} (primes : ∀ factor ∈ step.factors, factor.Prime)
    (passes : step.passes = true) : step.value.Prime := by
  simp only [Step.passes, Bool.and_eq_true, decide_eq_true_eq, beq_iff_eq, List.all_eq_true,
    bne_iff_ne, ne_eq] at passes
  obtain ⟨⟨⟨⟨large, bounded⟩, product⟩, whole⟩, parts⟩ := passes
  have fits : ∀ exponent ≤ step.value - 1, exponent < 2 ^ 256 := by
    intro exponent below
    omega
  refine lucas_primality step.value (step.root : ZMod step.value) ?_ ?_
  · rw [natCast_pow_eq_one_iff large, ← powerMod_eq _ _ (fits _ (Nat.le_refl _))]
    exact whole
  · intro factor factorPrime divides
    rw [← product] at divides
    have member : factor ∈ step.factors :=
      mem_list_primes_of_dvd_prod factorPrime.prime (fun other among => (primes other among).prime)
        divides
    rw [Ne, natCast_pow_eq_one_iff large, ← powerMod_eq _ _ (fits _ (Nat.div_le_self _ _))]
    exact parts factor member

/-- Every number on the ladder is prime. -/
theorem prime_of_climbs {known : List Nat} {steps : List Step}
    (primes : ∀ value ∈ known, value.Prime) (passes : climbs known steps = true) :
    ∀ value ∈ steps.map Step.value, value.Prime := by
  induction steps generalizing known with
  | nil =>
      intro value member
      cases member
  | cons step above inductionHypothesis =>
      simp only [climbs, Bool.and_eq_true, List.all_eq_true, List.contains_iff_mem] at passes
      obtain ⟨⟨rests, here⟩, further⟩ := passes
      have prime := step.prime_of_passes (fun factor member => primes factor (rests factor member))
        here
      have extended : ∀ value ∈ step.value :: known, value.Prime := by
        rintro value (_ | ⟨_, earlier⟩)
        · exact prime
        · exact primes value earlier
      rintro value (_ | ⟨_, later⟩)
      · exact prime
      · exact inductionHypothesis extended further value later

end Countersign.Primality

namespace Countersign.Curve

open Primality

private def primeLadder : List Step :=
  [⟨13331831, 13, [2, 5, 971, 1373]⟩,
    ⟨173378833005251801, 6, [2, 2, 2, 5, 5, 2621, 24809, 13331831]⟩,
    ⟨22149492674086928081353, 5, [2, 2, 2, 3, 5323, 173378833005251801]⟩,
    ⟨132896956044521568488119, 6, [2, 3, 22149492674086928081353]⟩,
    ⟨107590001, 3, [2, 2, 2, 2, 5, 5, 5, 5, 7, 29, 53]⟩,
    ⟨255515944373312847190720520512484175977, 3,
      [2, 2, 2, 7, 7, 11, 1627, 2657, 4423, 41201, 96557, 7240687, 107590001]⟩,
    ⟨205115282021455665897114700593932402728804164701536103180137503955397371, 10,
      [2, 3, 5, 29, 29, 31, 7723, 132896956044521568488119,
        255515944373312847190720520512484175977]⟩,
    ⟨prime, 3,
      [2, 3, 7, 13441, 205115282021455665897114700593932402728804164701536103180137503955397371]⟩]

private def primeGround : List Nat :=
  [2, 3, 5, 7, 11, 29, 31, 53, 971, 1373, 1627, 2621, 2657, 4423, 5323, 7723, 13441, 24809, 41201,
    96557, 7240687]

theorem prime_prime : prime.Prime := by
  have ground : ∀ value ∈ primeGround, value.Prime := by
    simp only [primeGround, List.forall_mem_cons]
    norm_num
  have climbing : climbs primeGround primeLadder = true := by
    decide +kernel
  exact prime_of_climbs ground climbing prime (by simp [primeLadder])

private def orderLadder : List Step :=
  [⟨107361793816595537, 3, [2, 2, 2, 2, 16699, 85831, 4681609]⟩,
    ⟨44706919, 6, [2, 3, 797, 9349]⟩,
    ⟨174723607534414371449, 3, [2, 2, 2, 17, 59, 4051, 120233, 44706919]⟩,
    ⟨545358713, 5, [2, 2, 2, 41, 59, 28181]⟩,
    ⟨297159362677, 2, [2, 2, 3, 3, 11, 461, 1627771]⟩,
    ⟨29047611873442575647497758179, 2, [2, 293, 305873, 545358713, 297159362677]⟩,
    ⟨341948486974166000522343609283189, 2,
      [2, 2, 3, 3, 3, 109, 29047611873442575647497758179]⟩,
    ⟨order, 7,
      [2, 2, 2, 2, 2, 2, 3, 149, 631, 107361793816595537, 174723607534414371449,
        341948486974166000522343609283189]⟩]

private def orderGround : List Nat :=
  [2, 3, 11, 17, 41, 59, 109, 149, 293, 461, 631, 797, 4051, 9349, 16699, 28181, 85831, 120233,
    305873, 1627771, 4681609]

theorem prime_order : order.Prime := by
  have ground : ∀ value ∈ orderGround, value.Prime := by
    simp only [orderGround, List.forall_mem_cons]
    norm_num
  have climbing : climbs orderGround orderLadder = true := by
    decide +kernel
  exact prime_of_climbs ground climbing order (by simp [orderLadder])

end Countersign.Curve

namespace Countersign

/-- The power of a base modulo a number, by the base-16 digits of the exponent. -/
def windowedPower (modulus base : Nat) : Nat → Nat → Nat
  | 0, _ => 1 % modulus
  | windows + 1, exponent =>
      windowedPower modulus base windows (exponent / 16) ^ 16 * base ^ (exponent % 16) % modulus

theorem windowedPower_eq (modulus base : Nat) {windows exponent : Nat}
    (fits : exponent < 16 ^ windows) :
    windowedPower modulus base windows exponent = base ^ exponent % modulus := by
  induction windows generalizing exponent with
  | zero =>
      have zero : exponent = 0 := by
        simpa using fits
      rw [zero, windowedPower, Nat.pow_zero]
  | succ windows inductionHypothesis =>
      have high : exponent / 16 < 16 ^ windows := by
        rw [Nat.pow_succ] at fits
        omega
      have split : exponent / 16 * 16 + exponent % 16 = exponent := Nat.div_add_mod' exponent 16
      rw [windowedPower, inductionHypothesis high, Nat.mul_mod, ← Nat.pow_mod, ← Nat.mul_mod,
        ← Nat.pow_mul, ← Nat.pow_add, split]

namespace Curve

/-- The inverse of a coordinate, by windows. -/
def windowedInverse (value : Nat) : Nat :=
  windowedPower prime value 64 (prime - 2)

theorem windowedInverse_eq : windowedInverse = inverseMod prime := by
  funext value
  rw [windowedInverse, inverseMod, windowedPower_eq _ _ (by decide), powerMod_eq _ _ (by decide)]

namespace Point

/-- The sum of two points by a given way to invert. -/
def addWith (inverse : Nat → Nat) : Point → Point → Point
  | infinity, right => right
  | left, infinity => left
  | affine x₁ y₁, affine x₂ y₂ =>
      if x₁ = x₂ then
        if (y₁ + y₂) % prime = 0 then
          infinity
        else
          alongLine (3 * x₁ * x₁ * inverse (2 * y₁ % prime) % prime) x₁ y₁ x₂
      else
        alongLine
          (subtractMod prime y₂ y₁ * inverse (subtractMod prime x₂ x₁) % prime) x₁ y₁ x₂

theorem addWith_inverseMod (left right : Point) :
    addWith (inverseMod prime) left right = add left right := by
  cases left <;> cases right <;> rfl

/-- The multiple of a point by a given way to invert. -/
def scaleWith (inverse : Nat → Nat) : Nat → Nat → Point → Point
  | 0, _, _ => infinity
  | bits + 1, factor, point =>
      let rest := scaleWith inverse bits (factor / 2) (addWith inverse point point)
      if factor % 2 = 1 then addWith inverse point rest else rest

theorem scaleWith_inverseMod (bits factor : Nat) (point : Point) :
    scaleWith (inverseMod prime) bits factor point = scaleBits bits factor point := by
  induction bits generalizing factor point with
  | zero => rfl
  | succ bits inductionHypothesis =>
      simp only [scaleWith, scaleBits, addWith_inverseMod, inductionHypothesis]

theorem scale_eq_windowed (factor : Nat) (point : Point) :
    scale factor point = scaleWith windowedInverse 256 factor point := by
  rw [windowedInverse_eq, scaleWith_inverseMod, scale]

end Point

end Curve

section Residues

variable {modulus : Nat}

theorem natCast_subtractMod {left right : Nat} (reduced : right ≤ modulus) :
    (subtractMod modulus left right : ZMod modulus) = left - right := by
  rw [subtractMod, ZMod.natCast_mod, Nat.cast_sub (by omega), Nat.cast_add, ZMod.natCast_self,
    add_zero]

theorem subtractMod_lt (positive : 0 < modulus) (left right : Nat) :
    subtractMod modulus left right < modulus :=
  Nat.mod_lt _ positive

theorem natCast_inverseMod [Fact modulus.Prime] (odd : 2 < modulus) (fits : modulus ≤ 2 ^ 256)
    (value : Nat) :
    (inverseMod modulus value : ZMod modulus) = (value : ZMod modulus)⁻¹ := by
  have exponent : modulus - 2 < 2 ^ 256 := by omega
  rw [inverseMod, powerMod_eq _ _ exponent, ZMod.natCast_mod, Nat.cast_pow]
  rcases eq_or_ne (value : ZMod modulus) 0 with zero | nonzero
  · rw [zero, inv_zero, zero_pow (by omega)]
  · have whole := ZMod.pow_card_sub_one_eq_one nonzero
    have split : modulus - 1 = modulus - 2 + 1 := by omega
    rw [split, pow_succ] at whole
    exact eq_inv_of_mul_eq_one_left whole

/-- A reduced number is the residue that it stands for. -/
theorem eq_val_of_natCast {value : Nat} {residue : ZMod modulus} (reduced : value < modulus)
    (same : (value : ZMod modulus) = residue) : value = residue.val := by
  rw [← same, ZMod.val_natCast_of_lt reduced]

end Residues

namespace Curve

instance : Fact prime.Prime :=
  ⟨prime_prime⟩

instance : Fact order.Prime :=
  ⟨prime_order⟩

/-- The coordinates of points. -/
abbrev Coordinate :=
  ZMod prime

/-- The curve `y² = x³ + 7`. -/
def curve : WeierstrassCurve.Affine Coordinate :=
  { a₁ := 0, a₂ := 0, a₃ := 0, a₄ := 0, a₆ := 7 }

/-- The points of the curve, which are a group. -/
abbrev Group :=
  curve.Point

theorem natCast_coordinate_ne_zero {value : Nat} (positive : 0 < value) (small : value < prime) :
    (value : Coordinate) ≠ 0 := by
  rw [Ne, ZMod.natCast_eq_zero_iff]
  exact Nat.not_dvd_of_pos_of_lt positive small

theorem discriminant_ne_zero : curve.Δ ≠ 0 := by
  have value : curve.Δ = -((21168 : Nat) : Coordinate) := by
    simp [WeierstrassCurve.Δ, WeierstrassCurve.b₂, WeierstrassCurve.b₄, WeierstrassCurve.b₆,
      WeierstrassCurve.b₈, curve]
    norm_num
  rw [value, neg_ne_zero]
  exact natCast_coordinate_ne_zero (by decide) (by decide)

theorem equation_iff (x y : Coordinate) : curve.Equation x y ↔ y ^ 2 = x ^ 3 + 7 := by
  simp [WeierstrassCurve.Affine.equation_iff, curve]

theorem nonsingular_iff (x y : Coordinate) : curve.Nonsingular x y ↔ y ^ 2 = x ^ 3 + 7 := by
  rw [← curve.equation_iff_nonsingular_of_Δ_ne_zero discriminant_ne_zero, equation_iff]

@[simp]
theorem negY_eq (x y : Coordinate) : curve.negY x y = -y := by
  simp [WeierstrassCurve.Affine.negY, curve]

theorem addX_eq (x₁ x₂ slope : Coordinate) :
    curve.addX x₁ x₂ slope = slope * slope - x₁ - x₂ := by
  simp [WeierstrassCurve.Affine.addX, curve, pow_two]

theorem addY_eq (x₁ x₂ y₁ slope : Coordinate) :
    curve.addY x₁ x₂ y₁ slope = slope * (x₁ - curve.addX x₁ x₂ slope) - y₁ := by
  rw [WeierstrassCurve.Affine.addY, WeierstrassCurve.Affine.negAddY, negY_eq]
  ring

theorem slope_of_tangent {x y y' : Coordinate} (differ : y ≠ -y') :
    curve.slope x x y y' = 3 * x * x * (2 * y)⁻¹ := by
  rw [curve.slope_of_Y_ne rfl (by rwa [negY_eq]), negY_eq]
  simp only [curve]
  ring

theorem slope_of_chord {x₁ x₂ : Coordinate} (differ : x₁ ≠ x₂) (y₁ y₂ : Coordinate) :
    curve.slope x₁ x₂ y₁ y₂ = (y₂ - y₁) * (x₂ - x₁)⁻¹ := by
  rw [curve.slope_of_X_ne differ, ← div_eq_mul_inv, ← neg_sub y₁ y₂, ← neg_sub x₁ x₂,
    neg_div_neg_eq]

namespace Group

/-- A point of the group with its coordinates as numbers. -/
def encode : Group → Point
  | .zero => .infinity
  | .some x y _ => .affine x.val y.val

@[simp]
theorem encode_zero : encode 0 = .infinity :=
  rfl

@[simp]
theorem encode_some {x y : Coordinate} (on : curve.Nonsingular x y) :
    encode (.some x y on) = .affine x.val y.val :=
  rfl

theorem encode_injective : Function.Injective encode := by
  intro left right same
  rcases left with _ | ⟨x, y, on⟩ <;> rcases right with _ | ⟨x', y', on'⟩
  · rfl
  · cases same
  · cases same
  · obtain ⟨sameX, sameY⟩ := Point.affine.inj same
    cases ZMod.val_injective prime sameX
    cases ZMod.val_injective prime sameY
    rfl

end Group

/-! ## Calculation with numbers -/

theorem prime_pos : 0 < prime := by
  decide

theorem val_le_prime (x : Coordinate) : x.val ≤ prime :=
  x.val_lt.le

theorem val_eq_iff {x x' : Coordinate} : x.val = x'.val ↔ x = x' :=
  (ZMod.val_injective prime).eq_iff

theorem add_val_mod_eq_zero_iff {y y' : Coordinate} :
    (y.val + y'.val) % prime = 0 ↔ y = -y' := by
  rw [← Nat.dvd_iff_mod_eq_zero, ← ZMod.natCast_eq_zero_iff, Nat.cast_add, ZMod.natCast_zmod_val,
    ZMod.natCast_zmod_val, eq_neg_iff_add_eq_zero]

theorem subtractMod_val (x x' : Coordinate) :
    (subtractMod prime x.val x'.val : Coordinate) = x - x' := by
  rw [natCast_subtractMod (val_le_prime x'), ZMod.natCast_zmod_val, ZMod.natCast_zmod_val]

theorem natCast_inverse (value : Nat) :
    (inverseMod prime value : Coordinate) = (value : Coordinate)⁻¹ :=
  natCast_inverseMod (by decide) (by decide) value

theorem Point.alongLine_eq {number : Nat} {slope : Coordinate}
    (same : (number : Coordinate) = slope) (x₁ y₁ x₂ : Coordinate) :
    alongLine number x₁.val y₁.val x₂.val =
      affine (curve.addX x₁ x₂ slope).val (curve.addY x₁ x₂ y₁ slope).val := by
  have abscissa : (subtractMod prime (subtractMod prime (number * number % prime) x₁.val) x₂.val :
      Coordinate) = curve.addX x₁ x₂ slope := by
    rw [natCast_subtractMod (val_le_prime _), natCast_subtractMod (val_le_prime _),
      ZMod.natCast_mod, Nat.cast_mul, same, addX_eq, ZMod.natCast_zmod_val, ZMod.natCast_zmod_val]
  rw [alongLine, eq_val_of_natCast (subtractMod_lt prime_pos _ _) abscissa]
  have ordinate : (subtractMod prime
      (number * subtractMod prime x₁.val (curve.addX x₁ x₂ slope).val % prime) y₁.val :
        Coordinate) = curve.addY x₁ x₂ y₁ slope := by
    rw [natCast_subtractMod (val_le_prime _), ZMod.natCast_mod, Nat.cast_mul, subtractMod_val, same,
      addY_eq, ZMod.natCast_zmod_val]
  rw [eq_val_of_natCast (subtractMod_lt prime_pos _ _) ordinate]

namespace Group

theorem encode_add (left right : Group) :
    encode (left + right) = (encode left).add (encode right) := by
  rcases left with _ | ⟨x₁, y₁, on₁⟩
  · exact congrArg encode (zero_add right)
  rcases right with _ | ⟨x₂, y₂, on₂⟩
  · exact congrArg encode (add_zero _)
  rw [encode_some, encode_some, Point.add]
  by_cases sameX : x₁ = x₂
  · subst sameX
    rw [if_pos rfl]
    by_cases opposite : y₁ = -y₂
    · rw [if_pos (add_val_mod_eq_zero_iff.mpr opposite),
        WeierstrassCurve.Affine.Point.add_of_Y_eq rfl (by rwa [negY_eq])]
      rfl
    · have tangent : (3 * x₁.val * x₁.val * inverseMod prime (2 * y₁.val % prime) % prime : Nat) =
          curve.slope x₁ x₁ y₁ y₂ := by
        rw [slope_of_tangent opposite, ZMod.natCast_mod, Nat.cast_mul, natCast_inverse,
          ZMod.natCast_mod]
        simp only [Nat.cast_mul, ZMod.natCast_zmod_val, Nat.cast_ofNat]
      rw [if_neg (mt add_val_mod_eq_zero_iff.mp opposite),
        WeierstrassCurve.Affine.Point.add_of_Y_ne (by rwa [negY_eq]), encode_some,
        Point.alongLine_eq tangent]
  · have chord : (subtractMod prime y₂.val y₁.val *
        inverseMod prime (subtractMod prime x₂.val x₁.val) % prime : Nat) =
          curve.slope x₁ x₂ y₁ y₂ := by
      rw [slope_of_chord sameX, ZMod.natCast_mod, Nat.cast_mul, natCast_inverse, subtractMod_val,
        subtractMod_val]
    rw [if_neg (mt val_eq_iff.mp sameX), WeierstrassCurve.Affine.Point.add_of_X_ne sameX,
      encode_some, Point.alongLine_eq chord]

theorem encode_nsmul_of_bits (point : Group) {bits factor : Nat} (fits : factor < 2 ^ bits) :
    encode (factor • point) = Point.scaleBits bits factor (encode point) := by
  induction bits generalizing factor point with
  | zero =>
      have zero : factor = 0 := by
        simpa using fits
      rw [zero, zero_nsmul]
      rfl
  | succ bits inductionHypothesis =>
      have half : factor / 2 < 2 ^ bits := by
        rw [Nat.pow_succ] at fits
        omega
      have doubled : (factor / 2) • (point + point) = (2 * (factor / 2)) • point := by
        rw [← two_nsmul, ← mul_nsmul]
      rw [Point.scaleBits, ← encode_add, ← inductionHypothesis _ half, doubled]
      by_cases odd : factor % 2 = 1
      · have split : factor = 2 * (factor / 2) + 1 := by omega
        rw [if_pos odd, ← encode_add, ← succ_nsmul', ← split]
      · have split : factor = 2 * (factor / 2) := by omega
        rw [if_neg odd, ← split]

theorem encode_nsmul (point : Group) {factor : Nat} (fits : factor < 2 ^ 256) :
    encode (factor • point) = Point.scale factor (encode point) :=
  encode_nsmul_of_bits point fits

end Group

/-- Minus seven is not a cube. -/
theorem powerMod_seven_ne_one : powerMod prime 256 (prime - 7) ((prime - 1) / 3) ≠ 1 := by
  decide +kernel

theorem ordinate_ne_zero {x y : Coordinate} (on : curve.Nonsingular x y) : y ≠ 0 := by
  rintro rfl
  have cube : x ^ 3 = -7 := by
    have equation := (nonsingular_iff x 0).mp on
    rw [zero_pow two_ne_zero] at equation
    exact eq_neg_of_add_eq_zero_left equation.symm
  have seven : ((prime - 7 : Nat) : Coordinate) = -7 := by
    rw [Nat.cast_sub (by decide), ZMod.natCast_self, zero_sub, Nat.cast_ofNat]
  have nonzero : x ≠ 0 := by
    rintro rfl
    rw [zero_pow three_ne_zero, ← seven] at cube
    exact natCast_coordinate_ne_zero (by decide) (by decide) cube.symm
  have thirds : 3 * ((prime - 1) / 3) = prime - 1 := by decide
  have one : ((prime - 7 : Nat) : Coordinate) ^ ((prime - 1) / 3) = 1 := by
    rw [seven, ← cube, ← pow_mul, thirds, ZMod.pow_card_sub_one_eq_one nonzero]
  rw [Primality.natCast_pow_eq_one_iff (by decide)] at one
  exact powerMod_seven_ne_one ((powerMod_eq _ _ (by decide)).trans one)

theorem odd_val_neg {y : Coordinate} (nonzero : y ≠ 0) :
    (-y).val % 2 = 1 ↔ ¬ y.val % 2 = 1 := by
  have below := y.val_lt
  have primeOdd : prime % 2 = 1 := by decide
  rw [ZMod.neg_val, if_neg nonzero]
  omega

/-- On the curve, an ordinate is determined by its square and its parity. -/
theorem eq_of_sq_eq_of_parity {x y y' : Coordinate} (on : curve.Nonsingular x y)
    (on' : curve.Nonsingular x y') (parity : y.val % 2 = 1 ↔ y'.val % 2 = 1) : y = y' := by
  have squares : y ^ 2 = y' ^ 2 := by
    rw [(nonsingular_iff x y).mp on, (nonsingular_iff x y').mp on']
  rcases sq_eq_sq_iff_eq_or_eq_neg.mp squares with same | opposite
  · exact same
  · rw [opposite, odd_val_neg (ordinate_ne_zero on')] at parity
    tauto

theorem nonsingular_natCast {x y : Nat} (on : y * y % prime = (x * x * x + 7) % prime) :
    curve.Nonsingular (x : Coordinate) (y : Coordinate) := by
  have same := (ZMod.natCast_eq_natCast_iff' (y * y) (x * x * x + 7) prime).mpr on
  push_cast at same
  rw [nonsingular_iff]
  linear_combination same

namespace Group

/-- The generator as a point of the group. -/
def generator : Group :=
  .some ((0x79BE667EF9DCBBAC55A06295CE870B07029BFCDB2DCE28D959F2815B16F81798 : Nat) : Coordinate)
    ((0x483ADA7726A3C4655DA4FBFC0E1108A8FD17B448A68554199C47D08FFB10D4B8 : Nat) : Coordinate)
    (nonsingular_natCast (by decide +kernel))

theorem encode_generator : encode generator = Point.generator := by
  rw [generator, encode_some, ZMod.val_natCast_of_lt (by decide), ZMod.val_natCast_of_lt (by decide)]
  rfl

theorem generator_ne_zero : generator ≠ 0 :=
  WeierstrassCurve.Affine.Point.some_ne_zero _

theorem scale_order_generator : Point.scale order Point.generator = .infinity := by
  rw [Point.scale_eq_windowed]
  decide +kernel

theorem order_nsmul_generator : order • generator = 0 := by
  apply encode_injective
  rw [encode_nsmul _ (by decide), encode_generator, scale_order_generator, encode_zero]

theorem addOrderOf_generator : addOrderOf generator = order :=
  addOrderOf_eq_prime order_nsmul_generator generator_ne_zero

/-- A point by its abscissa and the parity of its ordinate. -/
def halfCode : Group → Option (Coordinate × Bool)
  | .zero => none
  | .some x y _ => some (x, y.val % 2 = 1)

theorem halfCode_injective : Function.Injective halfCode := by
  rintro (_ | ⟨x, y, on⟩) (_ | ⟨x', y', on'⟩) same
  · rfl
  · cases same
  · cases same
  · obtain ⟨rfl, parity⟩ := Prod.mk.inj (Option.some.inj same)
    cases eq_of_sq_eq_of_parity on on' (by simpa using parity)
    rfl

instance : Finite Group :=
  Finite.of_injective halfCode halfCode_injective

theorem card_le : Nat.card Group ≤ 2 * prime + 1 := by
  have bound := Nat.card_le_card_of_injective halfCode halfCode_injective
  have room : Nat.card (Option (Coordinate × Bool)) = 2 * prime + 1 := by
    rw [Nat.card_eq_fintype_card, Fintype.card_option, Fintype.card_prod, ZMod.card,
      Fintype.card_bool, Nat.mul_comm]
  exact bound.trans_eq room

/-- No point is its own negative but the neutral one. -/
theorem eq_zero_of_add_self {point : Group} (double : point + point = 0) : point = 0 := by
  rcases point with _ | ⟨x, y, on⟩
  · rfl
  · have opposite := add_eq_zero_iff_eq_neg.mp double
    rw [WeierstrassCurve.Affine.Point.neg_some] at opposite
    obtain ⟨_, negated⟩ := WeierstrassCurve.Affine.Point.some.inj opposite
    rw [negY_eq] at negated
    have parity := odd_val_neg (ordinate_ne_zero on)
    rw [← negated] at parity
    tauto

theorem card_eq : Nat.card Group = order := by
  obtain ⟨count, split⟩ : order ∣ Nat.card Group := by
    rw [← addOrderOf_generator]
    exact addOrderOf_dvd_natCard generator
  have positive : 0 < Nat.card Group := Nat.card_pos
  have room : 2 * prime + 1 < order * 3 := by decide
  have bound := card_le
  have few : count < 3 := by
    by_contra many
    have large : order * 3 ≤ order * count := Nat.mul_le_mul_left order (by omega)
    omega
  have notTwo : count ≠ 2 := by
    rintro rfl
    have even : 2 ∣ Nat.card Group := ⟨order, by omega⟩
    obtain ⟨point, orderTwo⟩ := exists_prime_addOrderOf_dvd_card' 2 even
    have double : point + point = 0 := by
      rw [← two_nsmul, ← orderTwo, addOrderOf_nsmul_eq_zero]
    rw [eq_zero_of_add_self double, addOrderOf_zero] at orderTwo
    cases orderTwo
  have one : count = 1 := by
    have some : count ≠ 0 := by
      rintro rfl
      omega
    omega
  rw [split, one, Nat.mul_one]

theorem order_nsmul (point : Group) : order • point = 0 := by
  rw [← card_eq]
  exact card_nsmul_eq_zero'

end Group

end Curve

end Countersign
