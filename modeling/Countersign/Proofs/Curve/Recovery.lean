import Countersign.Proofs.Curve.Group
import Mathlib.Tactic.Module

/-!
Finding the key that a signature belongs to, which is a calculation with multiples: the group is a
space over the scalars, and a signature is an equation in it. A signature that is made recovers to
the key that made it, as it was made, because its scalars solve the equation, and lowered, because
the other signature recovers to the same.
-/

namespace Countersign.Curve

namespace Group

/-- A point has a given abscissa and an ordinate of the given parity. -/
def LiesAt (abscissa : Nat) (odd : Bool) : Group → Prop
  | .zero => False
  | .some x y _ => x = abscissa ∧ (y.val % 2 = 1 ↔ odd = true)

variable {abscissa : Nat} {odd : Bool} {point : Group}

theorem LiesAt.unique {other : Group} (here : point.LiesAt abscissa odd)
    (there : other.LiesAt abscissa odd) : point = other := by
  rcases point with _ | ⟨x, y, on⟩
  · exact here.elim
  rcases other with _ | ⟨x', y', on'⟩
  · exact there.elim
  obtain ⟨rfl, parity⟩ := here
  obtain ⟨rfl, parity'⟩ := there
  cases eq_of_sq_eq_of_parity on on' (parity.trans parity'.symm)
  rfl

theorem liesAt_of_encode {x y : Nat} (encoded : point.encode = .affine x y) :
    point.LiesAt x (y % 2 = 1) := by
  rcases point with _ | ⟨abscissa, ordinate, on⟩
  · cases encoded
  · obtain ⟨rfl, rfl⟩ := Point.affine.inj encoded
    exact ⟨(ZMod.natCast_zmod_val abscissa).symm, by simp⟩

theorem LiesAt.ne_zero (here : point.LiesAt abscissa odd) : point ≠ 0 := by
  rintro rfl
  exact here

theorem LiesAt.neg (here : point.LiesAt abscissa odd) : (-point).LiesAt abscissa !odd := by
  rcases point with _ | ⟨x, y, on⟩
  · exact here.elim
  · obtain ⟨rfl, parity⟩ := here
    rw [WeierstrassCurve.Affine.Point.neg_some]
    refine ⟨rfl, ?_⟩
    rw [negY_eq, odd_val_neg (ordinate_ne_zero on), parity]
    cases odd <;> simp

end Group

/-- Of a root and its negative, the one with the wanted parity. -/
def ordinate (root : Nat) (odd : Bool) : Nat :=
  if (root % 2 = 1) = odd then root else subtractMod prime 0 root

theorem ordinate_lies {x : Coordinate} {root : Nat} (reduced : root < prime)
    (on : curve.Nonsingular x root) (odd : Bool) :
    ordinate root odd < prime ∧ curve.Nonsingular x (ordinate root odd : Nat) ∧
      (ordinate root odd % 2 = 1 ↔ odd = true) := by
  have value : (root : Coordinate).val = root := ZMod.val_natCast_of_lt reduced
  have negative : (subtractMod prime 0 root : Coordinate) = -root := by
    rw [natCast_subtractMod reduced.le, Nat.cast_zero, zero_sub]
  by_cases wanted : (root % 2 = 1) = odd
  · rw [ordinate, if_pos wanted]
    exact ⟨reduced, on, by rw [wanted]⟩
  · rw [ordinate, if_neg wanted]
    refine ⟨subtractMod_lt prime_pos _ _, ?_, ?_⟩
    · rw [negative, nonsingular_iff, neg_sq, ← nonsingular_iff]
      exact on
    · rw [eq_val_of_natCast (subtractMod_lt prime_pos _ _) negative,
        odd_val_neg (ordinate_ne_zero on), value]
      rw [eq_iff_iff] at wanted
      tauto

theorem pow_quarter_sq {square y : Coordinate} (root : y ^ 2 = square) (nonzero : y ≠ 0) :
    (square ^ ((prime + 1) / 4)) ^ 2 = square := by
  have exponent : 2 * ((prime + 1) / 4 * 2) = prime - 1 + 2 := by decide
  rw [← root, ← pow_mul, ← pow_mul, exponent, pow_add, ZMod.pow_card_sub_one_eq_one nonzero,
    one_mul]

/-- The square of the ordinates at an abscissa, and the number whose square it is if it is one. -/
def squareAt (x : Nat) : Nat :=
  (x * x * x + 7) % prime

def rootAt (x : Nat) : Nat :=
  powerMod prime 256 (squareAt x) ((prime + 1) / 4)

theorem natCast_squareAt (x : Nat) : (squareAt x : Coordinate) = (x : Coordinate) ^ 3 + 7 := by
  rw [squareAt, ZMod.natCast_mod]
  push_cast
  ring

theorem natCast_rootAt (x : Nat) :
    (rootAt x : Coordinate) = ((x : Coordinate) ^ 3 + 7) ^ ((prime + 1) / 4) := by
  rw [rootAt, powerMod_eq _ _ (by decide), ZMod.natCast_mod, Nat.cast_pow, natCast_squareAt]

theorem rootAt_lt (x : Nat) : rootAt x < prime := by
  rw [rootAt, powerMod_eq _ _ (by decide)]
  exact Nat.mod_lt _ prime_pos

theorem rootAt_mul_self_iff (x : Nat) :
    rootAt x * rootAt x % prime = squareAt x ↔
      curve.Nonsingular (x : Coordinate) (rootAt x : Coordinate) := by
  have reduced : squareAt x % prime = squareAt x := Nat.mod_mod _ _
  rw [nonsingular_iff, ← natCast_squareAt, ← Nat.cast_pow, ZMod.natCast_eq_natCast_iff', reduced,
    Nat.pow_two]

theorem lift?_eq (x : Nat) (odd : Bool) :
    Point.lift? x odd =
      if rootAt x * rootAt x % prime = squareAt x then
        some (.affine x (ordinate (rootAt x) odd))
      else none :=
  rfl

/-- Lifting finds the point with the given abscissa and parity. -/
theorem lift?_eq_some_iff {abscissa : Nat} (reduced : abscissa < prime) (odd : Bool)
    (found : Point) :
    Point.lift? abscissa odd = some found ↔
      ∃ point : Group, point.LiesAt abscissa odd ∧ found = point.encode := by
  have value : (abscissa : Coordinate).val = abscissa := ZMod.val_natCast_of_lt reduced
  rw [lift?_eq]
  by_cases square : rootAt abscissa * rootAt abscissa % prime = squareAt abscissa
  · have onCurve := (rootAt_mul_self_iff abscissa).mp square
    obtain ⟨small, on, parity⟩ := ordinate_lies (rootAt_lt abscissa) onCurve odd
    have ordinateValue := ZMod.val_natCast_of_lt small
    have lies : Group.LiesAt abscissa odd (.some _ _ on) := ⟨rfl, by rw [ordinateValue, parity]⟩
    have encoded : Group.encode (.some _ _ on) =
        .affine abscissa (ordinate (rootAt abscissa) odd) := by
      rw [Group.encode_some, value, ordinateValue]
    rw [if_pos square, Option.some.injEq, ← encoded]
    constructor
    · rintro rfl
      exact ⟨_, lies, rfl⟩
    · rintro ⟨point, there, rfl⟩
      rw [there.unique lies]
  · rw [if_neg square]
    constructor
    · intro none
      cases none
    · rintro ⟨_ | ⟨x, y, on⟩, lies, _⟩
      · exact lies.elim
      · obtain ⟨rfl, _⟩ := lies
        have root : y ^ 2 = (abscissa : Coordinate) ^ 3 + 7 := (nonsingular_iff _ _).mp on
        refine absurd ((rootAt_mul_self_iff abscissa).mpr ?_) square
        rw [nonsingular_iff, natCast_rootAt, pow_quarter_sq root (ordinate_ne_zero on)]

abbrev Scalar :=
  ZMod order

noncomputable instance : Module Scalar Group :=
  AddCommGroup.zmodModule Group.order_nsmul

theorem order_pos : 0 < order := by
  decide

theorem order_lt : order < 2 ^ 256 := by
  decide

theorem order_lt_prime : order < prime := by
  decide

theorem isScalar_iff {value : Nat} : isScalar value = true ↔ 0 < value ∧ value < order := by
  simp [isScalar]

theorem natCast_scalar_ne_zero {value : Nat} (scalar : isScalar value = true) :
    (value : Scalar) ≠ 0 := by
  obtain ⟨positive, small⟩ := isScalar_iff.mp scalar
  rw [Ne, ZMod.natCast_eq_zero_iff]
  exact Nat.not_dvd_of_pos_of_lt positive small

theorem isScalar_order_sub {value : Nat} (scalar : isScalar value = true) :
    isScalar (order - value) = true := by
  rw [isScalar_iff] at scalar ⊢
  omega

theorem isHigh_order_sub {value : Nat} (scalar : isScalar value = true) :
    isHigh (order - value) = !isHigh value := by
  -- The order is odd, so that a scalar and its negative are never in the same half.
  have halves : order = order / 2 + order / 2 + 1 := by decide
  rw [isScalar_iff] at scalar
  by_cases high : order / 2 < value
  · have other : ¬ order / 2 < order - value := by omega
    simp [isHigh, high, other]
  · have other : order / 2 < order - value := by omega
    simp [isHigh, high, other]

theorem natCast_order_sub {value : Nat} (below : value ≤ order) :
    ((order - value : Nat) : Scalar) = -value := by
  rw [Nat.cast_sub below, ZMod.natCast_self, zero_sub]

theorem encode_smul (factor : Nat) (fits : factor < 2 ^ 256) (point : Group) :
    Group.encode ((factor : Scalar) • point) = Point.scale factor point.encode := by
  rw [Nat.cast_smul_eq_nsmul, Group.encode_nsmul point fits]

theorem natCast_inverseScalar (value : Nat) :
    (inverseMod order value : Scalar) = (value : Scalar)⁻¹ :=
  natCast_inverseMod (by decide) (by decide) value

/-! ## Keys -/

/-- The key that solves the equation of a signature: `r⁻¹ (s R - z G)` for the nonce point `R` and
the digest `z`. -/
noncomputable def solvedKey (digest r s : Nat) (noncePoint : Group) : Group :=
  (r : Scalar)⁻¹ • ((s : Scalar) • noncePoint - (digest : Scalar) • Group.generator)

/-- The key solves the equation that the scalars of a signature have to satisfy. -/
theorem solvedKey_eq_iff {digest r s : Nat} {noncePoint key : Group} (scalar : isScalar r = true) :
    solvedKey digest r s noncePoint = key ↔
      (s : Scalar) • noncePoint = (digest : Scalar) • Group.generator + (r : Scalar) • key := by
  rw [solvedKey, inv_smul_eq_iff₀ (natCast_scalar_ne_zero scalar), sub_eq_iff_eq_add, add_comm]

section Recovery

variable (digest r s : Nat) (noncePoint : Group)

/-- The two factors that recovery works with, the first one of the generator. -/
def generatorFactor : Nat :=
  subtractMod order 0 (inverseMod order r * digest % order)

def noncePointFactor : Nat :=
  inverseMod order r * s % order

theorem natCast_generatorFactor :
    (generatorFactor digest r : Scalar) = -((r : Scalar)⁻¹ * digest) := by
  rw [generatorFactor, natCast_subtractMod (Nat.mod_lt _ order_pos).le, Nat.cast_zero, zero_sub,
    ZMod.natCast_mod, Nat.cast_mul, natCast_inverseScalar]

theorem natCast_noncePointFactor :
    (noncePointFactor r s : Scalar) = (r : Scalar)⁻¹ * s := by
  rw [noncePointFactor, ZMod.natCast_mod, Nat.cast_mul, natCast_inverseScalar]

theorem encode_solvedKey :
    (solvedKey digest r s noncePoint).encode =
      (Point.scale (generatorFactor digest r) Point.generator).add
        (Point.scale (noncePointFactor r s) noncePoint.encode) := by
  have solved : solvedKey digest r s noncePoint =
      (generatorFactor digest r : Scalar) • Group.generator +
        (noncePointFactor r s : Scalar) • noncePoint := by
    rw [natCast_generatorFactor, natCast_noncePointFactor, solvedKey]
    module
  have generatorFits : generatorFactor digest r < 2 ^ 256 :=
    (subtractMod_lt order_pos _ _).trans order_lt
  have noncePointFits : noncePointFactor r s < 2 ^ 256 :=
    (Nat.mod_lt _ order_pos).trans order_lt
  rw [solved, Group.encode_add, encode_smul _ generatorFits, encode_smul _ noncePointFits,
    Group.encode_generator]

end Recovery

/-- A key is found from a digest, two scalars and a parity as the textbook has it: it solves the
equation for the point that has the parity and whose abscissa is the first scalar. -/
def Recovers (digest r s : Nat) (odd : Bool) (key : Group) : Prop :=
  key ≠ 0 ∧ ∃ noncePoint : Group, noncePoint.LiesAt r odd ∧ key = solvedKey digest r s noncePoint

variable {digest r s : Nat} {odd : Bool} {key : Group}

theorem recover?_of_lift?_eq_none (missing : Point.lift? r odd = none) :
    recover? digest r s odd = none := by
  unfold recover?
  rw [missing]

theorem recover?_of_lift?_eq_some {noncePoint : Group}
    (lifted : Point.lift? r odd = some noncePoint.encode) :
    recover? digest r s odd =
      if solvedKey digest r s noncePoint = 0 then none
      else some (solvedKey digest r s noncePoint).encode := by
  have encoded := encode_solvedKey digest r s noncePoint
  rw [generatorFactor, noncePointFactor] at encoded
  unfold recover?
  rw [lifted]
  dsimp only
  rw [← encoded]
  rcases solvedKey digest r s noncePoint with _ | ⟨x, y, on⟩
  · rfl
  · rw [if_neg (WeierstrassCurve.Affine.Point.some_ne_zero on)]
    rfl

/-- Recovery is that of the textbook. -/
theorem recover?_eq_some_iff (reduced : r < prime) (found : Point) :
    recover? digest r s odd = some found ↔
      ∃ key, Recovers digest r s odd key ∧ found = key.encode := by
  constructor
  · intro recovered
    rcases lifted : Point.lift? r odd with _ | point
    · rw [recover?_of_lift?_eq_none lifted] at recovered
      cases recovered
    · obtain ⟨noncePoint, lies, rfl⟩ := (lift?_eq_some_iff reduced odd point).mp lifted
      rw [recover?_of_lift?_eq_some lifted] at recovered
      by_cases neutral : solvedKey digest r s noncePoint = 0
      · rw [if_pos neutral] at recovered
        cases recovered
      · rw [if_neg neutral] at recovered
        cases recovered
        exact ⟨_, ⟨neutral, noncePoint, lies, rfl⟩, rfl⟩
  · rintro ⟨_, ⟨nonzero, noncePoint, lies, rfl⟩, rfl⟩
    have lifted := (lift?_eq_some_iff reduced odd _).mpr ⟨noncePoint, lies, rfl⟩
    rw [recover?_of_lift?_eq_some lifted, if_neg nonzero]

/-- At most one key is recovered. -/
theorem Recovers.unique {other : Group} (recovered : Recovers digest r s odd key)
    (again : Recovers digest r s odd other) : key = other := by
  obtain ⟨_, _, lies, rfl⟩ := recovered
  obtain ⟨_, _, lies', rfl⟩ := again
  rw [lies.unique lies']

theorem solvedKey_negated (below : s ≤ order) (noncePoint : Group) :
    solvedKey digest r (order - s) (-noncePoint) = solvedKey digest r s noncePoint := by
  rw [solvedKey, natCast_order_sub below, neg_smul_neg, ← solvedKey]

theorem Recovers.negated (below : s ≤ order) (recovered : Recovers digest r s odd key) :
    Recovers digest r (order - s) (!odd) key := by
  obtain ⟨nonzero, noncePoint, lies, rfl⟩ := recovered
  exact ⟨nonzero, -noncePoint, lies.neg, (solvedKey_negated below noncePoint).symm⟩

/-- Negating the second scalar and the parity of the nonce point changes nothing. -/
theorem recovers_negated_iff (below : s ≤ order) :
    Recovers digest r (order - s) (!odd) key ↔ Recovers digest r s odd key := by
  refine ⟨fun recovered => ?_, Recovers.negated below⟩
  have twice := recovered.negated (Nat.sub_le order s)
  rwa [Nat.sub_sub_self below, Bool.not_not] at twice

theorem recovers_mod_iff :
    Recovers (digest % order) r s odd key ↔ Recovers digest r s odd key := by
  simp only [Recovers, solvedKey, ZMod.natCast_mod]

namespace NonceState

theorem draw_succ (attempts : Nat) (state : NonceState) :
    state.draw (attempts + 1) =
      if isScalar (Bytes.toNatBE (Digest.hmacSha256 state.key state.value)) = true then
        some (Bytes.toNatBE (Digest.hmacSha256 state.key state.value))
      else
        (stir ⟨state.key, Digest.hmacSha256 state.key state.value⟩ 0x00 []).draw attempts := by
  simp only [isScalar_iff]
  rfl

theorem draw_isScalar {attempts : Nat} {state : NonceState} {nonce : Nat}
    (drawn : state.draw attempts = some nonce) : isScalar nonce = true := by
  induction attempts generalizing state with
  | zero => cases drawn
  | succ attempts inductionHypothesis =>
      rw [draw_succ] at drawn
      by_cases usable :
          isScalar (Bytes.toNatBE (Digest.hmacSha256 state.key state.value)) = true
      · rw [if_pos usable] at drawn
        rwa [← Option.some.inj drawn]
      · rw [if_neg usable] at drawn
        exact inductionHypothesis drawn

end NonceState

theorem nonce?_isScalar {secret digest : Bytes} {nonce : Nat}
    (drawn : nonce? secret digest = some nonce) : isScalar nonce = true :=
  NonceState.draw_isScalar drawn

/-- The public key of a secret one, and the nonce point of a nonce. -/
noncomputable def generated (factor : Nat) : Group :=
  (factor : Scalar) • Group.generator

variable {factor : Nat}

theorem encode_generated (scalar : isScalar factor = true) :
    (generated factor).encode = Point.scale factor Point.generator := by
  have fits := (isScalar_iff.mp scalar).2.trans order_lt
  rw [generated, encode_smul factor fits, Group.encode_generator]

theorem generated_ne_zero (scalar : isScalar factor = true) : generated factor ≠ 0 :=
  smul_ne_zero (natCast_scalar_ne_zero scalar) Group.generator_ne_zero

namespace Scalars

variable {scalars : Scalars} {key digest nonce : Nat}

/-- Two scalars with a recovery number by which a key is recovered from them. -/
structure RecoverTo (digest : Nat) (key : Group) (scalars : Scalars) : Prop where
  r : isScalar scalars.r = true
  s : isScalar scalars.s = true
  recovery : scalars.recovery = 0 ∨ scalars.recovery = 1
  recovers : Recovers digest scalars.r scalars.s (scalars.recovery = 1) key

theorem RecoverTo.negated {key : Group} (valid : scalars.RecoverTo digest key) :
    scalars.negated.RecoverTo digest key where
  r := valid.r
  s := isScalar_order_sub valid.s
  recovery := by
    rcases valid.recovery with even | odd
    · simp [Scalars.negated, even]
    · simp [Scalars.negated, odd]
  recovers := by
    have other : decide (scalars.recovery ^^^ 1 = 1) = !decide (scalars.recovery = 1) := by
      rcases valid.recovery with even | odd
      · simp [even]
      · simp [odd]
    have negated := valid.recovers.negated (isScalar_iff.mp valid.s).2.le
    rwa [← other] at negated

theorem RecoverTo.lowered {key : Group} (valid : scalars.RecoverTo digest key) :
    scalars.lowered.RecoverTo digest key ∧ isHigh scalars.lowered.s = false := by
  rw [Scalars.lowered]
  rcases high : isHigh scalars.s with _ | _
  · simpa [high] using valid
  · have low : isHigh scalars.negated.s = false := by
      rw [Scalars.negated, isHigh_order_sub valid.s, high, Bool.not_true]
    simpa [low] using valid.negated

def secondScalar (key digest nonce r : Nat) : Nat :=
  inverseMod order nonce * ((digest + r * key) % order) % order

theorem natCast_secondScalar (r : Nat) :
    (secondScalar key digest nonce r : Scalar) = (nonce : Scalar)⁻¹ * (digest + r * key) := by
  rw [secondScalar, ZMod.natCast_mod, Nat.cast_mul, ZMod.natCast_mod, natCast_inverseScalar]
  push_cast
  rfl

theorem solvedKey_secondScalar (nonceScalar : isScalar nonce = true) {r : Nat}
    (scalar : isScalar r = true) :
    solvedKey digest r (secondScalar key digest nonce r) (generated nonce) = generated key := by
  have cancelled : (secondScalar key digest nonce r : Scalar) * nonce = digest + r * key := by
    rw [natCast_secondScalar, mul_right_comm,
      inv_mul_cancel₀ (natCast_scalar_ne_zero nonceScalar), one_mul]
  rw [solvedKey_eq_iff scalar, generated, generated, smul_smul, smul_smul, cancelled, add_smul]

section Reduced

variable {x y : Nat} (noncePoint : Point.scale nonce Point.generator = .affine x y)
  (reduced : x < order)

include noncePoint reduced

theorem sign?_eq :
    sign? key digest nonce =
      if x = 0 ∨ secondScalar key digest nonce x = 0 then none
      else some (lowered ⟨x, secondScalar key digest nonce x, y % 2⟩) := by
  unfold sign?
  rw [noncePoint]
  simp only [Nat.mod_eq_of_lt reduced, if_neg (Nat.not_le.mpr reduced), Nat.add_zero]
  rfl

/-- Signing gives a low signature by which the key is recovered. -/
theorem sign?_recovers (keyScalar : isScalar key = true) (nonceScalar : isScalar nonce = true)
    (signed : sign? key digest nonce = some scalars) :
    scalars.RecoverTo digest (generated key) ∧ isHigh scalars.s = false := by
  rw [sign?_eq noncePoint reduced] at signed
  by_cases degenerate : x = 0 ∨ secondScalar key digest nonce x = 0
  · rw [if_pos degenerate] at signed
    cases signed
  rw [if_neg degenerate] at signed
  obtain ⟨firstNonzero, secondNonzero⟩ := not_or.mp degenerate
  have first : isScalar x = true :=
    isScalar_iff.mpr ⟨Nat.pos_of_ne_zero firstNonzero, reduced⟩
  have second : isScalar (secondScalar key digest nonce x) = true :=
    isScalar_iff.mpr ⟨Nat.pos_of_ne_zero secondNonzero, Nat.mod_lt _ order_pos⟩
  have lies : (generated nonce).LiesAt x (y % 2 = 1) :=
    Group.liesAt_of_encode ((encode_generated nonceScalar).trans noncePoint)
  rw [← Option.some.inj signed]
  exact RecoverTo.lowered ⟨first, second, Nat.mod_two_eq_zero_or_one y,
    generated_ne_zero keyScalar, generated nonce, lies,
    (solvedKey_secondScalar nonceScalar first).symm⟩

end Reduced

end Scalars

end Countersign.Curve
