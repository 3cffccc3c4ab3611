import Countersign.Proofs.Curve.Recovery
import Countersign.Proofs.Signature

/-!
A signature has a twin with the second scalar and the nonce point negated. Both belong to one key,
one of them is low, and normalising picks it, so that the signer stays who it was; normalising is a
projection, and what is no signature with a recovery byte of the chain has no low form.
-/

namespace Countersign.Signature

/-- Two scalars and a recovery byte of the chain. -/
structure WellFormed (signature : Signature) : Prop where
  r : Curve.isScalar signature.r.toNat = true
  s : Curve.isScalar signature.s.toNat = true
  recovery : signature.v = 27 ∨ signature.v = 28

/-- The second scalar negated, with the other recovery byte. -/
def twin (signature : Signature) : Signature :=
  ⟨signature.r, Octets.ofNat 32 (Curve.order - signature.s.toNat), 55 - signature.v⟩

/-- The key that the textbook recovers, whether the second scalar is high or low. -/
def RecoversTo (digest : Hash) (signature : Signature) (key : Curve.Group) : Prop :=
  Curve.Recovers digest.toNat signature.r.toNat signature.s.toNat (signature.v = 28) key

theorem toNat_twin (signature : Signature) :
    signature.twin.s.toNat = Curve.order - signature.s.toNat := by
  refine Octets.toNat_ofNat ?_
  exact (Nat.sub_le _ _).trans_lt (by decide)

variable {signature : Signature} {digest : Hash}

theorem WellFormed.twin (formed : signature.WellFormed) : signature.twin.WellFormed where
  r := formed.r
  s := by
    rw [toNat_twin]
    exact Curve.isScalar_order_sub formed.s
  recovery := by
    rcases formed.recovery with even | odd
    · simp [Signature.twin, even]
    · simp [Signature.twin, odd]

theorem isHigh_twin (formed : signature.WellFormed) :
    Curve.isHigh signature.twin.s.toNat = !Curve.isHigh signature.s.toNat := by
  rw [toNat_twin, Curve.isHigh_order_sub formed.s]

theorem recoversTo_twin_iff (formed : signature.WellFormed) {key : Curve.Group} :
    signature.twin.RecoversTo digest key ↔ signature.RecoversTo digest key := by
  have below := (Curve.isScalar_iff.mp formed.s).2.le
  have other : decide (signature.twin.v = 28) = !decide (signature.v = 28) := by
    rcases formed.recovery with even | odd
    · simp [twin, even]
    · simp [twin, odd]
  rw [RecoversTo, toNat_twin, other]
  exact Curve.recovers_negated_iff below

theorem WellFormed.checkScalars (formed : signature.WellFormed) :
    signature.checkScalars = .ok () := by
  simp [Signature.checkScalars, formed.r, formed.s]

theorem WellFormed.checkRecovery (formed : signature.WellFormed) :
    signature.checkRecovery = .ok (signature.v - 27) := by
  simp [Signature.checkRecovery, recoveryNumber?, formed.recovery]

/-- Normalising picks the low one of the two. -/
theorem normalize_eq (formed : signature.WellFormed) :
    signature.normalize =
      .ok (if Curve.isHigh signature.s.toNat then signature.twin else signature) := by
  have flipped : ((signature.v - 27) ^^^ 1) + 27 = 55 - signature.v := by
    rcases formed.recovery with even | odd
    · simp [even]
    · simp [odd]
  rw [normalize, formed.checkScalars, formed.checkRecovery]
  by_cases high : Curve.isHigh signature.s.toNat = true
  · simp [high, twin, flipped]
  · simp [high]

theorem recoverAddress_of_high (formed : signature.WellFormed)
    (high : Curve.isHigh signature.s.toNat = true) :
    recoverAddress digest signature = .error .recovery := by
  rw [recoverAddress, recoverKey, formed.checkScalars, formed.checkRecovery]
  simp [high, Except.map]

theorem recoverAddress_of_low (formed : signature.WellFormed)
    (low : Curve.isHigh signature.s.toNat = false) :
    recoverAddress digest signature =
      match Curve.recover? (digest.toNat % Curve.order) signature.r.toNat signature.s.toNat
        (signature.v = 28) with
      | some key => .ok (Address.ofPoint key)
      | none => .error .recovery := by
  have odd : decide (signature.v - 27 = 1) = decide (signature.v = 28) := by
    rcases formed.recovery with even | odd
    · simp [even]
    · simp [odd]
  rw [recoverAddress, recoverKey, formed.checkScalars, formed.checkRecovery]
  simp only [Result.ok_bind, low, odd]
  cases Curve.recover? (digest.toNat % Curve.order) signature.r.toNat signature.s.toNat
    (signature.v = 28) <;> rfl

theorem recover?_eq_some_iff (formed : signature.WellFormed) (found : Curve.Point) :
    Curve.recover? (digest.toNat % Curve.order) signature.r.toNat signature.s.toNat
        (signature.v = 28) = some found ↔
      ∃ key, signature.RecoversTo digest key ∧ found = key.encode := by
  have reduced := (Curve.isScalar_iff.mp formed.r).2.trans Curve.order_lt_prime
  simp only [Curve.recover?_eq_some_iff reduced, Curve.recovers_mod_iff, RecoversTo]

/-- A low signature is by the account whose key the textbook recovers. -/
theorem recoverAddress_of_recoversTo (formed : signature.WellFormed)
    (low : Curve.isHigh signature.s.toNat = false) {key : Curve.Group}
    (recovered : signature.RecoversTo digest key) :
    recoverAddress digest signature = .ok (Address.ofPoint key.encode) := by
  rw [recoverAddress_of_low formed low,
    (recover?_eq_some_iff formed key.encode).mpr ⟨key, recovered, rfl⟩]

theorem recoverAddress_of_not_recoversTo (formed : signature.WellFormed)
    (low : Curve.isHigh signature.s.toNat = false)
    (nobody : ¬ ∃ key, signature.RecoversTo digest key) :
    recoverAddress digest signature = .error .recovery := by
  rw [recoverAddress_of_low formed low]
  rcases found : Curve.recover? (digest.toNat % Curve.order) signature.r.toNat signature.s.toNat
    (signature.v = 28) with _ | point
  · rfl
  · obtain ⟨key, recovered, _⟩ := (recover?_eq_some_iff formed point).mp found
    exact absurd ⟨key, recovered⟩ nobody

theorem ensureSigner_of_recoverAddress {account : Address}
    (recovered : recoverAddress digest signature = .ok account) :
    ensureSigner digest signature account = .ok () := by
  rw [ensureSigner, recovered, Result.ok_bind, if_neg (not_not_intro rfl)]
  rfl

/-- The low one of the two signatures is by whom the textbook recovers from either, and the high
one is refused, so that one of them passes at most. -/
theorem normalize_keeps_signer (digest : Hash) (signature : Signature)
    (formed : signature.WellFormed) :
    (∃ normalized, signature.normalize = .ok normalized ∧
      (∀ key, signature.RecoversTo digest key →
        recoverAddress digest normalized = .ok (Address.ofPoint key.encode)) ∧
      ((¬ ∃ key, signature.RecoversTo digest key) →
        recoverAddress digest normalized = .error .recovery)) ∧
    Curve.isHigh signature.twin.s.toNat = !Curve.isHigh signature.s.toNat ∧
    (∀ side ∈ [signature, signature.twin], Curve.isHigh side.s.toNat = true →
      recoverAddress digest side = .error .recovery) ∧
    ∀ account other : Address,
      ¬ (ensureSigner digest signature account = .ok () ∧
        ensureSigner digest signature.twin other = .ok ()) := by
  have refused : ∀ side ∈ [signature, signature.twin], Curve.isHigh side.s.toNat = true →
      recoverAddress digest side = .error .recovery := by
    simp only [List.forall_mem_cons, List.not_mem_nil]
    exact ⟨recoverAddress_of_high formed, recoverAddress_of_high formed.twin, by simp⟩
  refine ⟨⟨_, normalize_eq formed, ?_⟩, isHigh_twin formed, refused, ?_⟩
  · rcases high : Curve.isHigh signature.s.toNat with _ | _
    · exact ⟨fun _ => recoverAddress_of_recoversTo formed high,
        recoverAddress_of_not_recoversTo formed high⟩
    · have low : Curve.isHigh signature.twin.s.toNat = false := by
        rw [isHigh_twin formed, high, Bool.not_true]
      simp only [← recoversTo_twin_iff formed]
      exact ⟨fun _ => recoverAddress_of_recoversTo formed.twin low,
        recoverAddress_of_not_recoversTo formed.twin low⟩
  · rintro account other ⟨passed, twinPassed⟩
    have recovers := (genuine_of_ensureSigner passed).recovers
    have twinRecovers := (genuine_of_ensureSigner twinPassed).recovers
    rcases high : Curve.isHigh signature.s.toNat with _ | _
    · have twinHigh : Curve.isHigh signature.twin.s.toNat = true := by
        rw [isHigh_twin formed, high, Bool.not_false]
      rw [recoverAddress_of_high formed.twin twinHigh] at twinRecovers
      cases twinRecovers
    · rw [recoverAddress_of_high formed high] at recovers
      cases recovers

def mirrorAbscissa : Nat :=
  3348329955089446625852166947187361187869957094434072872455082834272089918785

theorem isScalar_mirrorAbscissa : Curve.isScalar mirrorAbscissa = true := by
  decide

theorem lift?_mirrorAbscissa : (Curve.Point.lift? mirrorAbscissa false).isSome = true := by
  decide +kernel

/-- A high signature over the digest zero, by the key that is the nonce point's negative. -/
def mirror : Signature :=
  ⟨Octets.ofNat 32 mirrorAbscissa, Octets.ofNat 32 (Curve.order - mirrorAbscissa), 27⟩

theorem toNat_mirror_r : mirror.r.toNat = mirrorAbscissa :=
  Octets.toNat_ofNat (by decide)

theorem toNat_mirror_s : mirror.s.toNat = Curve.order - mirrorAbscissa :=
  Octets.toNat_ofNat (by decide)

theorem mirror_formed : mirror.WellFormed where
  r := by
    rw [toNat_mirror_r, isScalar_mirrorAbscissa]
  s := by
    rw [toNat_mirror_s, Curve.isScalar_order_sub isScalar_mirrorAbscissa]
  recovery := .inl rfl

theorem mirror_recovers : ∃ key, mirror.RecoversTo (Octets.zero 32) key := by
  obtain ⟨point, lifted⟩ := Option.isSome_iff_exists.mp lift?_mirrorAbscissa
  obtain ⟨noncePoint, lies, _⟩ := (Curve.lift?_eq_some_iff (by decide) false point).mp lifted
  have blank : (Octets.zero 32).toNat = 0 := by decide
  have below : mirrorAbscissa ≤ Curve.order := by decide
  refine ⟨-noncePoint, neg_ne_zero.mpr lies.ne_zero, noncePoint, ?_, ?_⟩
  · rw [toNat_mirror_r]
    exact lies
  · rw [toNat_mirror_r, toNat_mirror_s, eq_comm, Curve.solvedKey_eq_iff isScalar_mirrorAbscissa,
      Curve.natCast_order_sub below, blank, Nat.cast_smul_eq_nsmul Curve.Scalar 0, zero_nsmul,
      zero_add, smul_neg, neg_smul]

theorem normalize_keeps_signer_mirror :
    ∃ normalized account, mirror.normalize = .ok normalized ∧
      recoverAddress (Octets.zero 32) normalized = .ok account ∧
      recoverAddress (Octets.zero 32) mirror = .error .recovery := by
  obtain ⟨⟨normalized, made, found, _⟩, _, refused, _⟩ :=
    normalize_keeps_signer (Octets.zero 32) mirror mirror_formed
  obtain ⟨key, recovered⟩ := mirror_recovers
  exact ⟨normalized, _, made, found key recovered,
    refused mirror List.mem_cons_self (by decide +kernel)⟩

variable {other : Signature}

/-- A component is no scalar, or the recovery byte is none of the chain. -/
def Malformed (signature : Signature) : Prop :=
  (signature.r.toNat = 0 ∨ Curve.order ≤ signature.r.toNat) ∨
    (signature.s.toNat = 0 ∨ Curve.order ≤ signature.s.toNat) ∨
      (signature.v ≠ 27 ∧ signature.v ≠ 28)

theorem malformed_of_not_isScalar {value : Nat} (other : Curve.isScalar value ≠ true) :
    value = 0 ∨ Curve.order ≤ value := by
  rw [Ne, Curve.isScalar_iff] at other
  omega

theorem wellFormed_of_not_malformed (formed : ¬ signature.Malformed) : signature.WellFormed where
  r := by
    by_contra noScalar
    exact formed (.inl (malformed_of_not_isScalar noScalar))
  s := by
    by_contra noScalar
    exact formed (.inr (.inl (malformed_of_not_isScalar noScalar)))
  recovery := by
    by_contra neither
    exact formed (.inr (.inr (not_or.mp neither)))

theorem WellFormed.not_malformed (formed : signature.WellFormed) : ¬ signature.Malformed := by
  have r := Curve.isScalar_iff.mp formed.r
  have s := Curve.isScalar_iff.mp formed.s
  rintro (first | second | neither)
  · omega
  · omega
  · exact formed.recovery.elim neither.1 neither.2

theorem normalize_of_not_wellFormed (unformed : ¬ signature.WellFormed) :
    ∃ fault, signature.normalize = .error (.signature fault) := by
  by_cases scalars :
      (Curve.isScalar signature.r.toNat && Curve.isScalar signature.s.toNat) = true
  · have other : ¬ (signature.v = 27 ∨ signature.v = 28) := by
      intro recovery
      rw [Bool.and_eq_true] at scalars
      exact unformed ⟨scalars.1, scalars.2, recovery⟩
    refine ⟨.recoveryMissing, ?_⟩
    rw [normalize, checkScalars, if_pos scalars, checkRecovery, recoveryNumber?, if_neg other]
    rfl
  · refine ⟨.scalars, ?_⟩
    rw [normalize, checkScalars, if_neg scalars]
    rfl

/-- Of a signature and its twin, the one whose second scalar is low. -/
def lowForm (signature : Signature) : Signature :=
  if Curve.isHigh signature.s.toNat then signature.twin else signature

theorem normalize_eq_lowForm (formed : signature.WellFormed) :
    signature.normalize = .ok signature.lowForm :=
  normalize_eq formed

theorem lowForm_of_low (low : Curve.isHigh signature.s.toNat = false) :
    signature.lowForm = signature := by
  rw [lowForm, if_neg (by simp [low])]

theorem lowForm_of_high (high : Curve.isHigh signature.s.toNat = true) :
    signature.lowForm = signature.twin :=
  if_pos high

theorem WellFormed.lowForm (formed : signature.WellFormed) : signature.lowForm.WellFormed := by
  rcases high : Curve.isHigh signature.s.toNat with _ | _
  · rwa [lowForm_of_low high]
  · rw [lowForm_of_high high]
    exact formed.twin

theorem isHigh_lowForm (formed : signature.WellFormed) :
    Curve.isHigh signature.lowForm.s.toNat = false := by
  rcases high : Curve.isHigh signature.s.toNat with _ | _
  · rw [lowForm_of_low high, high]
  · rw [lowForm_of_high high, isHigh_twin formed, high, Bool.not_true]

/-- The two signatures have the same first scalar, opposite second ones, and opposite recovery
bytes. -/
structure TwinOf (other signature : Signature) : Prop where
  r : other.r = signature.r
  s : other.s.toNat = Curve.order - signature.s.toNat
  recovery : signature.v = 27 ∧ other.v = 28 ∨ signature.v = 28 ∧ other.v = 27

theorem twinOf_twin (formed : signature.WellFormed) : signature.twin.TwinOf signature where
  r := rfl
  s := toNat_twin signature
  recovery := by
    rcases formed.recovery with even | odd
    · exact .inl ⟨even, by simp [twin, even]⟩
    · exact .inr ⟨odd, by simp [twin, odd]⟩

/-- There is one twin only. -/
theorem TwinOf.eq_twin (twins : other.TwinOf signature) : other = signature.twin := by
  obtain ⟨r, s, v⟩ := other
  obtain ⟨sameR, oppositeS, oppositeV⟩ := twins
  have second : s = signature.twin.s := by
    rw [← Octets.ofNat_toNat s, oppositeS, ← toNat_twin, Octets.ofNat_toNat]
  have recovery : v = signature.twin.v := by
    rcases oppositeV with ⟨even, same⟩ | ⟨odd, same⟩
    · simpa [twin, even] using same
    · simpa [twin, odd] using same
  rw [show r = signature.twin.r from sameR, second, recovery]

theorem TwinOf.symm (formed : signature.WellFormed) (twins : other.TwinOf signature) :
    signature.TwinOf other where
  r := twins.r.symm
  s := by
    have below := (Curve.isScalar_iff.mp formed.s).2
    rw [twins.s, Nat.sub_sub_self below.le]
  recovery := by
    rcases twins.recovery with ⟨even, odd⟩ | ⟨odd, even⟩
    · exact .inr ⟨odd, even⟩
    · exact .inl ⟨even, odd⟩

theorem lowForm_twin (formed : signature.WellFormed) :
    signature.twin.lowForm = signature.lowForm := by
  have opposite := isHigh_twin formed
  rcases high : Curve.isHigh signature.s.toNat with _ | _
  · rw [high, Bool.not_false] at opposite
    rw [lowForm_of_high opposite, lowForm_of_low high,
      ← ((twinOf_twin formed).symm formed).eq_twin]
  · rw [high, Bool.not_true] at opposite
    rw [lowForm_of_low opposite, lowForm_of_high high]

/-! ## Normalising -/

theorem isHigh_iff {value : Nat} : Curve.isHigh value = true ↔ (Curve.order - 1) / 2 < value := by
  have half : Curve.order / 2 = (Curve.order - 1) / 2 := by decide
  rw [Curve.isHigh, decide_eq_true_iff, half]

/-- Exactly the malformed signatures are refused. Of all others the low form is made: the first
scalar is kept, and so are the second one and the recovery byte if the second one is low; otherwise
both are replaced by their opposites. The low form is low, is its own low form, and is that of the
twin as well. -/
theorem normalize_projects (signature : Signature) :
    ((∃ fault, signature.normalize = .error (.signature fault)) ↔ signature.Malformed) ∧
      (¬ signature.Malformed → ∃ normalized, signature.normalize = .ok normalized ∧
        normalized.r = signature.r ∧
        (signature.s.toNat ≤ (Curve.order - 1) / 2 →
          normalized.s = signature.s ∧ normalized.v = signature.v) ∧
        ((Curve.order - 1) / 2 < signature.s.toNat →
          normalized.s.toNat = Curve.order - signature.s.toNat ∧
            (signature.v = 27 ∧ normalized.v = 28 ∨ signature.v = 28 ∧ normalized.v = 27)) ∧
        normalized.s.toNat ≤ (Curve.order - 1) / 2 ∧
        normalized.normalize = .ok normalized ∧
        ∀ other : Signature, other.TwinOf signature → other.normalize = .ok normalized) := by
  constructor
  · constructor
    · rintro ⟨fault, refused⟩
      by_contra formed
      rw [normalize_eq_lowForm (wellFormed_of_not_malformed formed)] at refused
      cases refused
    · intro malformed
      exact normalize_of_not_wellFormed fun formed => formed.not_malformed malformed
  · intro notMalformed
    have formed := wellFormed_of_not_malformed notMalformed
    have low := isHigh_lowForm formed
    refine ⟨signature.lowForm, normalize_eq_lowForm formed, ?_, ?_, ?_, low_of_not_isHigh low,
      ?_, ?_⟩
    · unfold lowForm
      split <;> rfl
    · intro small
      have notHigh : Curve.isHigh signature.s.toNat = false := by
        rw [Bool.eq_false_iff, Ne, isHigh_iff]
        exact Nat.not_lt.mpr small
      rw [lowForm_of_low notHigh]
      exact ⟨rfl, rfl⟩
    · intro large
      have twins := twinOf_twin formed
      rw [lowForm_of_high (isHigh_iff.mpr large)]
      exact ⟨twins.s, twins.recovery⟩
    · rw [normalize_eq_lowForm formed.lowForm, lowForm_of_low low]
    · intro other twins
      rw [twins.eq_twin, normalize_eq_lowForm formed.twin, lowForm_twin formed]

/-- The second scalar is the least one that is high, so that its opposite is one less. -/
def leastHigh : Signature :=
  ⟨Octets.ofNat 32 1, Octets.ofNat 32 ((Curve.order + 1) / 2), 27⟩

theorem normalize_projects_leastHigh :
    ¬ leastHigh.Malformed ∧ ∃ normalized, leastHigh.normalize = .ok normalized ∧
      normalized.s.toNat = (Curve.order - 1) / 2 ∧ normalized.v = 28 ∧
      normalized.normalize = .ok normalized := by
  have r : leastHigh.r.toNat = 1 := Octets.toNat_ofNat (by decide)
  have s : leastHigh.s.toNat = (Curve.order + 1) / 2 := Octets.toNat_ofNat (by decide)
  have formed : ¬ leastHigh.Malformed := by
    rw [Malformed, r, s]
    decide
  obtain ⟨normalized, made, _, _, opposite, _, again, _⟩ :=
    (normalize_projects leastHigh).2 formed
  obtain ⟨second, recovery⟩ := opposite (by rw [s]; decide)
  refine ⟨formed, normalized, made, ?_, ?_, again⟩
  · rw [second, s]
    decide
  · rcases recovery with ⟨_, odd⟩ | ⟨other, _⟩
    · exact odd
    · exact absurd other (by decide)

end Countersign.Signature
