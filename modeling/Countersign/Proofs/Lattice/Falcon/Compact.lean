import Countersign.Proofs.Lattice.Falcon.Accumulator
import Countersign.Proofs.Lattice.OnChain

/-!
What the verifying contract is given is laid out plainly: the salt, and behind it each coefficient
in two bytes, the lowest first. That holds whether the body came in plain or compressed form, and
whatever else comes in is a protocol error, for no coefficient of a body is too wide to be packed.
The values of a compressed body are elements of the field; those of a plain body are passed on as
they are.
-/

namespace Countersign.Lattice.Falcon

variable {signedMessage body : Bytes} {messageLength : UInt64}

/-- A signed message whose lengths agree and whose signature starts with the mark. The body is
what follows the mark. -/
structure Framed (signedMessage : Bytes) (messageLength : Nat) (body : Bytes) : Prop where
  long : 42 + messageLength < signedMessage.length
  declared : Bytes.toNatBE (signedMessage.extract 0 2) = signedMessage.length - 42 - messageLength
  marked : signedMessage[42 + messageLength]? = some 0x29
  behind : signedMessage.drop (42 + messageLength + 1) = body

theorem framed_iff {messageLength : Nat} :
    Framed signedMessage messageLength body ↔
      signedMessage.drop (headLength + messageLength) = signatureMark :: body ∧
        Bytes.toNatBE (signedMessage.take 2) = body.length + 1 := by
  constructor
  · rintro ⟨long, declared, marked, rfl⟩
    obtain ⟨inside, mark⟩ := List.getElem?_eq_some_iff.mp marked
    refine ⟨?_, ?_⟩
    · rw [headLength, List.drop_eq_getElem_cons inside, mark, signatureMark]
    · have front : signedMessage.take 2 = signedMessage.extract 0 2 := by
        simp [List.extract_eq_take_drop]
      rw [front, declared, List.length_drop]
      omega
  · rintro ⟨found, declared⟩
    have length := congrArg List.length found
    simp only [List.length_drop, List.length_cons, headLength] at length
    refine ⟨by omega, ?_, ?_, ?_⟩
    · simp only [List.extract_eq_take_drop, List.drop_zero, Nat.sub_zero, declared]
      omega
    · have head := congrArg List.head? found
      simpa [headLength, signatureMark] using head
    · have tail := congrArg List.tail found
      simpa [headLength] using tail

theorem compact_of_framed (representable : 42 + messageLength.toNat < UInt64.size)
    (framed : Framed signedMessage messageLength.toNat body) :
    compact signedMessage messageLength =
      ((bodyCoefficients body >>= pack 16).mapError Halt.failure).map fun words =>
        signedMessage.extract 2 42 ++ wordBytes words := by
  obtain ⟨found, declared⟩ := framed_iff.mp framed
  have fits : ¬ UInt64.size ≤ headLength + messageLength.toNat := Nat.not_le.mpr representable
  have salt : (signedMessage.take headLength).drop 2 = signedMessage.extract 2 42 := by
    rw [List.drop_take, List.extract_eq_take_drop, headLength]
  simp only [compact, if_neg fits, found, declared, salt, ne_eq, not_true_eq_false, if_false]
  cases bodyCoefficients body >>= pack 16 <;> rfl

theorem compact_of_unframed (representable : 42 + messageLength.toNat < UInt64.size)
    (unframed : ∀ body, ¬ Framed signedMessage messageLength.toNat body) :
    ∃ violation, compact signedMessage messageLength = .error (.failure (.protocol violation)) := by
  have fits : ¬ UInt64.size ≤ headLength + messageLength.toNat := Nat.not_le.mpr representable
  simp only [compact, if_neg fits]
  cases found : signedMessage.drop (headLength + messageLength.toNat) with
  | nil => exact ⟨_, rfl⟩
  | cons mark body =>
      by_cases declared : body.length + 1 = Bytes.toNatBE (signedMessage.take 2)
      · by_cases marked : mark = signatureMark
        · subst marked
          exact absurd (framed_iff.mpr ⟨found, declared.symm⟩) (unframed body)
        · simp [declared, marked]
      · simp [declared]

/-- The coefficients that stand in a body: plain in one of 1024 bytes, and compressed in any
other. -/
inductive Holds (body : Bytes) (coefficient : Fin degree → Nat) : Prop where
  | plain (length : body.length = 1024)
      (read : ∀ place : Fin degree,
        coefficient place = Bytes.toNatBE (body.extract (2 * place) (2 * place + 2)))
  | compressed (length : body.length ≠ 1024) {value : Fin degree → Int}
      (read : readBody body = .ok (List.ofFn value))
      (reduced : ∀ place, (coefficient place : Int) = value place % 12289)

theorem Holds.lt {coefficient : Fin degree → Nat} (holds : Holds body coefficient)
    (place : Fin degree) :
    coefficient place < 2 ^ 16 := by
  cases holds with
  | plain _ read =>
      have two : (body.extract (2 * place) (2 * place + 2)).length ≤ 2 := by
        simp [List.extract_eq_take_drop]
      rw [read place]
      exact lt_of_lt_of_le (Bytes.toNatBE_lt _) (Nat.pow_le_pow_right (by decide) two)
  | compressed _ _ reduced =>
      have here := reduced place
      omega

/-- Two bytes to a coefficient: the pieces of a plain body are its coefficients. -/
theorem pieces_of_plain (length : body.length = 1024) :
    Bytes.pieces 2 body =
      List.ofFn fun place : Fin degree => body.extract (2 * place) (2 * place + 2) := by
  have count : (Bytes.pieces 2 body).length = degree :=
    Bytes.length_pieces (by decide) degree length
  apply List.ext_getElem
  · simp [count]
  · intro place inside inRange
    rw [Bytes.getElem_pieces (by decide)]
    simp [List.extract_eq_take_drop, Nat.mul_comm]

theorem bodyCoefficients_of_long (length : body.length ≠ 1024) :
    bodyCoefficients body = (readBody body).map (List.map toField) := by
  rw [bodyCoefficients, plainLength, if_neg length, readBody_eq]
  cases decompress body <;> rfl

theorem Encodes.eq_ofFn {values : List Int} (encodes : Encodes body values) :
    ∃ value : Fin degree → Int, values = List.ofFn value := by
  obtain ⟨length, _, _⟩ := encodes
  rw [← length]
  exact ⟨values.get, (List.ofFn_get values).symm⟩

theorem bodyCoefficients_eq_ok_iff {coefficients : List UInt32} :
    bodyCoefficients body = .ok coefficients ↔
      ∃ coefficient : Fin degree → Nat, Holds body coefficient ∧
        coefficients = List.ofFn fun place => UInt32.ofNat (coefficient place) := by
  by_cases length : body.length = 1024
  · have plain : bodyCoefficients body =
        .ok (List.ofFn fun place : Fin degree =>
          UInt32.ofNat (Bytes.toNatBE (body.extract (2 * place) (2 * place + 2)))) := by
      rw [bodyCoefficients, plainLength, if_pos length, pieces_of_plain length, List.map_ofFn,
        Function.comp_def]
    rw [plain, Except.ok.injEq]
    constructor
    · rintro rfl
      exact ⟨fun place => Bytes.toNatBE (body.extract (2 * place) (2 * place + 2)),
        .plain length fun _ => rfl, rfl⟩
    · rintro ⟨coefficient, holds, same⟩
      rw [same]
      cases holds with
      | plain _ read => simp only [read]
      | compressed long _ _ => exact absurd length long
  · rw [bodyCoefficients_of_long length]
    constructor
    · intro read
      obtain ⟨values, readValues, rfl⟩ := Result.map_eq_ok read
      obtain ⟨value, same⟩ := (readBody_eq_ok_iff.mp readValues).eq_ofFn
      rw [same] at readValues ⊢
      refine ⟨fun place => (value place % 12289).toNat,
        .compressed length readValues fun place => by omega, ?_⟩
      rw [List.map_ofFn, Function.comp_def]
      simp only [toField, modulus, Nat.cast_ofNat]
    · rintro ⟨coefficient, holds, same⟩
      rw [same]
      cases holds with
      | plain plainLength _ => exact absurd plainLength length
      | compressed _ read reduced =>
          simp only [read, Except.map, List.map_ofFn, Function.comp_def, toField, modulus,
            Nat.cast_ofNat, ← reduced, Int.toNat_natCast]

/-- Whatever is read from a body is narrow enough to be packed. -/
theorem Holds.packed {coefficient : Fin degree → Nat} (holds : Holds body coefficient) :
    ∃ words, pack 16 (List.ofFn fun place => UInt32.ofNat (coefficient place)) = .ok words ∧
      wordBytes words = (List.ofFn coefficient).flatMap (Bytes.ofNatLE 2) := by
  have values : ∀ place, (UInt32.ofNat (coefficient place)).toNat = coefficient place := by
    intro place
    exact UInt32.toNat_ofNat_of_lt' (lt_of_lt_of_le (holds.lt place) (by decide))
  have fills : coefficientsPerWord 16 = .ok 16 := rfl
  have narrow : Narrow 16 (List.ofFn fun place => UInt32.ofNat (coefficient place)) := by
    simpa [Narrow, List.forall_mem_ofFn_iff, values] using holds.lt
  have whole : 16 ∣ (List.ofFn fun place => UInt32.ofNat (coefficient place)).length := by
    rw [List.length_ofFn]
    decide
  have packed := (pack_eq_ok_iff fills).mpr ⟨whole, narrow, rfl⟩
  refine ⟨_, packed, ?_⟩
  rw [wordBytes_pack 2 packed]
  simp [List.flatMap_def, List.map_ofFn, Function.comp_def, values]

/-! ## The whole -/

theorem exists_holds
    (accepted : body.length = 1024 ∨ ∃ values, readBody body = .ok values) :
    ∃ coefficient, Holds body coefficient := by
  by_cases length : body.length = 1024
  · exact ⟨_, .plain length fun _ => rfl⟩
  · obtain ⟨values, read⟩ := accepted.resolve_left length
    obtain ⟨value, same⟩ := (readBody_eq_ok_iff.mp read).eq_ofFn
    rw [same] at read
    exact ⟨fun place => (value place % 12289).toNat,
      .compressed length read fun place => by omega⟩

theorem compact_of_holds (representable : 42 + messageLength.toNat < UInt64.size)
    (framed : Framed signedMessage messageLength.toNat body) {coefficient : Fin degree → Nat}
    (holds : Holds body coefficient) :
    compact signedMessage messageLength =
      .ok (signedMessage.extract 2 42 ++ (List.ofFn coefficient).flatMap (Bytes.ofNatLE 2)) := by
  have read := bodyCoefficients_eq_ok_iff.mpr ⟨coefficient, holds, rfl⟩
  obtain ⟨words, packed, written⟩ := holds.packed
  rw [compact_of_framed representable framed, read, Result.ok_bind, packed, Except.mapError,
    Except.map, written]

theorem compact_of_unread (representable : 42 + messageLength.toNat < UInt64.size)
    (framed : Framed signedMessage messageLength.toNat body) (length : body.length ≠ 1024)
    (unread : ∀ values, readBody body ≠ .ok values) :
    ∃ fault, compact signedMessage messageLength =
      .error (.failure (.protocol (.compression fault))) := by
  obtain ⟨fault, refused⟩ := readBody_of_not_encodes fun values encodes =>
    unread values (readBody_eq_ok_iff.mpr encodes)
  refine ⟨fault, ?_⟩
  rw [compact_of_framed representable framed, bodyCoefficients_of_long length, refused]
  rfl

/-- A signed message is laid out, or it is a protocol error. -/
theorem compact_cases (representable : 42 + messageLength.toNat < UInt64.size) :
    (∃ body coefficient, Framed signedMessage messageLength.toNat body ∧ Holds body coefficient ∧
      compact signedMessage messageLength =
        .ok (signedMessage.extract 2 42 ++ (List.ofFn coefficient).flatMap (Bytes.ofNatLE 2))) ∨
    ∃ violation, compact signedMessage messageLength = .error (.failure (.protocol violation)) := by
  by_cases framed : ∃ body, Framed signedMessage messageLength.toNat body
  · obtain ⟨body, framed⟩ := framed
    by_cases accepted : body.length = 1024 ∨ ∃ values, readBody body = .ok values
    · obtain ⟨coefficient, holds⟩ := exists_holds accepted
      exact .inl ⟨body, coefficient, framed, holds, compact_of_holds representable framed holds⟩
    · obtain ⟨length, unread⟩ := not_or.mp accepted
      obtain ⟨fault, refused⟩ :=
        compact_of_unread representable framed length (not_exists.mp unread)
      exact .inr ⟨_, refused⟩
  · exact .inr (compact_of_unframed representable (not_exists.mp framed))

theorem eq_of_compact_eq_ok (representable : 42 + messageLength.toNat < UInt64.size)
    {signature : Bytes} (compacted : compact signedMessage messageLength = .ok signature) :
    ∃ body coefficient, Framed signedMessage messageLength.toNat body ∧
      Holds body coefficient ∧ signature =
        signedMessage.extract 2 42 ++ (List.ofFn coefficient).flatMap (Bytes.ofNatLE 2) := by
  rcases compact_cases representable with ⟨_, _, framed, holds, cut⟩ | ⟨violation, refused⟩
  · rw [cut] at compacted
    cases compacted
    exact ⟨_, _, framed, holds, rfl⟩
  · rw [refused] at compacted
    cases compacted

/-- A signed message is cut into the salt and the coefficients of its body, each in two bytes with
the lowest first, if it is framed and its body is plain or compressed. Otherwise it is a protocol
error, and packing the coefficients is never the reason. -/
theorem compact_lays_out (signedMessage : Bytes) (messageLength : UInt64)
    (representable : 42 + messageLength.toNat < UInt64.size) :
    ((∀ body, ¬ Framed signedMessage messageLength.toNat body) →
      ∃ violation, compact signedMessage messageLength =
        .error (.failure (.protocol violation))) ∧
    (∀ body, Framed signedMessage messageLength.toNat body →
      (body.length ≠ 1024 → (∀ values, readBody body ≠ .ok values) →
        ∃ violation, compact signedMessage messageLength =
          .error (.failure (.protocol violation))) ∧
      (body.length = 1024 ∨ (∃ values, readBody body = .ok values) →
        ∃ signature, compact signedMessage messageLength = .ok signature)) ∧
    (∀ body coefficients, bodyCoefficients body = .ok coefficients →
      ∃ words, pack 16 coefficients = .ok words) ∧
    (∀ signature, compact signedMessage messageLength = .ok signature →
      signature.length = 1064 ∧
      ∃ body coefficient, Framed signedMessage messageLength.toNat body ∧
        Holds body coefficient ∧ signature =
          signedMessage.extract 2 42 ++ (List.ofFn coefficient).flatMap (Bytes.ofNatLE 2)) := by
  refine ⟨compact_of_unframed representable, ?framed, ?packed, ?laidOut⟩
  case framed =>
    intro body framed
    constructor
    · intro length unread
      obtain ⟨fault, refused⟩ := compact_of_unread representable framed length unread
      exact ⟨_, refused⟩
    · intro accepted
      obtain ⟨coefficient, holds⟩ := exists_holds accepted
      exact ⟨_, compact_of_holds representable framed holds⟩
  case packed =>
    intro body coefficients read
    obtain ⟨coefficient, holds, same⟩ := bodyCoefficients_eq_ok_iff.mp read
    obtain ⟨words, packed, _⟩ := holds.packed
    rw [same]
    exact ⟨words, packed⟩
  case laidOut =>
    intro signature compacted
    exact ⟨length_compact compacted, eq_of_compact_eq_ok representable compacted⟩

/-- A salt of one byte value, a message of three bytes and a plain body with one coefficient all
over. -/
def evenMessage : Bytes :=
  [0x04, 0x01] ++ List.replicate 40 0xaa ++ [1, 2, 3] ++ [0x29] ++
    (List.replicate 512 [0x01, 0x02]).flatten

theorem framed_evenMessage :
    Framed evenMessage 3 (List.replicate 512 [0x01, 0x02]).flatten where
  long := by decide +kernel
  declared := by decide +kernel
  marked := by decide +kernel
  behind := by decide +kernel

theorem compact_lays_out_even :
    42 + (3 : UInt64).toNat < UInt64.size ∧
      ∃ signature, compact evenMessage 3 = .ok signature ∧ signature.length = 1064 := by
  have representable : 42 + (3 : UInt64).toNat < UInt64.size := by decide
  obtain ⟨_, accepted, _, laidOut⟩ := compact_lays_out evenMessage 3 representable
  have plain : ((List.replicate 512 [(0x01 : UInt8), 0x02]).flatten).length = 1024 := by
    decide +kernel
  obtain ⟨signature, compacted⟩ := (accepted _ framed_evenMessage).2 (.inl plain)
  exact ⟨representable, signature, compacted, (laidOut signature compacted).1⟩

variable {signature : Bytes}

/-- The number in the two bytes of a place behind the salt, the lowest byte first. -/
def storedValue (signature : Bytes) (place : Fin degree) : Nat :=
  Bytes.toNatLE (signature.extract (40 + 2 * place) (40 + 2 * place + 2))

/-- The number in the two bytes of a place of a plain body, the highest byte first. -/
def plainValue (body : Bytes) (place : Fin degree) : Nat :=
  Bytes.toNatBE (body.extract (2 * place) (2 * place + 2))

/-- Behind forty bytes, what is stored at a place are the two bytes that were written for it. -/
theorem storedValue_append {salt : Bytes} (salted : salt.length = 40)
    {coefficient : Fin degree → Nat} (narrow : ∀ place, coefficient place < 2 ^ 16)
    (place : Fin degree) :
    storedValue (salt ++ (List.ofFn coefficient).flatMap (Bytes.ofNatLE 2)) place =
      coefficient place := by
  have full : ∀ block ∈ (List.ofFn coefficient).map (Bytes.ofNatLE 2), block.length = 2 := by
    intro block member
    obtain ⟨value, _, rfl⟩ := List.mem_map.mp member
    exact Bytes.length_ofNatLE 2 value
  have pieces := Bytes.pieces_flatten (by decide : 0 < 2) full
  have inside : place.val < (Bytes.pieces 2 ((List.ofFn coefficient).map
      (Bytes.ofNatLE 2)).flatten).length := by
    rw [pieces]
    simp
  have here := Bytes.getElem_pieces (by decide : 0 < 2) place.val inside
  have written : (Bytes.pieces 2 ((List.ofFn coefficient).map (Bytes.ofNatLE 2)).flatten)[
      place.val] = Bytes.ofNatLE 2 (coefficient place) := by
    simp only [pieces, List.getElem_map, List.getElem_ofFn]
  have behind : (salt ++ (List.ofFn coefficient).flatMap (Bytes.ofNatLE 2)).extract
      (40 + 2 * place) (40 + 2 * place + 2) = Bytes.ofNatLE 2 (coefficient place) := by
    rw [← written, here, List.flatMap_def, List.extract_eq_take_drop, List.drop_append, salted,
      List.drop_of_length_le (by rw [salted]; omega), List.nil_append, Nat.add_sub_cancel_left,
      Nat.add_sub_cancel_left, Nat.mul_comm]
  rw [storedValue, behind, Bytes.toNatLE_ofNatLE]
  exact Nat.mod_eq_of_lt (narrow place)

/-- What is cut without a crash was short enough to be cut. -/
theorem representable_of_compact (compacted : compact signedMessage messageLength = .ok signature) :
    42 + messageLength.toNat < UInt64.size := by
  by_contra long
  have crashed : compact signedMessage messageLength = .error .crash :=
    if_pos (Nat.le_of_not_lt long)
  rw [crashed] at compacted
  cases compacted

theorem exists_stored (compacted : compact signedMessage messageLength = .ok signature) :
    ∃ body, Framed signedMessage messageLength.toNat body ∧ Holds body (storedValue signature) := by
  have representable := representable_of_compact compacted
  obtain ⟨body, coefficient, framed, holds, rfl⟩ := eq_of_compact_eq_ok representable compacted
  have long := framed.long
  have salted : (signedMessage.extract 2 42).length = 40 := by
    rw [List.extract_eq_take_drop, List.length_take, List.length_drop]
    omega
  have same : storedValue (signedMessage.extract 2 42 ++
      (List.ofFn coefficient).flatMap (Bytes.ofNatLE 2)) = coefficient :=
    funext (storedValue_append salted holds.lt)
  rw [same]
  exact ⟨body, framed, holds⟩

theorem Holds.eq_plainValue {coefficient : Fin degree → Nat} (holds : Holds body coefficient)
    (plain : body.length = 1024) (place : Fin degree) :
    coefficient place = plainValue body place := by
  cases holds with
  | plain _ read => exact read place
  | compressed long _ _ => exact absurd plain long

theorem Holds.exists_encodes {coefficient : Fin degree → Nat} (holds : Holds body coefficient)
    (compressed : body.length ≠ 1024) : ∃ coefficients, Encodes body coefficients := by
  cases holds with
  | plain length _ => exact absurd length compressed
  | compressed _ read _ => exact ⟨_, readBody_eq_ok_iff.mp read⟩

/-- Compressed coefficients are small, so that they come to lie at either end of the field. -/
theorem Holds.near_zero {coefficient : Fin degree → Nat} (holds : Holds body coefficient)
    (compressed : body.length ≠ 1024) (place : Fin degree) :
    coefficient place ≤ 2047 ∨
      12289 - 2047 ≤ coefficient place ∧ coefficient place < 12289 := by
  cases holds with
  | plain length _ => exact absurd length compressed
  | @compressed _ value read reduced =>
      obtain ⟨low, high⟩ := (readBody_eq_ok_iff.mp read).inRange (value place)
        (List.mem_ofFn.mpr ⟨place, rfl⟩)
      have here := reduced place
      omega

theorem Holds.reduced_iff {coefficient : Fin degree → Nat} (holds : Holds body coefficient) :
    (∀ place, coefficient place < 12289) ↔
      (body.length = 1024 → ∀ place, plainValue body place < 12289) := by
  constructor
  · intro reduced plain place
    rw [← holds.eq_plainValue plain place]
    exact reduced place
  · intro reduced place
    by_cases plain : body.length = 1024
    · rw [holds.eq_plainValue plain place]
      exact reduced plain place
    · have near := holds.near_zero plain place
      omega

/-- The values that the contract is given are below the modulus if and only if they were so in the
body, or the body was compressed. A compressed body that no polynomial is written as is refused. -/
theorem values_reduced_iff (signedMessage : Bytes) (messageLength : UInt64) :
    (∀ signature, compact signedMessage messageLength = .ok signature →
      signature.length = 1064 ∧ ∃ body, Framed signedMessage messageLength.toNat body ∧
        ((∀ place, storedValue signature place < 12289) ↔
          (body.length = 1024 → ∀ place, plainValue body place < 12289)) ∧
        (body.length = 1024 → ∀ place, storedValue signature place = plainValue body place) ∧
        (body.length ≠ 1024 → (∃ coefficients, Encodes body coefficients) ∧
          ∀ place, storedValue signature place ≤ 2047 ∨
            12289 - 2047 ≤ storedValue signature place ∧ storedValue signature place < 12289)) ∧
      (∀ body, compact signedMessage messageLength ≠ .error .crash →
        Framed signedMessage messageLength.toNat body → body.length ≠ 1024 →
          (∀ coefficients, ¬ Encodes body coefficients) → ∃ fault,
            compact signedMessage messageLength =
              .error (.failure (.protocol (.compression fault)))) := by
  refine ⟨?given, ?refused⟩
  case given =>
    intro signature compacted
    obtain ⟨body, framed, holds⟩ := exists_stored compacted
    exact ⟨length_compact compacted, body, framed, holds.reduced_iff, holds.eq_plainValue,
      fun compressed => ⟨holds.exists_encodes compressed, holds.near_zero compressed⟩⟩
  case refused =>
    intro body started framed compressed none
    have representable : 42 + messageLength.toNat < UInt64.size := by
      by_contra long
      exact started (if_pos (Nat.le_of_not_lt long))
    exact compact_of_unread representable framed compressed fun values read =>
      none values (readBody_eq_ok_iff.mp read)

/-- A signed message of an empty message with a plain body, whose first coefficient is the modulus
and whose others are zero. -/
def modulusMessage : Bytes :=
  [0x04, 0x01] ++ Bytes.zeros 40 ++ [0x29] ++ [0x30, 0x01] ++ Bytes.zeros 1022

/-- The body of `modulusMessage`. -/
def modulusBody : Bytes :=
  [0x30, 0x01] ++ Bytes.zeros 1022

theorem framed_modulusMessage : Framed modulusMessage 0 modulusBody where
  long := by decide +kernel
  declared := by decide +kernel
  marked := by decide +kernel
  behind := by decide +kernel

/-- A coefficient that is not reduced is passed on to the contract. -/
theorem unreduced_passed_on :
    ¬ ∀ (signedMessage : Bytes) (messageLength : UInt64) (signature : Bytes),
      compact signedMessage messageLength = .ok signature →
        ∀ place, storedValue signature place < 12289 := by
  intro always
  have plain : modulusBody.length = 1024 := by decide +kernel
  obtain ⟨coefficient, holds⟩ : ∃ coefficient, Holds modulusBody coefficient :=
    exists_holds (.inl plain)
  have framedEmpty : Framed modulusMessage (0 : UInt64).toNat modulusBody := framed_modulusMessage
  have compacted := compact_of_holds (by decide) framedEmpty holds
  obtain ⟨body, framed, stored⟩ := exists_stored compacted
  have same : body = modulusBody := framed.behind.symm.trans framed_modulusMessage.behind
  have reduced := always _ _ _ compacted ⟨0, by decide⟩
  rw [stored.eq_plainValue (by rw [same]; exact plain), same] at reduced
  revert reduced
  decide +kernel

end Countersign.Lattice.Falcon
