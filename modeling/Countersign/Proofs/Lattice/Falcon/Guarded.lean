import Countersign.Proofs.Lattice.Falcon.Compact
import Countersign.Proofs.Task

/-!
Of all the guarded steps that cut a signed message, one can be a crash: the sum that tells where the
signature starts. Every other one is in range whatever the message holds, so that cutting yields the
signature or a protocol error unless the sum does not fit 64 bits.
-/

namespace Countersign.Lattice.Falcon.Guarded

open Countersign.Guarded

/-- The register that holds what an accumulator holds. -/
def register (acc : Accumulator) : Register :=
  ⟨acc.word, UInt32.ofNat acc.unread, acc.bytes⟩

/-- A guarded result follows one of reading with an accumulator: the same fault, or a like value
with the same bits left, of which less than a byte are in the word. -/
inductive Follows {α β : Type} (alike : β → α → Prop) :
    Except Halt (β × Register) → Except CompressionFault (α × Accumulator) → Prop
  | error (fault : CompressionFault) : Follows alike (.error (malformed fault)) (.error fault)
  | ok {found : β} {value : α} (acc : Accumulator) (same : alike found value)
      (few : acc.unread < 8) : Follows alike (.ok (found, register acc)) (.ok (value, acc))

theorem Follows.bind {α β γ δ : Type} {alike : β → α → Prop} {alikeNext : δ → γ → Prop}
    {result : Except Halt (β × Register)} {spec : Except CompressionFault (α × Accumulator)}
    (follows : Follows alike result spec) {next : β × Register → Except Halt (δ × Register)}
    {nextSpec : α × Accumulator → Except CompressionFault (γ × Accumulator)}
    (later : ∀ found value acc, alike found value → acc.unread < 8 →
      Follows alikeNext (next (found, register acc)) (nextSpec (value, acc))) :
    Follows alikeNext (result >>= next) (spec >>= nextSpec) := by
  cases follows with
  | error fault => exact .error fault
  | ok acc same few => exact later _ _ acc same few

section Inversion

variable {α β : Type} {alike : β → α → Prop} {result : Except Halt (β × Register)}
  {spec : Except CompressionFault (α × Accumulator)}

theorem Follows.eq_error (follows : Follows alike result spec) {fault : CompressionFault}
    (stopped : spec = .error fault) : result = .error (malformed fault) := by
  subst stopped
  cases follows
  rfl

theorem Follows.eq_ok (follows : Follows alike result spec) {value : α} {acc : Accumulator}
    (read : spec = .ok (value, acc)) :
    ∃ found, result = .ok (found, register acc) ∧ alike found value ∧ acc.unread < 8 := by
  subst read
  cases follows with
  | ok acc same few => exact ⟨_, rfl, same, few⟩

end Inversion

theorem toNat_ofNat_of_few {count : Nat} (few : count ≤ 8) :
    (UInt32.ofNat count).toNat = count := by
  rw [UInt32.toNat_ofNat']
  omega

theorem shiftIn_cons (word unread : UInt32) (byte : UInt8) (rest : Bytes) :
    Register.shiftIn ⟨word, unread, byte :: rest⟩ =
      .ok ⟨(word <<< 8) ||| byte.toUInt32, unread, rest⟩ := by
  rw [Register.shiftIn, shiftLeft32_of_lt (by decide)]
  rfl

theorem refill_of_unread (word : UInt32) {count : Nat} (few : count < 8) (rest : Bytes) :
    (register ⟨word, count + 1, rest⟩).refill = .ok (register ⟨word, count + 1, rest⟩) := by
  have unread : UInt32.ofNat (count + 1) ≠ 0 := by
    intro none
    have zero := toNat_ofNat_of_few few
    rw [none] at zero
    cases zero
  exact if_neg unread

theorem refill_of_empty (word : UInt32) (byte : UInt8) (rest : Bytes) :
    (register ⟨word, 0, byte :: rest⟩).refill =
      .ok (register ⟨(word <<< 8) ||| byte.toUInt32, 8, rest⟩) := by
  change Register.shiftIn ⟨word, 0, byte :: rest⟩ >>= _ = _
  rw [shiftIn_cons]
  rfl

/-- With a bit to be read, counting it off and shifting it down are in range. -/
theorem readBit_of_refill {start : Register} {word : UInt32} {count : Nat} {rest : Bytes}
    (few : count < 8) (filled : start.refill = .ok (register ⟨word, count + 1, rest⟩)) :
    start.readBit =
      .ok (decide ((word >>> UInt32.ofNat count) &&& 1 ≠ 0), register ⟨word, count, rest⟩) := by
  have least : (1 : UInt32).toNat ≤ (UInt32.ofNat (count + 1)).toNat := by
    rw [toNat_ofNat_of_few few]
    exact Nat.succ_pos count
  have less : UInt32.ofNat (count + 1) - 1 = UInt32.ofNat count := by
    rw [UInt32.ofNat_add]
    exact UInt32.add_sub_cancel _ _
  have inside : (UInt32.ofNat count).toNat < 32 := by
    rw [toNat_ofNat_of_few (Nat.le_of_lt few)]
    omega
  rw [Register.readBit, filled, Result.ok_bind]
  dsimp only [register]
  rw [difference32_of_le least, less, Result.ok_bind, shiftRight32_of_lt inside, Result.ok_bind]
  rfl

theorem readBit_follows {acc : Accumulator} (few : acc.unread < 8) :
    Follows Eq (register acc).readBit acc.readBit := by
  obtain ⟨word, unread, bytes⟩ := acc
  dsimp only at few
  cases unread with
  | succ count =>
      have fewer : count < 8 := Nat.lt_of_succ_lt few
      rw [readBit_of_refill fewer (refill_of_unread word fewer bytes)]
      exact .ok ⟨word, count, bytes⟩ rfl fewer
  | zero =>
      cases bytes with
      | nil => exact .error .truncated
      | cons byte rest =>
          have fewer : 7 < 8 := Nat.lt_succ_self 7
          rw [readBit_of_refill fewer (refill_of_empty word byte rest)]
          exact .ok ⟨_, 7, rest⟩ rfl fewer

/-! ## Coefficients -/

/-- A magnitude, which is far from filling its word. -/
structure Magnitude (found : UInt32) (value : Nat) : Prop where
  same : found.toNat = value
  small : value ≤ 2047

/-- A zero bit makes a magnitude larger, with room to spare in its word. -/
theorem readUnary_of_zero {register later : Register} {found : UInt32} {value : Nat}
    (magnitude : Magnitude found value) (read : register.readBit = .ok (false, later)) :
    ∃ larger : UInt32, larger.toNat = value + 128 ∧
      register.readUnary found = if 2047 < larger then .error (malformed .outOfRange)
        else later.readUnary larger := by
  obtain ⟨rfl, small⟩ := magnitude
  have fits : found.toNat + (128 : UInt32).toNat < UInt32.size :=
    Nat.lt_of_le_of_lt (Nat.add_le_add_right small _) (by decide)
  have summed := sum32_of_fits fits
  refine ⟨found + 128, toNat_of_sum32 summed, ?_⟩
  rw [Register.readUnary, read]
  dsimp only
  split
  · rename_i halted
    rw [summed] at halted
    cases halted
  · rename_i larger done
    rw [summed] at done
    cases done
    rfl

/-- Adding up the unary part never exceeds 32 bits, since it stops at 2047. -/
theorem readUnary_follows {acc : Accumulator} {found : UInt32} {value : Nat}
    (magnitude : Magnitude found value) (few : acc.unread < 8) :
    Follows Magnitude (Register.readUnary found (register acc)) (acc.readUnary value) := by
  fun_induction Accumulator.readUnary value acc generalizing found with
  | case1 value acc fault stopped =>
      rw [Register.readUnary, (readBit_follows few).eq_error stopped]
      exact .error fault
  | case2 value acc later read =>
      obtain ⟨_, readToo, rfl, fewLater⟩ := (readBit_follows few).eq_ok read
      rw [Register.readUnary, readToo]
      exact .ok later magnitude fewLater
  | case3 value acc later read large =>
      obtain ⟨_, readToo, rfl, _⟩ := (readBit_follows few).eq_ok read
      obtain ⟨larger, sum, unfolded⟩ := readUnary_of_zero magnitude readToo
      have exceeds : 2047 < larger := UInt32.lt_iff_toNat_lt.mpr (by rw [sum]; exact large)
      rw [unfolded, if_pos exceeds]
      exact .error .outOfRange
  | case4 value acc later read within inductionHypothesis =>
      obtain ⟨_, readToo, rfl, fewLater⟩ := (readBit_follows few).eq_ok read
      obtain ⟨larger, sum, unfolded⟩ := readUnary_of_zero magnitude readToo
      have fits : ¬ 2047 < larger := by
        rw [UInt32.lt_iff_toNat_lt, sum]
        exact within
      rw [unfolded, if_neg fits]
      exact inductionHypothesis ⟨sum, Nat.not_lt.mp within⟩ fewLater

/-- The sign and the low part are in the first eight bits, which a new byte completes. -/
theorem readValue_cons (word : UInt32) {unread : Nat} (few : unread < 8) (byte : UInt8)
    (rest : Bytes) :
    Register.readValue ⟨word, UInt32.ofNat unread, byte :: rest⟩ =
      let next := (word <<< 8) ||| byte.toUInt32
      let first := next >>> UInt32.ofNat unread
      let negative := decide (first &&& 0x80 ≠ 0)
      match Register.readUnary (first &&& 0x7F) ⟨next, UInt32.ofNat unread, rest⟩ with
      | .error halt => .error halt
      | .ok (magnitude, later) =>
          if negative && magnitude = 0 then .error (malformed .negativeZero)
          else if 32767 < magnitude then .error (malformed .outOfRange)
          else if negative then (opposite16 magnitude.toNat).map (·, later)
          else .ok (magnitude.toNat, later) := by
  have own := toNat_ofNat_of_few (Nat.le_of_lt few)
  have inside : (UInt32.ofNat unread).toNat < 32 := by omega
  rw [Register.readValue, shiftIn_cons, Result.ok_bind]
  dsimp only
  rw [shiftRight32_of_lt inside, Result.ok_bind]
  generalize Register.readUnary _ _ = result
  cases result with
  | error halt => rfl
  | ok found =>
      obtain ⟨magnitude, later⟩ := found
      rw [Result.ok_bind]
      dsimp only
      split
      · rfl
      · split
        · rfl
        · split
          · cases opposite16 magnitude.toNat <;> rfl
          · rfl

theorem readValue_follows {acc : Accumulator} (few : acc.unread < 8) :
    Follows Eq (register acc).readValue acc.readValue := by
  obtain ⟨word, unread, bytes⟩ := acc
  dsimp only at few
  cases bytes with
  | nil => exact .error .truncated
  | cons byte rest =>
      rw [register, readValue_cons word few, Accumulator.readValue_cons]
      dsimp only
      generalize (word <<< 8) ||| byte.toUInt32 = next
      generalize next >>> UInt32.ofNat unread = first
      have low : Magnitude (first &&& 0x7F) (first &&& 0x7F).toNat := by
        refine ⟨rfl, ?_⟩
        rw [UInt32.toNat_and]
        exact Nat.le_trans Nat.and_le_right (by decide)
      have unary := @readUnary_follows ⟨next, unread, rest⟩ _ _ low few
      dsimp only [register] at unary
      generalize Register.readUnary _ _ = result at unary ⊢
      generalize Accumulator.readUnary _ _ = spec at unary ⊢
      cases unary with
      | error fault => exact .error fault
      | @ok found value later magnitude fewLater =>
          obtain ⟨rfl, small⟩ := magnitude
          have zero : found = 0 ↔ found.toNat = 0 := by rw [← UInt32.toNat_inj]; rfl
          have fits : ¬ 32767 < found.toNat := by omega
          have fitsToo : ¬ 32767 < found := by
            rw [UInt32.lt_iff_toNat_lt]
            exact fits
          dsimp only
          rw [if_neg fits, if_neg fitsToo]
          simp only [zero]
          split
          · exact .error .negativeZero
          · have opposite : opposite16 found.toNat = .ok (-(found.toNat : Int)) :=
              if_pos (by omega)
            rw [opposite]
            split
            · exact .ok later rfl fewLater
            · exact .ok later rfl fewLater

theorem readValues_follows (count : Nat) {acc : Accumulator} (few : acc.unread < 8) :
    Follows Eq (Register.readValues count (register acc)) (Accumulator.readValues count acc) := by
  induction count generalizing acc with
  | zero => exact .ok acc rfl few
  | succ count inductionHypothesis =>
      rw [Register.readValues, Accumulator.readValues]
      refine (readValue_follows few).bind ?_
      rintro value _ later rfl fewLater
      refine (inductionHypothesis fewLater).bind ?_
      rintro values _ last rfl fewLast
      exact .ok last rfl fewLast

/-- Less than a byte is left, so that the mask is made without leaving the word. -/
theorem mask_of_few {count : Nat} (few : count < 8) :
    shiftLeft32 1 (UInt32.ofNat count) = .ok (1 <<< UInt32.ofNat count) ∧
      difference32 (1 <<< UInt32.ofNat count) 1 = .ok ((1 <<< UInt32.ofNat count) - 1) := by
  have positive : ∀ low : Fin 8,
      (1 : UInt32).toNat ≤ ((1 : UInt32) <<< UInt32.ofNat low).toNat := by
    decide
  have inside : (UInt32.ofNat count).toNat < 32 := by
    rw [toNat_ofNat_of_few (Nat.le_of_lt few)]
    omega
  exact ⟨shiftLeft32_of_lt inside 1, difference32_of_le (positive ⟨count, few⟩)⟩

theorem readAll_eq (body : Bytes) :
    Register.readAll body = (decompress body).mapError malformed := by
  have follows := @readValues_follows degree ⟨0, 0, body⟩ (Nat.zero_lt_succ 7)
  have start : register ⟨0, 0, body⟩ = ⟨0, 0, body⟩ := rfl
  rw [start] at follows
  rw [← Accumulator.readAll_eq, Register.readAll, Accumulator.readAll]
  generalize Register.readValues degree _ = result at follows ⊢
  generalize Accumulator.readValues degree _ = spec at follows ⊢
  cases follows with
  | error fault => rfl
  | @ok values _ acc same few =>
      subst same
      obtain ⟨shifted, masked⟩ := mask_of_few few
      rw [Result.ok_bind, Result.ok_bind]
      dsimp only [register]
      rw [shifted, Result.ok_bind, masked, Result.ok_bind]
      split
      · rfl
      · split
        · rfl
        · rfl

/-- A small coefficient is brought into the field without a negative difference. -/
theorem toField_of_inRange {coefficient : Int} (inRange : InRange coefficient) :
    toField coefficient = .ok (Falcon.toField coefficient) := by
  obtain ⟨lower, upper⟩ := inRange
  have size : (UInt32.ofNat modulus).toNat = 12289 := rfl
  have magnitude : (UInt32.ofNat coefficient.natAbs).toNat = coefficient.natAbs := by
    rw [UInt32.toNat_ofNat']
    omega
  unfold toField
  split
  · rename_i negative
    have least : (UInt32.ofNat coefficient.natAbs).toNat ≤ (UInt32.ofNat modulus).toNat := by omega
    refine (difference32_of_le least).trans (congrArg Except.ok (UInt32.toNat_inj.mp ?_))
    rw [UInt32.toNat_sub_of_le _ _ least, size, magnitude, Falcon.toField, UInt32.toNat_ofNat',
      modulus]
    omega
  · rename_i positive
    have same : (coefficient % (modulus : Int)).toNat = coefficient.natAbs := by
      rw [modulus]
      omega
    rw [Falcon.toField, same]

theorem readPair_eq {pair : Bytes} (two : pair.length = 2) :
    readPair pair = .ok (UInt32.ofNat (Bytes.toNatBE pair)) := by
  obtain ⟨high, low, rfl⟩ := List.length_eq_two.mp two
  rfl

theorem bodyCoefficients_eq (body : Bytes) :
    bodyCoefficients body = (Falcon.bodyCoefficients body).mapError Halt.failure := by
  unfold bodyCoefficients Falcon.bodyCoefficients
  by_cases plain : body.length = plainLength
  · have full := Bytes.length_of_mem_pieces (by decide : 0 < 2) degree plain
    rw [if_pos plain, if_pos plain,
      Result.mapM_of_forall_ok fun pair among => readPair_eq (full pair among)]
    rfl
  · rw [if_neg plain, if_neg plain, readAll_eq]
    cases read : decompress body with
    | error fault => rfl
    | ok coefficients =>
        obtain ⟨_, inRange, _⟩ := decompress_eq_ok_iff.mp read
        exact Result.mapM_of_forall_ok fun coefficient among =>
          toField_of_inRange (inRange coefficient among)

theorem packed_eq (body : Bytes) :
    bodyCoefficients body >>= Slots.pack 16 =
      (Falcon.bodyCoefficients body >>= pack 16).mapError Halt.failure := by
  rw [bodyCoefficients_eq, Result.mapError_bind]
  exact congrArg _ (funext (Slots.pack_eq 16))

/-- A body is read and packed, or malformed. -/
theorem packed_or_malformed (body : Bytes) :
    (∃ words, bodyCoefficients body >>= Slots.pack 16 = .ok words) ∨
      ∃ fault, bodyCoefficients body >>= Slots.pack 16 = .error (malformed fault) := by
  rw [packed_eq]
  cases read : Falcon.bodyCoefficients body with
  | ok coefficients =>
      obtain ⟨coefficient, holds, same⟩ := bodyCoefficients_eq_ok_iff.mp read
      obtain ⟨words, packed, _⟩ := holds.packed
      rw [← same] at packed
      exact .inl ⟨words, by rw [Result.ok_bind, packed, Except.mapError]⟩
  | error error =>
      unfold Falcon.bodyCoefficients at read
      split at read
      · cases read
      · split at read
        · cases read
        · rename_i fault _
          cases read
          exact .inr ⟨fault, rfl⟩

section SignedMessages

variable {signedMessage : Bytes} {messageLength start : UInt64}

theorem compactFrom_of_nil (nothing : signedMessage.drop start.toNat = []) :
    compactFrom start signedMessage messageLength =
      .error (.failure (.protocol
        (.signedMessageTooShort signedMessage.length messageLength.toNat))) :=
  if_pos (List.drop_eq_nil_iff.mp nothing)

/-- If the head is there in full, so is every place that is looked at. -/
theorem compactFrom_of_cons {mark : UInt8} {body : Bytes} (head : headLength ≤ signedMessage.length)
    (found : signedMessage.drop start.toNat = mark :: body) :
    compactFrom start signedMessage messageLength =
      let declared := Bytes.toNatBE (signedMessage.take 2)
      if body.length + 1 ≠ declared then
        .error (.failure (.protocol (.declaredLength declared (body.length + 1))))
      else if mark ≠ signatureMark then .error (.failure (.protocol (.falconHeader mark)))
      else (bodyCoefficients body >>= Slots.pack 16).map fun words =>
        (signedMessage.take headLength).drop 2 ++ wordBytes words := by
  have size := congrArg List.length found
  rw [List.length_drop, List.length_cons] at size
  have long : ¬ signedMessage.length ≤ start.toNat := by omega
  obtain ⟨high, low, rest, rfl⟩ : ∃ high low rest, signedMessage = high :: low :: rest := by
    match signedMessage, head with
    | high :: low :: rest, _ => exact ⟨high, low, rest, rfl⟩
  have salt := slice_of_le (show 2 ≤ headLength by decide) head
  have signature := sliceFrom_of_le (Nat.le_of_not_le long)
  have behind := sliceFrom_of_le (show 1 ≤ (mark :: body).length by simp)
  have first : byteAt (high :: low :: rest) 0 = .ok high := rfl
  have second : byteAt (high :: low :: rest) 1 = .ok low := rfl
  have marked : byteAt (mark :: body) 0 = .ok mark := rfl
  rw [found] at signature
  refine (if_neg long).trans ?_
  rw [first, Result.ok_bind, second, Result.ok_bind, signature, Result.ok_bind]
  dsimp only
  rw [marked, Result.ok_bind, behind, Result.ok_bind, salt]
  by_cases declared : (mark :: body).length ≠ Bytes.toNatBE [high, low]
  · exact (if_pos declared).trans (if_pos declared).symm
  · refine (if_neg declared).trans (Eq.trans ?_ (if_neg declared).symm)
    by_cases header : mark ≠ signatureMark
    · exact (if_pos header).trans (if_pos header).symm
    · refine (if_neg header).trans (Eq.trans ?_ (if_neg header).symm)
      change bodyCoefficients body >>= _ = _
      cases bodyCoefficients body with
      | error halt => rfl
      | ok coefficients =>
          rw [Result.ok_bind, Result.ok_bind]
          cases Slots.pack 16 coefficients with
          | error halt => rfl
          | ok words => rfl

/-- Cutting by guarded steps comes to what cutting comes to, crashes included. -/
theorem compact_eq (signedMessage : Bytes) (messageLength : UInt64) :
    compact signedMessage messageLength = Falcon.compact signedMessage messageLength := by
  have head : (UInt64.ofNat headLength).toNat = headLength := rfl
  by_cases fits : headLength + messageLength.toNat < UInt64.size
  · obtain ⟨summed, sum⟩ := sum64_of_fits (show (UInt64.ofNat headLength).toNat +
      messageLength.toNat < UInt64.size from fits)
    rw [compact, summed, Result.ok_bind, Falcon.compact]
    rw [head] at sum
    generalize UInt64.ofNat headLength + messageLength = start at sum
    dsimp only
    rw [if_neg (Nat.not_le.mpr fits), ← sum]
    cases found : signedMessage.drop start.toNat with
    | nil => exact compactFrom_of_nil found
    | cons mark body =>
        have size := congrArg List.length found
        rw [List.length_drop, List.length_cons] at size
        rw [compactFrom_of_cons (by omega) found, packed_eq]
        dsimp only
        split
        · rfl
        · split
          · rfl
          · cases Falcon.bodyCoefficients body >>= pack 16 with
            | error error => rfl
            | ok words => rfl
  · have exceeds := Nat.le_of_not_lt fits
    have crashed : Falcon.compact signedMessage messageLength = .error .crash := if_pos exceeds
    have halted : sum64 (UInt64.ofNat headLength) messageLength = .error .crash :=
      sum64_of_exceeds exceeds
    rw [crashed, compact, halted]
    rfl

/-- A sum that is not guarded goes round and ends in the head. Then no signed message with a whole
head is told to be too short, however long its message should be. -/
theorem wrapped_not_too_short (exceeds : UInt64.size ≤ headLength + messageLength.toNat)
    (long : headLength ≤ signedMessage.length) (length needed : Nat) :
    compactFrom (UInt64.ofNat headLength + messageLength) signedMessage messageLength ≠
      .error (.failure (.protocol (.signedMessageTooShort length needed))) := by
  have head : (UInt64.ofNat headLength).toNat = headLength := rfl
  have early : (UInt64.ofNat headLength + messageLength).toNat < headLength := by
    have below := messageLength.toNat_lt
    have size : UInt64.size = 18446744073709551616 := rfl
    rw [headLength] at head exceeds ⊢
    rw [UInt64.toNat_add, head]
    omega
  generalize UInt64.ofNat headLength + messageLength = start at early
  cases found : signedMessage.drop start.toNat with
  | nil =>
      have short := List.drop_eq_nil_iff.mp found
      omega
  | cons mark body =>
      rw [compactFrom_of_cons long found]
      dsimp only
      split
      · simp
      · split
        · simp
        · rcases packed_or_malformed body with ⟨words, packed⟩ | ⟨fault, refused⟩
          · simp [packed, Except.map]
          · simp [refused, Except.map, malformed]

end SignedMessages

end Countersign.Lattice.Falcon.Guarded

namespace Countersign.Algorithm

open Lattice.Falcon

/-- Making a signature ready crashes in one step only, and exactly if the signature of a signed
message would have to start outside 64 bits. Otherwise it yields the signature or a protocol error,
and a signed message that its message does not fit into is told to be too short. -/
theorem finalize_crashes_iff (algorithm : Algorithm) (raw : Bytes) (messageLength : UInt64) :
    Guarded.compact raw messageLength = falcon512.finalizeSignature raw messageLength ∧
    (algorithm.finalizeSignature raw messageLength = .error .crash ↔
      algorithm = falcon512 ∧ UInt64.size ≤ 42 + messageLength.toNat) ∧
    (¬ (algorithm = falcon512 ∧ UInt64.size ≤ 42 + messageLength.toNat) →
      (∃ signature, algorithm.finalizeSignature raw messageLength = .ok signature) ∨
        ∃ violation, algorithm.finalizeSignature raw messageLength =
          .error (.failure (.protocol violation))) ∧
    (42 + messageLength.toNat < UInt64.size → raw.length ≤ 42 + messageLength.toNat →
      falcon512.finalizeSignature raw messageLength =
        .error (.failure (.protocol
          (.signedMessageTooShort raw.length messageLength.toNat)))) := by
  have outcome : ¬ (algorithm = falcon512 ∧ UInt64.size ≤ 42 + messageLength.toNat) →
      (∃ signature, algorithm.finalizeSignature raw messageLength = .ok signature) ∨
        ∃ violation, algorithm.finalizeSignature raw messageLength =
          .error (.failure (.protocol violation)) := by
    intro inRange
    cases algorithm with
    | mlDsa44 =>
        unfold finalizeSignature
        dsimp only
        split
        · exact .inl ⟨raw, rfl⟩
        · exact .inr ⟨_, rfl⟩
    | falcon512 =>
        have representable := Nat.lt_of_not_le fun exceeds => inRange ⟨rfl, exceeds⟩
        rcases compact_cases representable with ⟨_, _, _, _, cut⟩ | refused
        · exact .inl ⟨_, cut⟩
        · exact .inr refused
  refine ⟨Guarded.compact_eq raw messageLength, ⟨?inSum, ?crash⟩, outcome, ?short⟩
  case inSum =>
    intro crashed
    by_contra inRange
    rcases outcome inRange with ⟨signature, made⟩ | ⟨violation, refused⟩
    · rw [made] at crashed
      cases crashed
    · rw [refused] at crashed
      cases crashed
  case crash =>
    rintro ⟨rfl, exceeds⟩
    exact if_pos exceeds
  case short =>
    intro representable short
    have nothing : raw.drop (headLength + messageLength.toNat) = [] :=
      List.drop_eq_nil_iff.mpr short
    refine (if_neg (Nat.not_le.mpr representable)).trans ?_
    rw [nothing]

/-- With the longest message that there is a name for, even the empty signed message crashes. -/
theorem longest_message_crashes :
    ¬ ∀ (algorithm : Algorithm) (raw : Bytes) (messageLength : UInt64),
      (∃ signature, algorithm.finalizeSignature raw messageLength = .ok signature) ∨
        ∃ violation, algorithm.finalizeSignature raw messageLength =
          .error (.failure (.protocol violation)) := by
  intro yields
  have crashed : falcon512.finalizeSignature [] 0xFFFFFFFFFFFFFFFF = .error .crash := rfl
  rcases yields falcon512 [] 0xFFFFFFFFFFFFFFFF with ⟨signature, made⟩ | ⟨violation, refused⟩
  · rw [crashed] at made
    cases made
  · rw [crashed] at refused
    cases refused

/-- Were the sum not guarded, one byte could be too few for the length of the signature. -/
example : Guarded.compactFrom (42 + 0xFFFFFFFFFFFFFFD6) [0] 0xFFFFFFFFFFFFFFD6 = .error .crash :=
  rfl

end Countersign.Algorithm
