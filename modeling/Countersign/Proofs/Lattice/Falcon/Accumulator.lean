import Countersign.Lattice.Falcon.Guarded
import Countersign.Proofs.Lattice.Falcon.Compression
import Mathlib.Data.Nat.Bitwise

/-!
Reading with an accumulator is reading bit by bit: what is still to be read are the unread bits of
the word and the bits of the bytes behind it, and what was shifted further up is never looked at.
So a body is read exactly if it is the compressed form of a polynomial with zero bytes behind it.
-/

namespace Countersign.Lattice.Falcon

/-- The lowest bits of a word, the highest of them first. -/
def lowest : Nat → UInt32 → List Bool
  | 0, _ => []
  | count + 1, word => word.toNat.testBit count :: lowest count word

theorem length_lowest (count : Nat) (word : UInt32) : (lowest count word).length = count := by
  induction count with
  | zero => rfl
  | succ count inductionHypothesis => rw [lowest, List.length_cons, inductionHypothesis]

theorem testBit_shiftIn (word : UInt32) (byte : UInt8) {place : Nat} (inside : place < 32) :
    ((word <<< 8) ||| byte.toUInt32).toNat.testBit place =
      if place < 8 then byte.toNat.testBit place else word.toNat.testBit (place - 8) := by
  have shifted : (word <<< 8).toNat = word.toNat <<< 8 % 2 ^ 32 := UInt32.toNat_shiftLeft word 8
  rw [UInt32.toNat_or, shifted, UInt8.toNat_toUInt32, Nat.testBit_or, Nat.testBit_mod_two_pow,
    Nat.testBit_shiftLeft]
  by_cases low : place < 8
  · have above : ¬ 8 ≤ place := by omega
    simp [low, above]
  · have small : byte.toNat < 2 ^ place :=
      Nat.lt_of_lt_of_le byte.toNat_lt (Nat.pow_le_pow_right (by decide) (by omega))
    have above : 8 ≤ place := by omega
    simp [low, above, inside, Nat.testBit_lt_two_pow small]

/-- Shifting a byte in puts its bits behind those that are unread. -/
theorem lowest_shiftIn (word : UInt32) (byte : UInt8) {unread : Nat} (fits : unread + 8 ≤ 32) :
    lowest (unread + 8) ((word <<< 8) ||| byte.toUInt32) = lowest unread word ++ bitsOfByte byte := by
  induction unread with
  | zero =>
      have low : ∀ place < 8, ((word <<< 8) ||| byte.toUInt32).toNat.testBit place =
          byte.toNat.testBit place := by
        intro place low
        rw [testBit_shiftIn word byte (by omega), if_pos low]
      simp only [lowest, bitsOfByte, List.nil_append, low, Nat.reduceLT]
  | succ unread inductionHypothesis =>
      have next : unread + 1 + 8 = unread + 8 + 1 := by omega
      rw [next, lowest, inductionHypothesis (by omega), testBit_shiftIn word byte (by omega),
        if_neg (by omega), Nat.add_sub_cancel, lowest, List.cons_append]

theorem testBit_shiftRight (word : UInt32) {amount : Nat} (inside : amount < 32) (place : Nat) :
    (word >>> UInt32.ofNat amount).toNat.testBit place = word.toNat.testBit (amount + place) := by
  have amountEq : (UInt32.ofNat amount).toNat = amount := by
    rw [UInt32.toNat_ofNat']
    omega
  rw [UInt32.toNat_shiftRight, amountEq, Nat.mod_eq_of_lt inside, Nat.testBit_shiftRight]

/-- One bit of a word is cut out by the power of two with its number. -/
theorem and_ne_zero_iff (word mask : UInt32) (place : Nat) (power : mask.toNat = 2 ^ place) :
    decide (word &&& mask ≠ 0) = word.toNat.testBit place := by
  have cut : (word &&& mask).toNat = (word.toNat.testBit place).toNat * 2 ^ place := by
    rw [UInt32.toNat_and, power, Nat.and_two_pow]
  have zero : word &&& mask = 0 ↔ (word &&& mask).toNat = 0 := by
    rw [← UInt32.toNat_inj]
    rfl
  have positive : 0 < 2 ^ place := Nat.two_pow_pos place
  cases bit : word.toNat.testBit place with
  | false => simp [zero, cut, bit]
  | true => simp [zero, cut, bit]

theorem any_lowest_eq_false_iff (count : Nat) (word : UInt32) :
    (lowest count word).any id = false ↔ word.toNat % 2 ^ count = 0 := by
  have places : (lowest count word).any id = false ↔
      ∀ place < count, word.toNat.testBit place = false := by
    induction count with
    | zero => simp [lowest]
    | succ count inductionHypothesis =>
        rw [lowest, List.any_cons, Bool.or_eq_false_iff, inductionHypothesis, Nat.forall_lt_succ_right,
          and_comm, id]
  rw [places]
  constructor
  · intro clear
    apply Nat.eq_of_testBit_eq
    intro place
    rw [Nat.testBit_mod_two_pow, Nat.zero_testBit]
    by_cases inside : place < count
    · simp [clear place inside]
    · simp [inside]
  · intro zero place inside
    have bit := congrArg (·.testBit place) zero
    simpa [Nat.testBit_mod_two_pow, inside] using bit

theorem and_mask_ne_zero_iff (word : UInt32) {count : Nat} (few : count < 8) :
    decide (word &&& ((1 <<< UInt32.ofNat count) - 1) ≠ 0) = (lowest count word).any id := by
  have mask : ((1 <<< UInt32.ofNat count) - 1 : UInt32).toNat = 2 ^ count - 1 := by
    have values : ∀ low : Fin 8, ((1 <<< UInt32.ofNat low) - 1 : UInt32).toNat = 2 ^ low.val - 1 := by
      decide
    exact values ⟨count, few⟩
  have cut : (word &&& ((1 <<< UInt32.ofNat count) - 1)).toNat = word.toNat % 2 ^ count := by
    rw [UInt32.toNat_and, mask, Nat.and_two_pow_sub_one_eq_mod]
  have zero : word &&& ((1 <<< UInt32.ofNat count) - 1) = 0 ↔ word.toNat % 2 ^ count = 0 := by
    rw [← cut, ← UInt32.toNat_inj]
    rfl
  rw [Bool.eq_iff_iff, decide_eq_true_iff, Ne, zero, ← any_lowest_eq_false_iff,
    Bool.not_eq_false]

namespace Accumulator

/-- All bits that are still to be read. -/
def pending (acc : Accumulator) : List Bool :=
  lowest acc.unread acc.word ++ bits acc.bytes

/-- A result of reading with an accumulator is one of reading bits: the same fault, or the same
value with the same bits left, of which less than a byte are in the word. -/
inductive Agrees {α : Type} :
    Except CompressionFault (α × Accumulator) → Except CompressionFault (α × List Bool) → Prop
  | error (fault : CompressionFault) : Agrees (.error fault) (.error fault)
  | ok (value : α) (acc : Accumulator) (few : acc.unread < 8) :
      Agrees (.ok (value, acc)) (.ok (value, acc.pending))

theorem Agrees.bind {α β : Type} {result : Except CompressionFault (α × Accumulator)}
    {spec : Except CompressionFault (α × List Bool)} (agrees : Agrees result spec)
    {next : α × Accumulator → Except CompressionFault (β × Accumulator)}
    {nextSpec : α × List Bool → Except CompressionFault (β × List Bool)}
    (later : ∀ value acc, acc.unread < 8 → spec = .ok (value, acc.pending) →
      Agrees (next (value, acc)) (nextSpec (value, acc.pending))) :
    Agrees (result >>= next) (spec >>= nextSpec) := by
  cases agrees with
  | error fault => exact .error fault
  | ok value acc few => exact later value acc few rfl

theorem pending_cons (word : UInt32) {unread : Nat} (few : unread < 8) (byte : UInt8)
    (rest : Bytes) :
    pending ⟨word, unread, byte :: rest⟩ =
      lowest (unread + 8) ((word <<< 8) ||| byte.toUInt32) ++ bits rest := by
  rw [lowest_shiftIn word byte (by omega), List.append_assoc]
  rfl

theorem readBit_of_unread (word : UInt32) (count : Nat) (rest : Bytes) (few : count < 8) :
    readBit ⟨word, count + 1, rest⟩ = .ok (word.toNat.testBit count, ⟨word, count, rest⟩) := by
  have bit : decide ((word >>> UInt32.ofNat count) &&& 1 ≠ 0) = word.toNat.testBit count := by
    rw [and_ne_zero_iff _ 1 0 rfl, testBit_shiftRight word (by omega), Nat.add_zero]
  rw [← bit]
  rfl

theorem readBit_nil {acc : Accumulator} (nothing : acc.pending = []) :
    acc.readBit = .error .truncated := by
  obtain ⟨word, unread, bytes⟩ := acc
  obtain ⟨noneUnread, noBytes⟩ := List.append_eq_nil_iff.mp nothing
  cases unread with
  | succ count => simp [lowest] at noneUnread
  | zero =>
      cases bytes with
      | cons byte rest => simp [bitsOfByte] at noBytes
      | nil => rfl

/-- A bit is read from the front of those that are pending. -/
theorem readBit_cons {acc : Accumulator} {bit : Bool} {rest : List Bool} (few : acc.unread < 8)
    (waiting : acc.pending = bit :: rest) :
    ∃ later, acc.readBit = .ok (bit, later) ∧ later.unread < 8 ∧ later.pending = rest := by
  obtain ⟨word, unread, bytes⟩ := acc
  dsimp only at few
  cases unread with
  | succ count =>
      obtain ⟨rfl, rfl⟩ := List.cons.inj waiting
      exact ⟨⟨word, count, bytes⟩, readBit_of_unread word count bytes (by omega),
        Nat.lt_of_succ_lt few, rfl⟩
  | zero =>
      cases bytes with
      | nil => cases waiting
      | cons byte later =>
          rw [pending_cons word few] at waiting
          obtain ⟨rfl, rfl⟩ := List.cons.inj waiting
          exact ⟨⟨_, 7, later⟩, readBit_of_unread _ 7 later (by decide), by simp, rfl⟩

/-! ## Coefficients -/

theorem readUnary_agrees {stream : List Bool} {acc : Accumulator} (magnitude : Nat)
    (few : acc.unread < 8) (waiting : acc.pending = stream) :
    Agrees (readUnary magnitude acc) (readHigh magnitude stream) := by
  induction stream generalizing acc magnitude with
  | nil =>
      rw [readUnary, readBit_nil waiting]
      exact .error .truncated
  | cons bit rest inductionHypothesis =>
      obtain ⟨later, read, fewLater, left⟩ := readBit_cons few waiting
      rw [readUnary, read]
      cases bit with
      | true =>
          rw [readHigh, ← left]
          exact .ok magnitude later fewLater
      | false =>
          dsimp only
          rw [readHigh]
          split
          · exact .error .outOfRange
          · exact inductionHypothesis (magnitude + 128) fewLater left

theorem readCoefficient_of_few {stream : List Bool} (few : stream.length < 8) :
    readCoefficient stream = .error .truncated := by
  match stream with
  | [] | [_] | [_, _] | [_, _, _] | [_, _, _, _] | [_, _, _, _, _] | [_, _, _, _, _, _]
  | [_, _, _, _, _, _, _] => rfl

/-- The first eight of the unread bits of a word, when they are its lowest ones. -/
theorem window_eq (word : UInt32) {unread : Nat} (few : unread < 8) :
    decide ((word >>> UInt32.ofNat unread) &&& 0x80 ≠ 0) = word.toNat.testBit (unread + 7) ∧
      ((word >>> UInt32.ofNat unread) &&& 0x7F).toNat =
        ofBits [word.toNat.testBit (unread + 6), word.toNat.testBit (unread + 5),
          word.toNat.testBit (unread + 4), word.toNat.testBit (unread + 3),
          word.toNat.testBit (unread + 2), word.toNat.testBit (unread + 1),
          word.toNat.testBit unread] := by
  have shifted := testBit_shiftRight word (show unread < 32 by omega)
  constructor
  · rw [and_ne_zero_iff _ 0x80 7 rfl, shifted]
  · have low : ((word >>> UInt32.ofNat unread) &&& 0x7F).toNat =
        (word >>> UInt32.ofNat unread).toNat % 128 :=
      (UInt32.toNat_and _ _).trans (Nat.and_two_pow_sub_one_eq_mod _ 7)
    rw [low, ← ofBits_testBit]
    simp only [shifted, Nat.add_zero]

/-- The sign and the low part are in the first eight bits, which a new byte completes. -/
theorem readValue_cons (word : UInt32) (unread : Nat) (byte : UInt8) (rest : Bytes) :
    readValue ⟨word, unread, byte :: rest⟩ =
      let next := (word <<< 8) ||| byte.toUInt32
      let first := next >>> UInt32.ofNat unread
      let negative := decide (first &&& 0x80 ≠ 0)
      match readUnary (first &&& 0x7F).toNat ⟨next, unread, rest⟩ with
      | .error fault => .error fault
      | .ok (magnitude, acc) =>
          if negative && magnitude = 0 then .error .negativeZero
          else if 32767 < magnitude then .error .outOfRange
          else .ok (if negative then -(magnitude : Int) else magnitude, acc) := by
  change (readUnary _ _ >>= _) = _
  dsimp only
  rw [Nat.add_sub_cancel]
  generalize readUnary _ _ = result
  cases result with
  | error fault => rfl
  | ok found =>
      obtain ⟨magnitude, acc⟩ := found
      change (if _ then _ else _) = if _ then _ else _
      split
      · rfl
      · split <;> rfl

theorem readValue_agrees {acc : Accumulator} (few : acc.unread < 8) :
    Agrees acc.readValue (readCoefficient acc.pending) := by
  obtain ⟨word, unread, bytes⟩ := acc
  dsimp only at few
  cases bytes with
  | nil =>
      have short : (pending ⟨word, unread, []⟩).length < 8 := by
        simp [pending, length_lowest, few]
      rw [readCoefficient_of_few short]
      exact .error .truncated
  | cons byte rest =>
      -- With the new byte the sign and the seven low bits are complete, however few were left.
      rw [pending_cons word few, readValue_cons]
      dsimp only
      generalize (word <<< 8) ||| byte.toUInt32 = next
      obtain ⟨sign, low⟩ := window_eq next few
      have agrees := readUnary_agrees ((next >>> UInt32.ofNat unread) &&& 0x7F).toNat few
        (show pending ⟨next, unread, rest⟩ = lowest unread next ++ bits rest from rfl)
      have start : ((next >>> UInt32.ofNat unread) &&& 0x7F).toNat < 128 := by
        rw [low]
        exact ofBits_lt _ _ _ _ _ _ _
      simp only [lowest, List.cons_append]
      rw [readCoefficient_cons, sign, ← low]
      generalize ((next >>> UInt32.ofNat unread) &&& 0x7F).toNat = magnitude at agrees start ⊢
      generalize next.toNat.testBit (unread + 7) = negative
      generalize readUnary magnitude _ = result at agrees ⊢
      generalize read : readHigh magnitude _ = spec at agrees ⊢
      cases agrees with
      | error fault => exact .error fault
      | ok value acc fewLeft =>
          obtain ⟨bound, -⟩ := readHigh_eq_ok (by omega) read
          have fits : ¬ 32767 < value := by omega
          dsimp only
          rw [if_neg fits]
          split
          · exact .error .negativeZero
          · exact .ok _ acc fewLeft

theorem readValues_agrees (count : Nat) {acc : Accumulator} (few : acc.unread < 8) :
    Agrees (readValues count acc) (readCoefficients count acc.pending) := by
  induction count generalizing acc with
  | zero => exact .ok [] acc few
  | succ count inductionHypothesis =>
      rw [readValues, readCoefficients]
      refine (readValue_agrees few).bind ?_
      intro value later fewLater _
      refine (inductionHypothesis fewLater).bind ?_
      intro values last fewLast _
      exact .ok (value :: values) last fewLast

theorem any_bits (bytes : Bytes) : (bits bytes).any id = bytes.any (· ≠ 0) := by
  have octets : ∀ value : Fin 256,
      (bitsOfByte (UInt8.ofNat value)).any id = decide (UInt8.ofNat value ≠ 0) := by
    decide +kernel
  induction bytes with
  | nil => rfl
  | cons byte rest inductionHypothesis =>
      have here := octets ⟨byte.toNat, byte.toNat_lt⟩
      rw [UInt8.ofNat_toNat] at here
      rw [bits_cons, List.any_append, inductionHypothesis, here, List.any_cons]

/-- Reading with an accumulator gives the polynomial, or the fault, that reading bits gives. -/
theorem readAll_eq (body : Bytes) : readAll body = decompress body := by
  have empty : (⟨0, 0, body⟩ : Accumulator).unread < 8 := Nat.zero_lt_succ 7
  have agrees := readValues_agrees degree empty
  have start : pending ⟨0, 0, body⟩ = bits body := rfl
  rw [start] at agrees
  unfold readAll decompress
  generalize readValues degree _ = result at agrees ⊢
  generalize readCoefficients degree _ = spec at agrees ⊢
  cases agrees with
  | error fault => rfl
  | ok values acc few =>
      have spare : acc.pending.length % 8 = acc.unread := by
        rw [pending, List.length_append, length_lowest, length_bits]
        omega
      have word : acc.pending.take acc.unread = lowest acc.unread acc.word :=
        List.take_left' (length_lowest _ _)
      have behind : acc.pending.drop acc.unread = bits acc.bytes :=
        List.drop_left' (length_lowest _ _)
      have trailing := and_mask_ne_zero_iff acc.word few
      have padding := any_bits acc.bytes
      change (if _ then _ else _) = if _ then _ else _
      rw [spare, word, behind, ← trailing, padding]
      simp only [decide_eq_true_iff]

end Accumulator

/-- A body is the compressed form of a polynomial, maybe with zero bytes behind it. -/
structure Encodes (body : Bytes) (coefficients : List Int) : Prop where
  length : coefficients.length = degree
  inRange : ∀ coefficient ∈ coefficients, InRange coefficient
  padded : ∃ count, body = compress coefficients ++ Bytes.zeros count

theorem readBody_eq (body : Bytes) :
    readBody body = (decompress body).mapError fun fault => .protocol (.compression fault) := by
  rw [readBody, Accumulator.readAll_eq]

theorem readBody_eq_ok_iff {body : Bytes} {coefficients : List Int} :
    readBody body = .ok coefficients ↔ Encodes body coefficients := by
  have encodes : decompress body = .ok coefficients ↔ Encodes body coefficients := by
    rw [decompress_eq_ok_iff]
    constructor
    · rintro ⟨length, inRange, padded⟩
      exact ⟨length, inRange, padded⟩
    · rintro ⟨length, inRange, padded⟩
      exact ⟨length, inRange, padded⟩
  rw [readBody_eq, ← encodes]
  cases decompress body with
  | ok found => simp [Except.mapError]
  | error fault => simp [Except.mapError]

theorem readBody_of_not_encodes {body : Bytes} (none : ∀ coefficients, ¬ Encodes body coefficients) :
    ∃ fault, readBody body = .error (.protocol (.compression fault)) := by
  cases read : decompress body with
  | ok coefficients =>
      have found : readBody body = .ok coefficients := by rw [readBody_eq, read, Except.mapError]
      exact absurd (readBody_eq_ok_iff.mp found) (none coefficients)
  | error fault =>
      refine ⟨fault, ?_⟩
      rw [readBody_eq, read, Except.mapError]

/-- Of the bodies of one length a polynomial has at most one. -/
theorem Encodes.unique {left right : Bytes} {coefficients : List Int}
    (ofLeft : Encodes left coefficients) (ofRight : Encodes right coefficients)
    (length : left.length = right.length) : left = right := by
  obtain ⟨leftCount, rfl⟩ := ofLeft.padded
  obtain ⟨rightCount, rfl⟩ := ofRight.padded
  have counts : leftCount = rightCount := by
    simpa [Bytes.zeros] using length
  rw [counts]

theorem bitPadding_lt (length : Nat) : bitPadding length < 8 :=
  Nat.mod_lt _ (by decide)

/-- Exactly the compressed polynomials of degree below 512 with coefficients between -2047 and 2047
are read, with any zero bytes behind them, and each is read as the polynomial it was written from.
Any other body is a protocol error. -/
theorem readBody_exact :
    (∀ coefficients, ∃ fill < 8, bits (compress coefficients) =
      encodeCoefficients coefficients ++ List.replicate fill false) ∧
    (∀ body coefficients, readBody body = .ok coefficients ↔ Encodes body coefficients) ∧
    (∀ body, (∀ coefficients, ¬ Encodes body coefficients) →
      ∃ fault, readBody body = .error (.protocol (.compression fault))) ∧
    (∀ coefficients : List Int, coefficients.length = 512 →
      (∀ coefficient ∈ coefficients, -2047 ≤ coefficient ∧ coefficient ≤ 2047) →
      ∀ count, readBody (compress coefficients ++ Bytes.zeros count) = .ok coefficients) ∧
    (∀ left right coefficients, left.length = right.length →
      readBody left = .ok coefficients → readBody right = .ok coefficients → left = right) ∧
    (∀ body, Accumulator.readAll body = decompress body) ∧
    (∀ body, body.length ≠ plainLength →
      bodyCoefficients body = (readBody body).map (List.map toField)) := by
  refine ⟨?written, ?accepted, ?refused, ?undone, ?unique, Accumulator.readAll_eq, ?compact⟩
  case written =>
    intro coefficients
    exact ⟨_, bitPadding_lt _, bits_bytesOfBits (encodeCoefficients coefficients)⟩
  case accepted =>
    intro body coefficients
    exact readBody_eq_ok_iff
  case refused =>
    intro body none
    exact readBody_of_not_encodes none
  case undone =>
    intro coefficients length inRange count
    exact readBody_eq_ok_iff.mpr ⟨length, inRange, count, rfl⟩
  case unique =>
    intro left right coefficients length readLeft readRight
    exact (readBody_eq_ok_iff.mp readLeft).unique (readBody_eq_ok_iff.mp readRight) length
  case compact =>
    intro body long
    rw [bodyCoefficients, if_neg long, readBody_eq]
    cases decompress body with
    | ok coefficients => rfl
    | error fault => rfl

end Countersign.Lattice.Falcon
