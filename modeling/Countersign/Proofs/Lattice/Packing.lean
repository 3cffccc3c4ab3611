import Countersign.Lattice.Packing
import Countersign.Proofs.Bytes
import Countersign.Proofs.Result
import Mathlib.Data.Nat.Digits.Lemmas

/-!
A packed word is the number whose digits are the coefficients, the first one lowest. Unpacking
therefore gives back what was packed. Packing slot by slot is packing piece by piece: while the
coefficients are put into their slots, every word is made of those that it holds so far, and the
rest of it is zero.
-/

namespace Countersign.Bytes

/-- The bytes of a number are those of its digits, when a digit is a number of whole bytes. -/
theorem ofNatLE_ofDigits {width : Nat} {values : List Nat}
    (small : ∀ value ∈ values, value < 256 ^ width) :
    ofNatLE (values.length * width) (Nat.ofDigits (256 ^ width) values) =
      values.flatMap (ofNatLE width) := by
  induction values with
  | nil => simp [ofNatLE]
  | cons value rest inductionHypothesis =>
      obtain ⟨here, later⟩ := List.forall_mem_cons.mp small
      rw [List.length_cons, Nat.succ_mul, Nat.add_comm, Nat.ofDigits_cons, ofNatLE_append here,
        inductionHypothesis later, List.flatMap_cons]

end Countersign.Bytes

namespace Countersign.Lattice

variable {width perWord : Nat} {coefficients : List UInt32} {words : List Word}

/-- No coefficient needs more bits than the width. -/
def Narrow (width : Nat) (coefficients : List UInt32) : Prop :=
  ∀ coefficient ∈ coefficients, coefficient.toNat < 2 ^ width

@[simp] theorem narrow_nil : Narrow width [] := by
  simp [Narrow]

@[simp] theorem narrow_cons {coefficient : UInt32} {rest : List UInt32} :
    Narrow width (coefficient :: rest) ↔ coefficient.toNat < 2 ^ width ∧ Narrow width rest :=
  List.forall_mem_cons

theorem firstTooWide_eq_none_iff (index : Nat) :
    firstTooWide width index coefficients = none ↔ Narrow width coefficients := by
  induction coefficients generalizing index with
  | nil => simp [firstTooWide]
  | cons coefficient rest inductionHypothesis =>
      rw [firstTooWide, Nat.one_shiftLeft, narrow_cons]
      by_cases wide : 2 ^ width ≤ coefficient.toNat
      · simp [wide, Nat.not_lt.mpr wide]
      · simp [wide, Nat.lt_of_not_le wide, inductionHypothesis]

/-- The number that coefficients denote as digits, the first one lowest. -/
def digitSum (width : Nat) (coefficients : List UInt32) : Nat :=
  Nat.ofDigits (2 ^ width) (coefficients.map UInt32.toNat)

theorem digitSum_cons {coefficient : UInt32} {rest : List UInt32} :
    digitSum width (coefficient :: rest) =
      coefficient.toNat + 2 ^ width * digitSum width rest := by
  simp [digitSum, Nat.ofDigits_cons]

theorem digitSum_lt (narrow : Narrow width coefficients) :
    digitSum width coefficients < 2 ^ (coefficients.length * width) := by
  induction coefficients with
  | nil => simp [digitSum]
  | cons coefficient rest inductionHypothesis =>
      obtain ⟨here, later⟩ := narrow_cons.mp narrow
      have below : digitSum width rest + 1 ≤ 2 ^ (rest.length * width) := inductionHypothesis later
      calc digitSum width (coefficient :: rest)
          < 2 ^ width + 2 ^ width * digitSum width rest := by
            rw [digitSum_cons]
            omega
        _ = 2 ^ width * (digitSum width rest + 1) := by ring
        _ ≤ 2 ^ width * 2 ^ (rest.length * width) := Nat.mul_le_mul_left _ below
        _ = 2 ^ ((coefficient :: rest).length * width) := by
            rw [← Nat.pow_add, List.length_cons, Nat.succ_mul, Nat.add_comm]

theorem toNat_packWord (narrow : Narrow width coefficients)
    (fits : coefficients.length * width ≤ 256) :
    (packWord width coefficients).toNat = digitSum width coefficients := by
  induction coefficients with
  | nil => rfl
  | cons coefficient rest inductionHypothesis =>
      obtain ⟨here, later⟩ := narrow_cons.mp narrow
      have sum := digitSum_lt narrow
      have enough : 2 ^ ((coefficient :: rest).length * width) ≤ 2 ^ 256 :=
        Nat.pow_le_pow_right (by decide) fits
      rw [List.length_cons, Nat.succ_mul] at fits
      rw [digitSum_cons] at sum
      have restValue := inductionHypothesis later (by omega)
      rw [packWord, List.foldr_cons, ← packWord, BitVec.toNat_or, BitVec.toNat_shiftLeft,
        BitVec.toNat_ofNat, restValue, Nat.shiftLeft_eq, Nat.mul_comm, Nat.mod_eq_of_lt (by omega),
        Nat.mod_eq_of_lt (by omega), digitSum_cons, Nat.add_comm,
        Nat.two_pow_add_eq_or_of_lt here]

/-- The digit at a place is found by shifting the places below it out. -/
theorem digitSum_div_mod (narrow : Narrow width coefficients) {slot : Nat}
    (inside : slot < coefficients.length) :
    digitSum width coefficients / 2 ^ (slot * width) % 2 ^ width =
      coefficients[slot].toNat := by
  induction slot generalizing coefficients with
  | zero =>
      cases coefficients with
      | nil => simp at inside
      | cons coefficient rest =>
          simp [digitSum_cons, Nat.mod_eq_of_lt (narrow_cons.mp narrow).1]
  | succ slot inductionHypothesis =>
      cases coefficients with
      | nil => simp at inside
      | cons coefficient rest =>
          obtain ⟨here, later⟩ := narrow_cons.mp narrow
          have shifted : digitSum width (coefficient :: rest) / 2 ^ width = digitSum width rest := by
            rw [digitSum_cons, Nat.add_mul_div_left _ _ (Nat.two_pow_pos width),
              Nat.div_eq_of_lt here, Nat.zero_add]
          rw [Nat.succ_mul, Nat.add_comm, Nat.pow_add, ← Nat.div_div_eq_div_mul, shifted,
            inductionHypothesis later (by simpa using inside), List.getElem_cons_succ]

theorem unpackWord_packWord (narrow : Narrow width coefficients)
    (fits : coefficients.length * width ≤ 256) :
    unpackWord width coefficients.length (packWord width coefficients) = coefficients := by
  apply List.ext_getElem
  · simp [unpackWord]
  · intro slot inRange inside
    simp only [unpackWord, List.getElem_map, List.getElem_range]
    rw [BitVec.toNat_ushiftRight, toNat_packWord narrow fits, Nat.shiftRight_eq_div_pow,
      Nat.one_shiftLeft, digitSum_div_mod narrow inside, UInt32.ofNat_toNat]

theorem length_wordBytes (words : List Word) : (wordBytes words).length = words.length * 32 := by
  induction words with
  | nil => rfl
  | cons word rest inductionHypothesis =>
      rw [wordBytes, List.flatMap_cons, List.length_append, Bytes.length_ofNatLE, List.length_cons]
      change 32 + (wordBytes rest).length = _
      rw [inductionHypothesis]
      omega

theorem coefficientsPerWord_eq_ok (fills : coefficientsPerWord width = .ok perWord) :
    0 < perWord ∧ perWord * width = 256 := by
  unfold coefficientsPerWord at fills
  split at fills
  · cases fills
  · rename_i allowed
    cases fills
    have divides : width ∣ 256 := Nat.dvd_of_mod_eq_zero (by omega)
    have positive : 0 < width := by omega
    exact ⟨Nat.div_pos (Nat.le_of_dvd (by decide) divides) positive, Nat.div_mul_cancel divides⟩

theorem pack_eq_ok_iff (fills : coefficientsPerWord width = .ok perWord) :
    pack width coefficients = .ok words ↔
      perWord ∣ coefficients.length ∧ Narrow width coefficients ∧
        words = (Bytes.pieces perWord coefficients).map (packWord width) := by
  rw [pack, fills, Result.ok_bind, Nat.dvd_iff_mod_eq_zero, ← firstTooWide_eq_none_iff 0]
  by_cases whole : coefficients.length % perWord = 0
  · cases wide : firstTooWide width 0 coefficients with
    | none => simp [whole, pure, Except.pure, eq_comm]
    | some found => simp [whole, throw, throwThe, MonadExceptOf.throw]
  · simp [whole]

/-- Every piece of what is packed is narrow and fills its word. -/
theorem pieces_of_pack (fills : coefficientsPerWord width = .ok perWord)
    (packed : pack width coefficients = .ok words) :
    words = (Bytes.pieces perWord coefficients).map (packWord width) ∧
      ∀ piece ∈ Bytes.pieces perWord coefficients,
        piece.length = perWord ∧ Narrow width piece ∧ piece.length * width ≤ 256 := by
  obtain ⟨positive, filled⟩ := coefficientsPerWord_eq_ok fills
  obtain ⟨⟨count, whole⟩, narrow, made⟩ := (pack_eq_ok_iff fills).mp packed
  refine ⟨made, fun piece member => ?_⟩
  have length : piece.length = perWord :=
    Bytes.length_of_mem_pieces positive count (by rw [whole, Nat.mul_comm]) piece member
  refine ⟨length, fun coefficient inside => narrow coefficient ?_, by rw [length, filled]⟩
  rw [← Bytes.flatten_pieces positive coefficients]
  exact List.mem_flatten_of_mem member inside

theorem unpack_pack (packed : pack width coefficients = .ok words) :
    unpack width words = .ok coefficients := by
  obtain ⟨perWord, fills, _⟩ := Result.bind_eq_ok packed
  obtain ⟨made, full⟩ := pieces_of_pack fills packed
  obtain ⟨positive, _⟩ := coefficientsPerWord_eq_ok fills
  have undone : ∀ piece ∈ Bytes.pieces perWord coefficients,
      unpackWord width perWord (packWord width piece) = piece := by
    intro piece member
    obtain ⟨length, narrow, fits⟩ := full piece member
    rw [← length, unpackWord_packWord narrow fits]
  rw [unpack, fills, Result.ok_bind, made, List.flatMap_map, List.flatMap_congr undone,
    List.flatMap_id', Bytes.flatten_pieces positive]
  rfl

/-- Coefficients of whole bytes stand in the bytes of the packed words one after the other, each
lowest byte first. -/
theorem wordBytes_pack (byteWidth : Nat)
    (packed : pack (8 * byteWidth) coefficients = .ok words) :
    wordBytes words = coefficients.flatMap fun coefficient =>
      Bytes.ofNatLE byteWidth coefficient.toNat := by
  obtain ⟨perWord, fills, _⟩ := Result.bind_eq_ok packed
  obtain ⟨made, full⟩ := pieces_of_pack fills packed
  obtain ⟨positive, filled⟩ := coefficientsPerWord_eq_ok fills
  have octets : perWord * byteWidth = 32 := by
    have bits : perWord * (8 * byteWidth) = 8 * (perWord * byteWidth) := Nat.mul_left_comm _ _ _
    omega
  have base : 2 ^ (8 * byteWidth) = 256 ^ byteWidth := by
    rw [Nat.pow_mul]
  have written : ∀ piece ∈ Bytes.pieces perWord coefficients,
      Bytes.ofNatLE 32 (packWord (8 * byteWidth) piece).toNat =
        piece.flatMap fun coefficient => Bytes.ofNatLE byteWidth coefficient.toNat := by
    intro piece member
    obtain ⟨length, narrow, fits⟩ := full piece member
    have small : ∀ value ∈ piece.map UInt32.toNat, value < 256 ^ byteWidth := by
      simpa [Narrow, base] using narrow
    have digits := Bytes.ofNatLE_ofDigits small
    rw [List.length_map, length, octets, List.flatMap_map] at digits
    rw [toNat_packWord narrow fits, digitSum, base, digits]
  calc wordBytes words
      = (Bytes.pieces perWord coefficients).flatMap fun piece =>
          Bytes.ofNatLE 32 (packWord (8 * byteWidth) piece).toNat := by
        rw [made, wordBytes, List.flatMap_map]
    _ = (Bytes.pieces perWord coefficients).flatMap fun piece =>
          piece.flatMap fun coefficient => Bytes.ofNatLE byteWidth coefficient.toNat :=
        List.flatMap_congr written
    _ = coefficients.flatMap fun coefficient => Bytes.ofNatLE byteWidth coefficient.toNat := by
        conv_rhs => rw [← Bytes.flatten_pieces positive coefficients]
        rw [List.flatMap_def, List.flatMap_def, List.map_flatten, List.flatten_flatten]
        simp [List.flatMap_def, Function.comp_def]

end Countersign.Lattice

namespace Countersign.Lattice.Slots

variable {width perWord : Nat}

theorem exceeds?_eq (width : Nat) (coefficient : UInt32) :
    exceeds? width coefficient = some (decide (1 <<< width ≤ coefficient.toNat)) := by
  have fits := coefficient.toNat_lt
  rw [Nat.one_shiftLeft]
  by_cases narrow : width < 32
  · have places : (UInt32.ofNat width).toNat % 32 = width := by
      rw [UInt32.toNat_ofNat']
      omega
    have left : coefficient >>> UInt32.ofNat width = 0 ↔ coefficient.toNat < 2 ^ width := by
      rw [← UInt32.toNat_inj, UInt32.toNat_shiftRight, places, Nat.shiftRight_eq_div_pow]
      exact Nat.div_eq_zero_iff_lt (Nat.two_pow_pos width)
    rw [exceeds?, if_pos narrow, shiftRight?, if_pos narrow, Option.map_some]
    simp [left]
  · have wide : 2 ^ 32 ≤ 2 ^ width := Nat.pow_le_pow_right (by decide) (Nat.le_of_not_lt narrow)
    have inside : ¬ 2 ^ width ≤ coefficient.toNat := by omega
    rw [exceeds?, if_neg narrow, decide_eq_false inside]

/-- A coefficient behind others stands above them. -/
theorem packWord_concat (front : List UInt32) (coefficient : UInt32) :
    packWord width (front ++ [coefficient]) =
      packWord width front |||
        BitVec.ofNat 256 coefficient.toNat <<< (front.length * width) := by
  induction front with
  | nil => simp [packWord]
  | cons first rest inductionHypothesis =>
      have unfolded (later : List UInt32) : packWord width (first :: later) =
          packWord width later <<< width ||| BitVec.ofNat 256 first.toNat := rfl
      rw [List.cons_append, unfolded, unfolded, inductionHypothesis, BitVec.shiftLeft_or_distrib,
        ← BitVec.shiftLeft_add, List.length_cons, Nat.succ_mul, BitVec.or_assoc, BitVec.or_assoc,
        BitVec.or_comm (BitVec.ofNat 256 first.toNat)]

/-! ## The words on the way -/

/-- The words when the first coefficients are in their slots. -/
def filled (width perWord count : Nat) (earlier : List UInt32) : List Word :=
  (List.range count).map fun place =>
    packWord width ((earlier.drop (place * perWord)).take perWord)

theorem filled_nil (width perWord count : Nat) :
    filled width perWord count [] = List.replicate count 0 := by
  have empty : packWord width [] = 0 := rfl
  simp [filled, empty]

theorem filled_of_whole (positive : 0 < perWord) {count : Nat} {coefficients : List UInt32}
    (whole : coefficients.length = count * perWord) :
    filled width perWord count coefficients =
      (Bytes.pieces perWord coefficients).map (packWord width) := by
  refine List.ext_getElem ?_ ?_
  · rw [filled, List.length_map, List.length_map, List.length_range,
      Bytes.length_pieces positive count whole]
  · intro place _ inPieces
    simp only [filled, List.getElem_map, List.getElem_range]
    rw [Bytes.getElem_pieces positive]

/-- One more coefficient lengthens the last piece that has been begun, and no other. -/
theorem piece_concat (positive : 0 < perWord) (earlier : List UInt32) (coefficient : UInt32)
    (place : Nat) :
    ((earlier ++ [coefficient]).drop (place * perWord)).take perWord =
      if earlier.length / perWord = place then earlier.drop (place * perWord) ++ [coefficient]
      else (earlier.drop (place * perWord)).take perWord := by
  have split : earlier.length / perWord * perWord + earlier.length % perWord = earlier.length :=
    Nat.div_add_mod' _ _
  have below : earlier.length % perWord < perWord := Nat.mod_lt _ positive
  by_cases here : earlier.length / perWord = place
  · subst here
    rw [if_pos rfl, List.drop_append_of_le_length (by omega), List.take_of_length_le]
    rw [List.length_append, List.length_drop, List.length_singleton]
    omega
  · rw [if_neg here]
    by_cases before : place < earlier.length / perWord
    · have full : (place + 1) * perWord ≤ earlier.length / perWord * perWord :=
        Nat.mul_le_mul_right _ before
      rw [Nat.succ_mul] at full
      rw [List.drop_append_of_le_length (by omega),
        List.take_append_of_le_length (by rw [List.length_drop]; omega)]
    · have full : (earlier.length / perWord + 1) * perWord ≤ place * perWord :=
        Nat.mul_le_mul_right _ (by omega)
      rw [Nat.succ_mul] at full
      have beyond : (earlier ++ [coefficient]).length ≤ place * perWord := by
        rw [List.length_append, List.length_singleton]
        omega
      have nothing : earlier.length ≤ place * perWord := by omega
      rw [List.drop_of_length_le beyond, List.drop_of_length_le nothing]

/-- Putting the next coefficient into its slot changes the word that is being filled and no
other. -/
theorem put_filled (positive : 0 < perWord) (whole : perWord * width = 256) {count : Nat}
    {earlier : List UInt32} (room : earlier.length < count * perWord) (coefficient : UInt32) :
    put width perWord (filled width perWord count earlier) earlier.length coefficient =
      some (filled width perWord count (earlier ++ [coefficient])) := by
  have widthPositive : 0 < width := Nat.pos_of_mul_pos_left (by rw [whole]; decide)
  have current : earlier.length * width / 256 = earlier.length / perWord := by
    rw [← whole, Nat.mul_div_mul_right _ _ widthPositive]
  have inside : earlier.length / perWord < count := Nat.div_lt_of_lt_mul (by rwa [Nat.mul_comm])
  have split : earlier.length / perWord * perWord + earlier.length % perWord = earlier.length :=
    Nat.div_add_mod' _ _
  have slot : (earlier.drop (earlier.length / perWord * perWord)).length =
      earlier.length % perWord := by
    rw [List.length_drop]
    omega
  have begun : (earlier.drop (earlier.length / perWord * perWord)).length ≤ perWord :=
    slot ▸ Nat.le_of_lt (Nat.mod_lt _ positive)
  have found : (filled width perWord count earlier)[earlier.length / perWord]? =
      some (packWord width (earlier.drop (earlier.length / perWord * perWord))) := by
    rw [filled, List.getElem?_map, List.getElem?_range inside, Option.map_some,
      List.take_of_length_le begun]
  simp only [put, current, found, Option.bind_eq_bind, Option.bind_some, Option.pure_def]
  rw [← slot, ← packWord_concat]
  congr 1
  refine List.ext_getElem (by simp [filled]) ?_
  intro place _ _
  simp only [filled, List.getElem_set, List.getElem_map, List.getElem_range]
  rw [piece_concat positive]
  by_cases here : earlier.length / perWord = place
  · rw [if_pos here, if_pos here, here]
  · rw [if_neg here, if_neg here]

/-- The coefficients are put into their slots up to the first that is too wide. -/
theorem putFrom_filled (positive : 0 < perWord) (whole : perWord * width = 256) {count : Nat}
    {earlier later : List UInt32} (room : earlier.length + later.length ≤ count * perWord) :
    putFrom width perWord earlier.length later (filled width perWord count earlier) =
      match firstTooWide width earlier.length later with
      | some (coefficient, index) =>
          .error (.failure (.validation (.coefficientRange coefficient index width)))
      | none => .ok (filled width perWord count (earlier ++ later)) := by
  induction later generalizing earlier with
  | nil => rw [firstTooWide, putFrom, List.append_nil]
  | cons coefficient rest inductionHypothesis =>
      rw [List.length_cons] at room
      rw [putFrom, exceeds?_eq, firstTooWide]
      by_cases wide : 1 <<< width ≤ coefficient.toNat
      · rw [if_pos wide, decide_eq_true wide]
      · have next : earlier.length + 1 = (earlier ++ [coefficient]).length := by
          rw [List.length_append, List.length_singleton]
        rw [if_neg wide, decide_eq_false wide]
        dsimp only
        rw [put_filled positive whole (by omega)]
        dsimp only
        rw [next, inductionHypothesis (by omega), List.append_assoc, List.singleton_append]

theorem pack_eq (width : Nat) (coefficients : List UInt32) :
    pack width coefficients = (Lattice.pack width coefficients).mapError .failure := by
  rw [pack, Lattice.pack, Result.mapError_bind]
  cases fills : coefficientsPerWord width with
  | error error => rfl
  | ok perWord =>
      obtain ⟨positive, whole⟩ := coefficientsPerWord_eq_ok fills
      change (if coefficients.length % perWord ≠ 0 then _ else _) = Except.mapError _ (ite _ _ _)
      by_cases ragged : coefficients.length % perWord ≠ 0
      · rw [if_pos ragged, if_pos ragged]
        rfl
      · have multiple : coefficients.length = coefficients.length / perWord * perWord := by
          rw [Nat.div_mul_cancel (Nat.dvd_of_mod_eq_zero (not_not.mp ragged))]
        have room : ([] : List UInt32).length + coefficients.length ≤
            coefficients.length / perWord * perWord := by
          rw [List.length_nil, Nat.zero_add, ← multiple]
        have done := putFrom_filled positive whole room
        rw [filled_nil, List.length_nil, List.nil_append, filled_of_whole positive multiple] at done
        rw [if_neg ragged, if_neg ragged]
        change putFrom width perWord 0 coefficients _ = _
        rw [done]
        cases firstTooWide width 0 coefficients <;> rfl

theorem read_eq (narrow : width ≤ 32) (word : Word) (slot : Nat) :
    read width word slot =
      .ok (UInt32.ofNat ((word >>> (slot * width)).toNat % (1 <<< width))) := by
  have power : 2 ^ width ≤ 2 ^ 32 := Nat.pow_le_pow_right (by decide) narrow
  have large : (2 : Nat) ^ 32 < 2 ^ 256 := by decide
  have positive := Nat.two_pow_pos width
  have mask : (((1 : Word) <<< width) - 1).toNat = 2 ^ width - 1 := by
    have one : (1 : Word).toNat = 1 := rfl
    rw [BitVec.toNat_sub, BitVec.toNat_shiftLeft, one, Nat.shiftLeft_eq]
    omega
  have value : ((word >>> (slot * width)) &&& (((1 : Word) <<< width) - 1)).toNat =
      (word >>> (slot * width)).toNat % 2 ^ width := by
    rw [BitVec.toNat_and, mask, Nat.and_two_pow_sub_one_eq_mod]
  have fits : (word >>> (slot * width)).toNat % 2 ^ width < UInt32.size :=
    Nat.lt_of_lt_of_le (Nat.mod_lt _ positive) power
  simp only [read]
  rw [value, if_pos fits, Nat.one_shiftLeft]

theorem coefficientsPerWord_narrow (fills : coefficientsPerWord width = .ok perWord) :
    width ≤ 32 := by
  unfold coefficientsPerWord at fills
  split at fills
  · cases fills
  · omega

theorem unpack_eq (width : Nat) (words : List Word) :
    unpack width words = (Lattice.unpack width words).mapError .failure := by
  rw [unpack, Lattice.unpack, Result.mapError_bind]
  cases fills : coefficientsPerWord width with
  | error error => rfl
  | ok perWord =>
      have narrow := coefficientsPerWord_narrow fills
      have each (word : Word) : (List.range perWord).mapM (read width word) =
          .ok (unpackWord width perWord word) :=
        Result.mapM_of_forall_ok fun slot _ => read_eq narrow word slot
      change (words.mapM _ >>= _) = Except.ok (words.flatMap (unpackWord width perWord))
      rw [Result.mapM_of_forall_ok fun word _ => each word]
      rfl

end Countersign.Lattice.Slots
