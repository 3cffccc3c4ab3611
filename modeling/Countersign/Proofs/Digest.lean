import Countersign.Digest.Sponge
import Countersign.Proofs.Bytes
import Mathlib.Data.Finset.Card
import Mathlib.Data.List.Iterate
import Mathlib.Data.Nat.Digits.Defs

/-!
The output of a sponge as one sequence of bytes, which its blocks make together: what is read in
steps of whatever size are its pieces. The states of a sponge recur, since there are `2¹⁶⁰⁰` of
them; if a number of things is ever found in the states, so many of them are found among the first
that a bound on what is read need not be met.
-/

namespace Countersign.Digest

namespace Sponge

variable {sponge : Sponge}

/-- The first blocks that are given out from a state on, one after the other. -/
def blocks (sponge : Sponge) (count : Nat) (state : Lanes) : Bytes :=
  (List.iterate Lanes.permute state count).flatMap sponge.outputBlock

theorem blocks_succ (count : Nat) (state : Lanes) :
    sponge.blocks (count + 1) state =
      sponge.outputBlock state ++ sponge.blocks count (Lanes.permute state) :=
  rfl

theorem length_blocks (fits : sponge.rate ≤ 200) (count : Nat) (state : Lanes) :
    (sponge.blocks count state).length = count * sponge.rate := by
  induction count generalizing state with
  | zero => exact (Nat.zero_mul _).symm
  | succ count inductionHypothesis =>
      rw [blocks_succ, List.length_append, length_outputBlock fits, inductionHypothesis,
        Nat.succ_mul, Nat.add_comm]

/-- What is squeezed begins the blocks, however many there are. -/
theorem squeeze_eq_take (positive : 0 < sponge.rate) (fits : sponge.rate ≤ 200) {count length : Nat}
    (enough : length ≤ count * sponge.rate) (state : Lanes) :
    sponge.squeeze length state = (sponge.blocks count state).take length := by
  induction count generalizing length state with
  | zero =>
      have none : length = 0 := by omega
      rw [none, squeeze_of_le fits (Nat.zero_le _), List.take_zero, List.take_zero]
  | succ count inductionHypothesis =>
      have block := length_outputBlock fits state
      rw [blocks_succ]
      by_cases short : length ≤ sponge.rate
      · rw [squeeze_of_le fits short, List.take_append_of_le_length (by omega)]
      · rw [Nat.succ_mul] at enough
        have whole : (sponge.outputBlock state).take length = sponge.outputBlock state :=
          List.take_of_length_le (by omega)
        rw [squeeze_of_lt positive fits (by omega), inductionHypothesis (by omega),
          List.take_append, whole, block]

theorem hash_eq_take (positive : 0 < sponge.rate) (fits : sponge.rate ≤ 200) {count length : Nat}
    (enough : length ≤ count * sponge.rate) (message : Bytes) :
    sponge.hash length message = (sponge.blocks count (sponge.absorb message)).take length :=
  squeeze_eq_take positive fits enough _

/-- All blocks are squeezed if so many bytes are. -/
theorem hash_blocks (positive : 0 < sponge.rate) (fits : sponge.rate ≤ 200) (count : Nat)
    (message : Bytes) :
    sponge.hash (count * sponge.rate) message = sponge.blocks count (sponge.absorb message) := by
  rw [hash_eq_take positive fits (Nat.le_refl _), ← length_blocks fits count, List.take_length]

end Sponge

namespace Reader

variable {sponge : Sponge}

theorem read_add (first second : Nat) (reader : Reader) :
    reader.read (first + second) =
      ((reader.read first).1 ++ ((reader.read first).2.read second).1,
        ((reader.read first).2.read second).2) := by
  induction first generalizing reader with
  | zero => rw [Nat.zero_add, read, List.nil_append]
  | succ first inductionHypothesis =>
      rw [Nat.succ_add]
      simp only [read]
      rw [inductionHypothesis, List.cons_append]

theorem length_read (count : Nat) (reader : Reader) : (reader.read count).1.length = count := by
  induction count generalizing reader with
  | zero => rfl
  | succ count inductionHypothesis =>
      simp only [read, List.length_cons]
      rw [inductionHypothesis]

/-- What is read begins the rest of the block that is being read and the blocks after it. -/
theorem read_eq_take (positive : 0 < sponge.rate) (fits : sponge.rate ≤ 200) {count length : Nat}
    {unread : Bytes} (enough : length ≤ unread.length + count * sponge.rate) (state : Lanes) :
    (read length ⟨sponge, state, unread⟩).1 =
      (unread ++ sponge.blocks count (Lanes.permute state)).take length := by
  induction length generalizing count unread state with
  | zero => rw [List.take_zero, read]
  | succ length inductionHypothesis =>
      rcases unread with _ | ⟨byte, rest⟩
      · rw [List.length_nil, Nat.zero_add] at enough
        obtain ⟨later, rfl⟩ : ∃ later, count = later + 1 := by
          apply Nat.exists_eq_succ_of_ne_zero
          rintro rfl
          omega
        have block := Sponge.length_outputBlock fits (Lanes.permute state)
        obtain ⟨byte, rest, split⟩ : ∃ byte rest,
            sponge.outputBlock (Lanes.permute state) = byte :: rest :=
          List.exists_cons_of_length_pos (by omega)
        rw [split, List.length_cons] at block
        rw [Nat.succ_mul] at enough
        have onward : length ≤ rest.length + later * sponge.rate := by omega
        rw [List.nil_append, Sponge.blocks_succ, split, List.cons_append, List.take_succ_cons,
          ← inductionHypothesis onward]
        simp [read, next, advance, split]
      · rw [List.length_cons] at enough
        rw [List.cons_append, List.take_succ_cons, ← inductionHypothesis (by omega)]
        rfl

/-- Reading yields what is squeezed at once. -/
theorem read_reader (positive : 0 < sponge.rate) (fits : sponge.rate ≤ 200) (length : Nat)
    (message : Bytes) : ((sponge.reader message).read length).1 = sponge.hash length message := by
  have enough : length ≤ length * sponge.rate := Nat.le_mul_of_pos_right length positive
  have covered : length ≤ (length + 1) * sponge.rate := by
    rw [Nat.succ_mul]
    omega
  rw [Sponge.hash_eq_take positive fits covered, Sponge.blocks_succ]
  exact read_eq_take positive fits (by omega) _

/-- What is read in steps of one size. -/
def readSteps (step : Nat) : Nat → Reader → List Bytes
  | 0, _ => []
  | count + 1, reader =>
      let (bytes, reader) := reader.read step
      bytes :: readSteps step count reader

section Steps

variable {step : Nat}

theorem flatten_readSteps (count : Nat) (reader : Reader) :
    (readSteps step count reader).flatten = (reader.read (count * step)).1 := by
  induction count generalizing reader with
  | zero =>
      rw [Nat.zero_mul]
      rfl
  | succ count inductionHypothesis =>
      rw [readSteps, Nat.succ_mul, Nat.add_comm, read_add]
      simp only [List.flatten_cons]
      rw [inductionHypothesis]

theorem length_of_mem_readSteps (count : Nat) (reader : Reader) :
    ∀ bytes ∈ readSteps step count reader, bytes.length = step := by
  induction count generalizing reader with
  | zero => simp [readSteps]
  | succ count inductionHypothesis =>
      exact List.forall_mem_cons.mpr ⟨length_read step reader, inductionHypothesis _⟩

/-- What more steps read begins with what fewer steps read. -/
theorem readSteps_mono {fewer more : Nat} (fewer_le : fewer ≤ more) (reader : Reader) :
    readSteps step fewer reader <+: readSteps step more reader := by
  induction fewer generalizing more reader with
  | zero => exact List.nil_prefix
  | succ fewer inductionHypothesis =>
      obtain ⟨others, rfl⟩ : ∃ others, more = others + 1 := ⟨more - 1, by omega⟩
      exact (List.prefix_cons_inj _).mpr (inductionHypothesis (Nat.le_of_succ_le_succ fewer_le) _)

/-- Steps of whatever size cut up what is squeezed at once. -/
theorem readSteps_reader (stepPositive : 0 < step) (positive : 0 < sponge.rate)
    (fits : sponge.rate ≤ 200) (count : Nat) (message : Bytes) :
    readSteps step count (sponge.reader message) =
      Bytes.pieces step (sponge.hash (count * step) message) := by
  rw [← read_reader positive fits, ← flatten_readSteps,
    Bytes.pieces_flatten stepPositive (length_of_mem_readSteps count _)]

end Steps

end Reader

section Steps

variable {α β : Type} {step : α → α} {number : α → Nat} {bound : Nat}

/-- If states can be told apart by numbers below a bound, every state that is reached is reached in
fewer steps than that. -/
theorem exists_iterate_eq (injective : number.Injective) (below : ∀ state, number state < bound)
    (state : α) (count : Nat) : ∃ fewer < bound, step^[count] state = step^[fewer] state := by
  induction count using Nat.strong_induction_on with
  | _ count inductionHypothesis =>
      by_cases few : count < bound
      · exact ⟨count, few, rfl⟩
      · -- One state of the first `bound + 1` occurs twice, and what lies between is left out.
        have crowded : (Finset.range bound).card < (Finset.range (bound + 1)).card := by simp
        obtain ⟨left, leftIn, right, rightIn, differ, same⟩ :=
          Finset.exists_ne_map_eq_of_card_lt_of_maps_to crowded
            (f := fun index => number (step^[index] state))
            fun index _ => Finset.mem_range.mpr (below _)
        have again := injective same
        rw [Finset.mem_range] at leftIn rightIn
        have shorten : ∀ earlier later, earlier < later → later ≤ bound →
            step^[earlier] state = step^[later] state →
            ∃ fewer < bound, step^[count] state = step^[fewer] state := by
          intro earlier later before within recurs
          obtain ⟨fewer, small, reached⟩ :=
            inductionHypothesis (count - later + earlier) (by omega)
          refine ⟨fewer, small, ?_⟩
          have split : count = count - later + later := by omega
          rw [← reached, split, Function.iterate_add_apply, ← recurs,
            ← Function.iterate_add_apply, ← split]
        rcases Nat.lt_or_gt_of_ne differ with before | after
        · exact shorten left right before (by omega) again
        · exact shorten right left after (by omega) again.symm

variable {read : α → List β}

/-- What is found in the first states. -/
def found (step : α → α) (read : α → List β) (count : Nat) (state : α) : List β :=
  (List.iterate step state count).flatMap read

theorem found_add (first second : Nat) (state : α) :
    found step read (first + second) state =
      found step read first state ++ found step read second (step^[first] state) := by
  rw [found, List.iterate_add, List.flatMap_append]
  rfl

theorem length_found_mono {fewer more : Nat} (fewer_le : fewer ≤ more) (state : α) :
    (found step read fewer state).length ≤ (found step read more state).length := by
  obtain ⟨others, rfl⟩ := Nat.exists_eq_add_of_le fewer_le
  rw [found_add, List.length_append]
  exact Nat.le_add_right _ _

/-- If nothing is found in as many states as there are, nothing is ever found. -/
theorem found_eq_nil (injective : number.Injective) (below : ∀ state, number state < bound)
    {state : α} (nothing : found step read bound state = []) (count : Nat) :
    found step read count state = [] := by
  simp only [found, List.flatMap_eq_nil_iff, List.mem_iterate] at nothing ⊢
  rintro _ ⟨index, _, rfl⟩
  obtain ⟨fewer, small, reached⟩ := exists_iterate_eq injective below state index
  rw [reached]
  exact nothing _ ⟨fewer, small, rfl⟩

/-- As many things as are ever found are found in so many times the number of states. -/
theorem min_le_length_found (injective : number.Injective)
    (below : ∀ state, number state < bound) (wanted count : Nat) (state : α) :
    min wanted (found step read count state).length ≤
      (found step read (wanted * bound) state).length := by
  induction wanted generalizing count state with
  | zero => omega
  | succ wanted inductionHypothesis =>
      rw [Nat.succ_mul, Nat.add_comm (wanted * bound), found_add, List.length_append]
      by_cases nothing : found step read bound state = []
      · rw [found_eq_nil injective below nothing count, List.length_nil]
        omega
      · have some := List.length_pos_of_ne_nil nothing
        rcases Nat.le_total count bound with few | many
        · have within : (found step read count state).length ≤
              (found step read bound state).length := length_found_mono few state
          omega
        · obtain ⟨others, rfl⟩ := Nat.exists_eq_add_of_le many
          have rest := inductionHypothesis others (step^[bound] state)
          rw [found_add, List.length_append]
          omega

end Steps

namespace Lanes

/-- The number that the lanes denote, the first lane lowest. -/
def number (lanes : Lanes) : Nat :=
  Nat.ofDigits (2 ^ 64) ((toList lanes).map UInt64.toNat)

theorem ofList_toList (lanes : Lanes) : ofList (toList lanes) = lanes :=
  rfl

theorem length_toList (lanes : Lanes) : ((toList lanes).map UInt64.toNat).length = 25 :=
  rfl

theorem toNat_lt_of_mem {lanes : List UInt64} :
    ∀ digit ∈ lanes.map UInt64.toNat, digit < 2 ^ 64 := by
  intro digit among
  obtain ⟨lane, _, rfl⟩ := List.mem_map.mp among
  exact lane.toNat_lt

theorem number_injective : number.Injective := by
  intro left right same
  rw [number, number] at same
  have lengths := (length_toList left).trans (length_toList right).symm
  have digits := Nat.ofDigits_inj_of_len_eq (by norm_num) lengths toNat_lt_of_mem toNat_lt_of_mem
    same
  have lanes := List.map_injective_iff.mpr (fun _ _ => UInt64.toNat_inj.mp) digits
  rw [← ofList_toList left, lanes, ofList_toList]

theorem number_lt (lanes : Lanes) : number lanes < 2 ^ 1600 := by
  have exponent : 64 * 25 = 1600 := rfl
  have bound := Nat.ofDigits_lt_base_pow_length (by norm_num) (@toNat_lt_of_mem (toList lanes))
  rwa [length_toList, ← pow_mul, exponent] at bound

end Lanes

end Countersign.Digest
