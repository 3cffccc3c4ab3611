import Countersign.Proofs.Digest
import Countersign.Proofs.Lattice.MlDsa.InPlace

/-!
Whatever a sponge gives out, what is drawn from it is an element of the ring: rejected values are
left out, and values that are missing in the end are zero. The values of those groups of three bytes
that are in the field are kept in their order; reading group by group and reading block by block
both come to the first 256 of them.
-/

namespace Countersign.Lattice.MlDsa

open Digest

section Collect

variable {α : Type} {sponge : Sponge} {read : Bytes → List α}

theorem forall_mem_collect {property : α → Prop}
    (holds : ∀ block, ∀ value ∈ read block, property value) (blocks wanted : Nat) (state : Lanes) :
    ∀ value ∈ collect sponge read blocks wanted state, property value := by
  induction blocks generalizing wanted state with
  | zero => simp [collect]
  | succ blocks inductionHypothesis =>
      have found : ∀ value ∈ (read (sponge.outputBlock state)).take wanted, property value := by
        intro value among
        exact holds _ value (List.mem_of_mem_take among)
      simp only [collect]
      split
      · exact found
      · exact List.forall_mem_append.mpr ⟨found, inductionHypothesis _ _⟩

end Collect

theorem length_ofValues (values : List Nat) : (ofValues values).length = 256 := by
  rw [ofValues, List.length_take, List.length_append, Poly.zero, List.length_replicate]
  omega

theorem forall_mem_ofValues {property : Nat → Prop} {values : List Nat} (zero : property 0)
    (holds : ∀ value ∈ values, property value) : ∀ value ∈ ofValues values, property value := by
  intro value among
  rcases List.mem_append.mp (List.mem_of_mem_take among) with drawn | missing
  · exact holds value drawn
  · rwa [List.eq_of_mem_replicate missing]

/-- The coefficients of an element of the ring. -/
structure Reduced (poly : Poly) : Prop where
  length : poly.length = 256
  lt : ∀ coefficient ∈ poly, coefficient < modulus

theorem reduced_zero : Reduced Poly.zero := by
  refine ⟨List.length_replicate, ?_⟩
  intro coefficient among
  rw [List.eq_of_mem_replicate among]
  exact modulus_pos

theorem Reduced.ntt {poly : Poly} (reduced : Reduced poly) : Reduced (ntt poly) :=
  ⟨length_ntt reduced.length, ntt_lt poly⟩

section Operations

variable {left right : Poly}

theorem Reduced.add (leftReduced : Reduced left) (rightReduced : Reduced right) :
    Reduced (Poly.add left right) := by
  refine ⟨?_, zipWith_lt addMod_lt _ _⟩
  rw [Poly.add, List.length_zipWith, leftReduced.length, rightReduced.length, Nat.min_self]

theorem Reduced.mul (leftReduced : Reduced left) (rightReduced : Reduced right) :
    Reduced (Poly.mul left right) := by
  refine ⟨?_, zipWith_lt mulMod_lt _ _⟩
  rw [Poly.mul, List.length_zipWith, leftReduced.length, rightReduced.length, Nat.min_self]

end Operations

theorem uniformValue?_lt {b₀ b₁ b₂ : UInt8} {value : Nat}
    (accepted : uniformValue? b₀ b₁ b₂ = some value) : value < modulus := by
  simp only [uniformValue?] at accepted
  split at accepted
  · rename_i below
    cases accepted
    exact below
  · cases accepted

theorem uniformValues_lt : ∀ block : Bytes, ∀ value ∈ uniformValues block, value < modulus
  | [] => by simp [uniformValues]
  | [_] => by simp [uniformValues]
  | [_, _] => by simp [uniformValues]
  | b₀ :: b₁ :: b₂ :: rest => by
      refine List.forall_mem_append.mpr ⟨?_, uniformValues_lt rest⟩
      intro value among
      exact uniformValue?_lt (Option.mem_toList.mp among)

theorem reduced_sampleUniform (rho : Bytes) (row column : UInt8) :
    Reduced (sampleUniform rho row column) :=
  ⟨length_ofValues _, forall_mem_ofValues modulus_pos (forall_mem_collect uniformValues_lt _ _ _)⟩

/-- The number of the field that an integer is congruent to. -/
def residue (integer : Int) : Nat :=
  (integer % modulus).toNat

theorem intCast_residue (integer : Int) : (residue integer : Scalar) = (integer : Scalar) := by
  have nonnegative : 0 ≤ integer % modulus := Int.emod_nonneg _ (by decide)
  rw [← Int.cast_natCast, residue, Int.toNat_of_nonneg nonnegative, ZMod.intCast_mod]

theorem residue_lt (integer : Int) : residue integer < modulus := by
  have modulusEq : modulus = 8380417 := rfl
  rw [residue, modulusEq]
  omega

/-- A number that is congruent to an integer in a range. -/
def Near (low high : Int) (coefficient : Nat) : Prop :=
  ∃ integer : Int, low ≤ integer ∧ integer ≤ high ∧ residue integer = coefficient

theorem near_subMod {left right : Nat} {low high : Int} (reduced : right ≤ modulus)
    (above : low ≤ (left : Int) - right) (below : (left : Int) - right ≤ high) :
    Near low high (subMod left right) := by
  refine ⟨left - right, above, below, ?_⟩
  have modulusEq : modulus = 8380417 := rfl
  rw [residue, subMod]
  rw [modulusEq] at reduced ⊢
  omega

theorem Near.lt {low high : Int} {coefficient : Nat} (near : Near low high coefficient) :
    coefficient < modulus := by
  obtain ⟨integer, _, _, rfl⟩ := near
  exact residue_lt integer

theorem near_smallValue? {half value : Nat} (accepted : smallValue? half = some value) :
    Near (-2) 2 value := by
  rw [smallValue?] at accepted
  split at accepted
  · cases accepted
    have modulusEq : modulus = 8380417 := rfl
    exact near_subMod (by omega) (by omega) (by omega)
  · cases accepted

theorem near_smallValues (block : Bytes) : ∀ value ∈ smallValues block, Near (-2) 2 value := by
  intro value among
  obtain ⟨byte, _, halves⟩ := List.mem_flatMap.mp among
  rcases List.mem_append.mp halves with low | high
  · exact near_smallValue? (Option.mem_toList.mp low)
  · exact near_smallValue? (Option.mem_toList.mp high)

theorem near_sampleSmall (seed : Bytes) (number : Nat) :
    ∀ coefficient ∈ sampleSmall seed number, Near (-2) 2 coefficient :=
  forall_mem_ofValues ⟨0, by decide, by decide, rfl⟩ (forall_mem_collect near_smallValues _ _ _)

theorem reduced_sampleSmall (seed : Bytes) (number : Nat) : Reduced (sampleSmall seed number) := by
  refine ⟨length_ofValues _, ?_⟩
  intro coefficient among
  exact (near_sampleSmall seed number coefficient among).lt

end Countersign.Lattice.MlDsa

namespace Countersign.Lattice.MlDsa.Expansion

open Digest InPlace

/-- The values that are kept of a sequence of bytes: its groups of three, the lowest byte first and
the top bit masked, as far as they are below the modulus. -/
def kept (output : Bytes) : List Nat :=
  ((Bytes.pieces 3 output).map fun group => Bytes.toNatLE group % 2 ^ 23).filter
    fun value => value < 8380417

theorem toNat_candidate (group : Bytes) :
    (candidate group).toNat = Bytes.toNatLE group % 2 ^ 23 := by
  have mask : (0x7fffff : UInt32).toNat = 2 ^ 23 - 1 := rfl
  rw [candidate, UInt32.toNat_and, UInt32.toNat_ofNat', mask, Nat.and_two_pow_sub_one_eq_mod]
  omega

/-- The candidates that are in the field, in their order. -/
def accepted (groups : List Bytes) : List UInt32 :=
  (groups.map candidate).filter fun word => word < UInt32.ofNat modulus

theorem map_toNat_accepted (output : Bytes) :
    (accepted (Bytes.pieces 3 output)).map UInt32.toNat = kept output := by
  have bound : (UInt32.ofNat modulus).toNat = 8380417 := rfl
  rw [accepted, kept, List.filter_map, List.filter_map, List.map_map]
  congr 1
  · funext group
    exact toNat_candidate group
  · apply List.filter_congr
    intro group _
    simp only [Function.comp_apply, UInt32.lt_iff_toNat_lt, bound, toNat_candidate]

theorem accepted_eq (output : Bytes) :
    accepted (Bytes.pieces 3 output) = words (kept output) := by
  rw [← map_toNat_accepted, words_toNat]

/-- The loop keeps what is accepted of the groups that it reads, until there are 256 words. -/
theorem fill_eq (groups : Nat) (reader : Reader) (filled : List UInt32) :
    fill groups reader filled =
      filled ++ (accepted (reader.readSteps 3 groups)).take (256 - filled.length) := by
  induction groups generalizing reader filled with
  | zero => simp [fill, Reader.readSteps, accepted]
  | succ groups inductionHypothesis =>
      rw [fill]
      by_cases full : 256 ≤ filled.length
      · rw [if_pos full, Nat.sub_eq_zero_of_le full, List.take_zero, List.append_nil]
      · rw [if_neg full]
        simp only [Reader.readSteps, accepted, List.map_cons]
        by_cases below : candidate (reader.read 3).1 < UInt32.ofNat modulus
        · have room : 256 - filled.length = 256 - (filled.length + 1) + 1 := by omega
          rw [if_pos below, List.filter_cons_of_pos (by simpa using below), inductionHypothesis,
            List.length_append, List.length_singleton, List.append_assoc, room,
            List.take_succ_cons]
          rfl
        · rw [if_neg below, List.filter_cons_of_neg (by simpa using below), inductionHypothesis]
          rfl

theorem kept_append {front : Bytes} (count : Nat) (whole : front.length = count * 3)
    (back : Bytes) : kept (front ++ back) = kept front ++ kept back := by
  rw [kept, Bytes.pieces_append (by decide) count whole, List.map_append, List.filter_append]
  rfl

theorem kept_group (b₀ b₁ b₂ : UInt8) : kept [b₀, b₁, b₂] = (uniformValue? b₀ b₁ b₂).toList := by
  have single : Bytes.pieces 3 [b₀, b₁, b₂] = [[b₀, b₁, b₂]] := rfl
  have number : Bytes.toNatLE [b₀, b₁, b₂] =
      b₀.toNat + 256 * b₁.toNat + 65536 * b₂.toNat := by
    simp only [Bytes.toNatLE]
    omega
  have bound : modulus = 8380417 := rfl
  rw [kept, single, List.map_singleton, number, uniformValue?, Nat.one_shiftLeft, bound]
  generalize (b₀.toNat + 256 * b₁.toNat + 65536 * b₂.toNat) % 2 ^ 23 = value
  by_cases below : value < 8380417
  · simp [below]
  · simp [below]

/-- Of whole groups, the values are the same if they are taken one group after the other. -/
theorem uniformValues_eq : ∀ {bytes : Bytes}, bytes.length % 3 = 0 →
    uniformValues bytes = kept bytes
  | [], _ => rfl
  | [_], ragged => by simp at ragged
  | [_, _], ragged => by simp at ragged
  | b₀ :: b₁ :: b₂ :: rest, whole => by
      have restWhole : rest.length % 3 = 0 := by
        simp only [List.length_cons] at whole
        omega
      have split : b₀ :: b₁ :: b₂ :: rest = [b₀, b₁, b₂] ++ rest := rfl
      rw [uniformValues, uniformValues_eq restWhole, split, kept_append 1 rfl, kept_group]

section Blocks

variable {sponge : Sponge} {groups : Nat}

theorem kept_blocks (whole : ∀ state, (sponge.outputBlock state).length = groups * 3)
    (count : Nat) (state : Lanes) :
    kept (sponge.blocks count state) =
      found Lanes.permute (fun state => kept (sponge.outputBlock state)) count state := by
  induction count generalizing state with
  | zero => rfl
  | succ count inductionHypothesis =>
      rw [Sponge.blocks_succ, kept_append groups (whole state), inductionHypothesis]
      rfl

/-- What is drawn block by block is what the blocks hold. -/
theorem collect_eq {α : Type} (read : Bytes → List α) (count wanted : Nat) (state : Lanes) :
    collect sponge read count wanted state =
      (found Lanes.permute (fun state => read (sponge.outputBlock state)) count state).take
        wanted := by
  induction count generalizing wanted state with
  | zero => rw [collect, found, List.iterate, List.flatMap_nil, List.take_nil]
  | succ count inductionHypothesis =>
      have first : found Lanes.permute (fun state => read (sponge.outputBlock state)) (count + 1)
          state = read (sponge.outputBlock state) ++
            found Lanes.permute (fun state => read (sponge.outputBlock state)) count
              (Lanes.permute state) := rfl
      rw [collect, first, List.take_append, inductionHypothesis]
      split
      · rename_i done
        rw [List.length_take] at done
        rw [show wanted - (read (sponge.outputBlock state)).length = 0 by omega, List.take_zero,
          List.append_nil]
      · rename_i missing
        rw [List.length_take] at missing ⊢
        congr 2
        omega

end Blocks

/-! ## The output as a whole -/

section Output

theorem rate_positive : 0 < shake128.rate := by decide

theorem rate_fits : shake128.rate ≤ 200 := by decide

theorem length_block (state : Lanes) : (shake128.outputBlock state).length = 56 * 3 :=
  Sponge.length_outputBlock rate_fits state

variable (message : Bytes)

/-- The values among the first groups of the output on a message. -/
def keptOf (groups : Nat) : List Nat :=
  kept (shake128.hash (groups * 3) message)

theorem accepted_readSteps (groups : Nat) :
    accepted ((shake128.reader message).readSteps 3 groups) = words (keptOf message groups) := by
  rw [Reader.readSteps_reader (by decide) rate_positive rate_fits, accepted_eq, keptOf]

theorem keptOf_mono {fewer more : Nat} (fewer_le : fewer ≤ more) :
    keptOf message fewer <+: keptOf message more := by
  have cut (groups : Nat) : keptOf message groups =
      (((shake128.reader message).readSteps 3 groups).map
        fun group => Bytes.toNatLE group % 2 ^ 23).filter fun value => value < 8380417 := by
    rw [Reader.readSteps_reader (by decide) rate_positive rate_fits]
    rfl
  rw [cut, cut]
  exact ((Reader.readSteps_mono fewer_le _).map _).filter _

theorem keptOf_blocks (count : Nat) :
    keptOf message (count * 56) =
      found Lanes.permute (fun state => kept (shake128.outputBlock state)) count
        (shake128.absorb message) := by
  have length : count * 56 * 3 = count * shake128.rate := Nat.mul_assoc count 56 3
  rw [keptOf, length, Sponge.hash_blocks rate_positive rate_fits, kept_blocks length_block]

theorem blockLimit_eq : blockLimit = 256 * 2 ^ 1600 := by
  unfold blockLimit
  generalize 1600 = exponent
  exact Nat.shiftLeft_eq 256 exponent

/-- If 256 values are found anywhere in the output, they are found within the bound. -/
theorem keptOf_groupLimit {groups : Nat} (enough : 256 ≤ (keptOf message groups).length) :
    256 ≤ (keptOf message groupLimit).length := by
  have longer : groups ≤ groups * 56 := by omega
  have inBlocks := (keptOf_mono message longer).length_le
  have recurring : min 256 (found Lanes.permute (fun state => kept (shake128.outputBlock state))
      groups (shake128.absorb message)).length ≤
        (found Lanes.permute (fun state => kept (shake128.outputBlock state)) (256 * 2 ^ 1600)
          (shake128.absorb message)).length :=
    min_le_length_found Lanes.number_injective Lanes.number_lt 256 groups _
  rw [← blockLimit_eq, ← keptOf_blocks, ← keptOf_blocks, Nat.mul_comm blockLimit,
    ← groupLimit] at recurring
  omega

/-- Whatever is read beyond the first 256 values does not change them. -/
theorem take_keptOf {left right : Nat} (leftEnough : 256 ≤ (keptOf message left).length)
    (rightEnough : 256 ≤ (keptOf message right).length) :
    (keptOf message left).take 256 = (keptOf message right).take 256 := by
  rcases Nat.le_total left right with fewer | fewer
  · obtain ⟨more, split⟩ := keptOf_mono message fewer
    rw [← split, List.take_append_of_le_length leftEnough]
  · obtain ⟨more, split⟩ := keptOf_mono message fewer
    rw [← split, List.take_append_of_le_length rightEnough]

theorem fill_reader (groups : Nat) :
    fill groups (shake128.reader message) [] = words ((keptOf message groups).take 256) := by
  rw [fill_eq, accepted_readSteps, List.nil_append, List.length_nil, words, words, List.map_take]

theorem collect_absorb :
    collect shake128 uniformValues blockLimit 256 (shake128.absorb message) =
      (keptOf message groupLimit).take 256 := by
  have whole (state : Lanes) : uniformValues (shake128.outputBlock state) =
      kept (shake128.outputBlock state) :=
    uniformValues_eq (by rw [length_block])
  rw [collect_eq, groupLimit, Nat.mul_comm, keptOf_blocks]
  simp only [whole]

end Output

/-- The words that are drawn are those of the values that are drawn. -/
theorem cell_eq (rho : Bytes) (row column : Nat) :
    cell rho row column =
      words (sampleUniform rho (UInt8.ofNat row) (UInt8.ofNat column)) := by
  have short : ((keptOf (rho ++ [UInt8.ofNat column, UInt8.ofNat row]) groupLimit).take
      256).length ≤ 256 := List.length_take_le _ _
  simp only [cell, fill_reader, sampleUniform, collect_absorb, ofValues]
  rw [List.take_append, List.take_of_length_le short, words_append, length_words, Poly.zero,
    List.take_replicate, Nat.min_eq_left (Nat.sub_le _ _), words, words, List.map_replicate]
  rfl

theorem kept_lt (output : Bytes) : ∀ value ∈ kept output, value < 8380417 := by
  intro value among
  exact of_decide_eq_true (List.mem_filter.mp among).2

/-- Of a seed and a place in the matrix, whose output holds 256 groups that are accepted among its
first groups, exactly the first 256 of these are kept, in their order. The loop needs no more
groups than those, and reading them one after the other cuts up the output as it is squeezed at
once. -/
theorem rejection_keeps_accepted (rho : Bytes) (row column : UInt8) (groups : Nat)
    (enough : 256 ≤ (kept (shake128.hash (groups * 3) (rho ++ [column, row]))).length) :
    let values := (kept (shake128.hash (groups * 3) (rho ++ [column, row]))).take 256
    (cell rho row.toNat column.toNat).map UInt32.toNat = values ∧
    sampleUniform rho row column = values ∧
    values.length = 256 ∧ (∀ value ∈ values, value < 8380417) ∧
    (∀ bound, groups ≤ bound →
      fill bound (shake128.reader (rho ++ [column, row])) [] = cell rho row.toNat column.toNat) ∧
    ∀ count, (shake128.reader (rho ++ [column, row])).readSteps 3 count =
      Bytes.pieces 3 (shake128.hash (count * 3) (rho ++ [column, row])) := by
  generalize message_eq : rho ++ [column, row] = message at enough ⊢
  intro values
  have length : values.length = 256 := by
    rw [List.length_take, Nat.min_eq_left enough]
  have small : ∀ value ∈ values, value < 8380417 := by
    intro value among
    exact kept_lt _ value (List.mem_of_mem_take among)
  have drawn : (keptOf message groupLimit).take 256 = values :=
    take_keptOf message (keptOf_groupLimit message enough) enough
  have uniform : sampleUniform rho row column = values := by
    rw [sampleUniform, message_eq, collect_absorb, drawn, ofValues,
      List.take_append_of_le_length (Nat.le_of_eq length.symm),
      List.take_of_length_le (Nat.le_of_eq length)]
  have cells : cell rho row.toNat column.toNat = words values := by
    rw [cell_eq, UInt8.ofNat_toNat, UInt8.ofNat_toNat, uniform]
  refine ⟨?_, uniform, length, small, ?_, ?_⟩
  · rw [cells, toNat_words (fits_of_reduced small)]
  · intro bound within
    have further : 256 ≤ (keptOf message bound).length :=
      Nat.le_trans enough (keptOf_mono message within).length_le
    rw [cells, fill_reader, take_keptOf message further enough]
    rfl
  · intro count
    exact Reader.readSteps_reader (by decide) rate_positive rate_fits count message

/-- Of the first 256 groups for the seed of zeros one is rejected, and the group after them is kept
in its stead. -/
theorem rejection_keeps_accepted_zeros :
    (kept (shake128.hash (256 * 3) (Bytes.zeros 32 ++ [0, 0]))).length = 255 ∧
    256 ≤ (kept (shake128.hash (257 * 3) (Bytes.zeros 32 ++ [0, 0]))).length ∧
    ((cell (Bytes.zeros 32) 0 0).map UInt32.toNat).take 4 =
      [5889865, 3971968, 4850004, 6999211] := by
  have rejected : (kept (shake128.hash (256 * 3) (Bytes.zeros 32 ++ [0, 0]))).length = 255 := by
    decide +kernel
  have enough : 256 ≤ (kept (shake128.hash (257 * 3) (Bytes.zeros 32 ++ [0, 0]))).length := by
    decide +kernel
  obtain ⟨values, _⟩ := rejection_keeps_accepted (Bytes.zeros 32) 0 0 257 enough
  have first : ((kept (shake128.hash (257 * 3) (Bytes.zeros 32 ++ [0, 0]))).take 256).take 4 =
      [5889865, 3971968, 4850004, 6999211] := by
    decide +kernel
  rw [← values] at first
  exact ⟨rejected, enough, first⟩

end Countersign.Lattice.MlDsa.Expansion
