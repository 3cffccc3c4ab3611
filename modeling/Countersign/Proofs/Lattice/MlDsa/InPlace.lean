import Countersign.Lattice.MlDsa.Expansion
import Countersign.Proofs.Lattice.MlDsa.Evaluation

/-!
The transform in place. A layer of butterflies replaces every block by its two remainders, and the
number of the root runs through the blocks as they are numbered in the heap. So the words end as
the values of the polynomial, and no operation of 64 bits leaves its range on the way.
-/

namespace Countersign.Lattice.MlDsa

namespace InPlace

/-- Numbers as words. -/
def words (numbers : Poly) : List UInt32 :=
  numbers.map UInt32.ofNat

/-- Numbers that are the values of words. -/
def Fits (numbers : Poly) : Prop :=
  ∀ number ∈ numbers, number < 2 ^ 32

@[simp]
theorem length_words (numbers : Poly) : (words numbers).length = numbers.length :=
  List.length_map _

@[simp]
theorem words_cons (number : Nat) (rest : Poly) :
    words (number :: rest) = UInt32.ofNat number :: words rest :=
  rfl

@[simp]
theorem words_append (left right : Poly) : words (left ++ right) = words left ++ words right :=
  List.map_append

theorem fits_of_reduced {numbers : Poly} (reduced : ∀ number ∈ numbers, number < modulus) :
    Fits numbers := by
  intro number among
  exact Nat.lt_trans (reduced number among) (by decide)

theorem toNat_words {numbers : Poly} (fits : Fits numbers) :
    (words numbers).map UInt32.toNat = numbers := by
  have same : ∀ number ∈ numbers, (UInt32.ofNat number).toNat = number := by
    intro number among
    rw [UInt32.toNat_ofNat', Nat.mod_eq_of_lt (fits number among)]
  rw [words, List.map_map]
  exact (List.map_congr_left same).trans (List.map_id _)

theorem words_toNat (values : List UInt32) : words (values.map UInt32.toNat) = values := by
  have same : ∀ word ∈ values, UInt32.ofNat word.toNat = word := fun word _ => UInt32.ofNat_toNat
  rw [words, List.map_map]
  exact (List.map_congr_left same).trans (List.map_id _)

theorem toNat_divisor : divisor.toNat = modulus :=
  rfl

theorem toNat_word {number : Nat} (fits : number < 2 ^ 32) :
    (UInt32.ofNat number).toUInt64.toNat = number := by
  rw [UInt32.toNat_toUInt64, UInt32.toNat_ofNat', Nat.mod_eq_of_lt fits]

theorem mod_divisor_lt (value : UInt64) : (value % divisor).toNat < modulus := by
  rw [UInt64.toNat_mod, toNat_divisor]
  exact Nat.mod_lt _ modulus_pos

/-- A remainder is put into a word as it is. -/
theorem toUInt32_mod_divisor (value : UInt64) :
    (value % divisor).toUInt32 = UInt32.ofNat (value.toNat % modulus) := by
  apply UInt32.toNat_inj.mp
  rw [UInt64.toNat_toUInt32, UInt64.toNat_mod, toNat_divisor, UInt32.toNat_ofNat']

theorem add?_eq_some {left right : UInt64} (fits : left.toNat + right.toNat < 2 ^ 64) :
    ∃ sum, add? left right = some sum ∧ sum.toNat = left.toNat + right.toNat := by
  refine ⟨left + right, if_pos fits, ?_⟩
  rw [UInt64.toNat_add, Nat.mod_eq_of_lt fits]

theorem sub?_eq_some {left right : UInt64} (fits : right.toNat ≤ left.toNat) :
    ∃ difference, sub? left right = some difference ∧
      difference.toNat = left.toNat - right.toNat := by
  refine ⟨left - right, if_pos fits, ?_⟩
  exact UInt64.toNat_sub_of_le _ _ fits

theorem mul?_eq_some {left right : UInt64} (fits : left.toNat * right.toNat < 2 ^ 64) :
    ∃ product, mul? left right = some product ∧ product.toNat = left.toNat * right.toNat := by
  refine ⟨left * right, if_pos fits, ?_⟩
  rw [UInt64.toNat_mul, Nat.mod_eq_of_lt fits]

/-- Products of numbers of 32 bits fit, and are reduced afterwards. -/
theorem product_of_fits {left right : UInt64} (leftFits : left.toNat < 2 ^ 32)
    (rightFits : right.toNat < 2 ^ 32) :
    ∃ product, mul? left right = some product ∧
      (product % divisor).toNat = mulMod left.toNat right.toNat := by
  have productFits : left.toNat * right.toNat < 2 ^ 64 := by
    calc left.toNat * right.toNat < 2 ^ 32 * 2 ^ 32 := Nat.mul_lt_mul'' leftFits rightFits
      _ = 2 ^ 64 := by norm_num
  obtain ⟨product, productEq, productValue⟩ := mul?_eq_some productFits
  refine ⟨product, productEq, ?_⟩
  rw [UInt64.toNat_mod, productValue, toNat_divisor, mulMod]

theorem powerFrom_eq {exponent : Nat} {base factor : UInt64} (baseReduced : base.toNat < modulus)
    (factorReduced : factor.toNat < modulus) :
    ∃ power, powerFrom exponent base factor = some power ∧
      power.toNat = factor.toNat * base.toNat ^ exponent % modulus := by
  induction exponent using Nat.strong_induction_on generalizing base factor with
  | h exponent inductionHypothesis =>
      have modulusEq : modulus = 8380417 := rfl
      rw [powerFrom]
      by_cases zero : exponent = 0
      · refine ⟨factor, if_pos zero, ?_⟩
        rw [zero, Nat.pow_zero, Nat.mul_one, Nat.mod_eq_of_lt factorReduced]
      · have baseFits : base.toNat < 2 ^ 32 := by omega
        have factorFits : factor.toNat < 2 ^ 32 := by omega
        obtain ⟨square, squareEq, squareValue⟩ := product_of_fits baseFits baseFits
        have half : exponent / 2 < exponent := by omega
        rw [if_neg zero]
        by_cases odd : exponent % 2 = 1
        · obtain ⟨product, productEq, productValue⟩ := product_of_fits factorFits baseFits
          obtain ⟨power, powerEq, powerValue⟩ :=
            inductionHypothesis _ half (mod_divisor_lt square) (mod_divisor_lt product)
          refine ⟨power, ?_, ?_⟩
          · simp only [if_pos odd, productEq, squareEq, powerEq, Option.bind_eq_bind,
              Option.bind_some]
          · have split : factor.toNat * base.toNat * (base.toNat * base.toNat) ^ (exponent / 2) =
                factor.toNat * base.toNat ^ exponent := by
              rw [← Nat.pow_two, ← Nat.pow_mul, Nat.mul_assoc, ← Nat.pow_add_one']
              congr 2
              omega
            rw [powerValue, productValue, squareValue, ← split]
            exact (Nat.mod_modEq _ _).mul ((Nat.mod_modEq _ _).pow _)
        · obtain ⟨power, powerEq, powerValue⟩ :=
            inductionHypothesis _ half (mod_divisor_lt square) factorReduced
          refine ⟨power, ?_, ?_⟩
          · simp only [if_neg odd, squareEq, powerEq, Option.bind_eq_bind, Option.bind_some]
          · have split : factor.toNat * (base.toNat * base.toNat) ^ (exponent / 2) =
                factor.toNat * base.toNat ^ exponent := by
              rw [← Nat.pow_two, ← Nat.pow_mul]
              congr 2
              omega
            rw [powerValue, squareValue, ← split]
            exact (Nat.ModEq.refl _).mul ((Nat.mod_modEq _ _).pow _)

/-- The words of the splitting roots in the order of their blocks. -/
def splittingRoots : List UInt32 :=
  (List.range 256).map fun block => UInt32.ofNat (splittingRoot block)

theorem rootTable_eq : rootTable = some splittingRoots := by
  have entry (block : Nat) :
      (do
        let power ← powerFrom (reverseBits 8 block) (UInt64.ofNat root) 1
        some power.toUInt32) = (pure (UInt32.ofNat (splittingRoot block)) : Option UInt32) := by
    have baseValue : (UInt64.ofNat root).toNat = root := rfl
    have oneValue : (1 : UInt64).toNat = 1 := rfl
    obtain ⟨power, powerEq, powerValue⟩ :=
      @powerFrom_eq (reverseBits 8 block) (UInt64.ofNat root) 1 (by decide) (by decide)
    rw [baseValue, oneValue, Nat.one_mul, ← splittingRoot_eq] at powerValue
    have word : power.toUInt32 = UInt32.ofNat (splittingRoot block) := by
      rw [← powerValue, UInt32.ofNat_uInt64ToNat]
    rw [powerEq, Option.bind_eq_bind, Option.bind_some, word]
    rfl
  rw [rootTable, funext entry, List.mapM_pure]
  rfl

theorem getElem?_splittingRoots {number : Nat} (inside : number < 256) :
    splittingRoots[number]? = some (UInt32.ofNat (splittingRoot number)) := by
  simp [splittingRoots, inside]

theorem splittingRoot_lt (number : Nat) : splittingRoot number < modulus := by
  rw [splittingRoot_eq]
  exact Nat.mod_lt _ modulus_pos

section Places

variable (before between after : List UInt32) (low high new : UInt32)

theorem getElem?_low : (before ++ low :: after)[before.length]? = some low := by
  simp

theorem getElem?_high :
    (before ++ low :: (between ++ high :: after))[before.length + (between.length + 1)]? =
      some high := by
  simp

theorem set_low : (before ++ low :: after).set before.length new = before ++ new :: after := by
  simp

theorem set_high :
    (before ++ low :: (between ++ high :: after)).set (before.length + (between.length + 1)) new =
      before ++ low :: (between ++ new :: after) := by
  simp

end Places

section Remainders

variable {low : Nat} {scaled : UInt64}

theorem sum_of_fits (lowFits : low < 2 ^ 32) (reduced : scaled.toNat < modulus) :
    ∃ sum, add? (UInt32.ofNat low).toUInt64 scaled = some sum ∧
      (sum % divisor).toUInt32 = UInt32.ofNat (addMod low scaled.toNat) := by
  have modulusEq : modulus = 8380417 := rfl
  have sumFits : (UInt32.ofNat low).toUInt64.toNat + scaled.toNat < 2 ^ 64 := by
    rw [toNat_word lowFits]
    omega
  obtain ⟨sum, sumEq, sumValue⟩ := add?_eq_some sumFits
  refine ⟨sum, sumEq, ?_⟩
  rw [toUInt32_mod_divisor, sumValue, toNat_word lowFits, addMod]

/-- The modulus is added first, and a remainder is never more than that. -/
theorem difference_of_fits (lowFits : low < 2 ^ 32) (reduced : scaled.toNat < modulus) :
    ∃ raised difference, add? (UInt32.ofNat low).toUInt64 divisor = some raised ∧
      sub? raised scaled = some difference ∧
      (difference % divisor).toUInt32 = UInt32.ofNat (subMod low scaled.toNat) := by
  have modulusEq : modulus = 8380417 := rfl
  have raisedFits : (UInt32.ofNat low).toUInt64.toNat + divisor.toNat < 2 ^ 64 := by
    rw [toNat_word lowFits, toNat_divisor]
    omega
  obtain ⟨raised, raisedEq, raisedValue⟩ := add?_eq_some raisedFits
  rw [toNat_word lowFits, toNat_divisor] at raisedValue
  obtain ⟨difference, differenceEq, differenceValue⟩ :=
    sub?_eq_some (show scaled.toNat ≤ raised.toNat by omega)
  refine ⟨raised, difference, raisedEq, differenceEq, ?_⟩
  rw [toUInt32_mod_divisor, differenceValue, raisedValue, subMod]

end Remainders

/-- A butterfly overwrites its two words, and its products, sums and differences fit. -/
theorem butterfly_eq {root low high : Nat} (rootReduced : root < modulus) (lowFits : low < 2 ^ 32)
    (highFits : high < 2 ^ 32) (before between after : List UInt32) :
    butterfly (between.length + 1) (UInt32.ofNat root)
        (before ++ UInt32.ofNat low :: (between ++ UInt32.ofNat high :: after)) before.length =
      some (before ++ UInt32.ofNat (addMod low (mulMod root high)) ::
        (between ++ UInt32.ofNat (subMod low (mulMod root high)) :: after)) := by
  have rootFits : root < 2 ^ 32 := Nat.lt_trans rootReduced (by decide)
  obtain ⟨product, productEq, scaledEq⟩ :=
    product_of_fits ((toNat_word rootFits).trans_lt rootFits)
      ((toNat_word highFits).trans_lt highFits)
  rw [toNat_word rootFits, toNat_word highFits] at scaledEq
  obtain ⟨sum, sumEq, sumWord⟩ := sum_of_fits lowFits (mod_divisor_lt product)
  obtain ⟨raised, difference, raisedEq, differenceEq, differenceWord⟩ :=
    difference_of_fits lowFits (mod_divisor_lt product)
  rw [scaledEq] at sumWord differenceWord
  rw [← sumWord, ← differenceWord]
  refine Option.bind_eq_some_iff.mpr ⟨_, getElem?_high _ _ _ _ _, ?_⟩
  refine Option.bind_eq_some_iff.mpr ⟨product, productEq, ?_⟩
  refine Option.bind_eq_some_iff.mpr ⟨_, getElem?_low _ _ _, ?_⟩
  refine Option.bind_eq_some_iff.mpr ⟨raised, raisedEq, ?_⟩
  refine Option.bind_eq_some_iff.mpr ⟨difference, differenceEq, ?_⟩
  refine Option.bind_eq_some_iff.mpr ⟨sum, sumEq, ?_⟩
  rw [set_high, set_low]
  rfl

/-- The butterflies of a block replace its halves by the two remainders. -/
theorem splitAt_eq {root : Nat} (rootReduced : root < modulus) {low high : Poly}
    (lengths : low.length = high.length) (lowFits : Fits low) (highFits : Fits high)
    (before between after : List UInt32) :
    (List.range' before.length low.length).foldlM
        (butterfly (low.length + between.length) (UInt32.ofNat root))
        (before ++ (words low ++ (between ++ (words high ++ after)))) =
      some (before ++ (words (Poly.add low (high.map (mulMod root))) ++
        (between ++ (words (Poly.sub low (high.map (mulMod root))) ++ after)))) := by
  -- What was overwritten goes over to `before` and `between`, so that the two words of a butterfly
  -- stay equally far apart.
  induction low generalizing high before between with
  | nil =>
      cases high with
      | nil => rfl
      | cons first rest => cases lengths
  | cons lowFirst lowRest inductionHypothesis =>
      cases high with
      | nil => cases lengths
      | cons highFirst highRest =>
          obtain ⟨lowFirstFits, lowRestFits⟩ := List.forall_mem_cons.mp lowFits
          obtain ⟨highFirstFits, highRestFits⟩ := List.forall_mem_cons.mp highFits
          have restLengths : lowRest.length = highRest.length := Nat.succ.inj lengths
          have firstPlace : (words lowRest ++ between).length + 1 =
              lowRest.length + 1 + between.length := by
            rw [List.length_append, length_words]
            omega
          have restPlace (word : UInt32) : lowRest.length + (between ++ [word]).length =
              lowRest.length + 1 + between.length := by
            rw [List.length_append, List.length_singleton]
            omega
          have first := butterfly_eq rootReduced lowFirstFits highFirstFits before
            (words lowRest ++ between) (words highRest ++ after)
          have rest := inductionHypothesis restLengths lowRestFits highRestFits
            (before ++ [UInt32.ofNat (addMod lowFirst (mulMod root highFirst))])
            (between ++ [UInt32.ofNat (subMod lowFirst (mulMod root highFirst))])
          rw [firstPlace] at first
          rw [restPlace, List.length_append, List.length_singleton] at rest
          simp only [List.append_assoc, List.cons_append, List.nil_append] at first rest
          simp only [List.length_cons, List.range'_succ, List.foldlM_cons, words_cons,
            List.cons_append, first, Option.bind_eq_bind, Option.bind_some, rest, Poly.add,
            Poly.sub, List.map_cons, List.zipWith_cons_cons]

/-! ## Layers -/

/-- The two remainders of every block, in the order of the blocks. -/
def halve (half : Nat) : Nat → List Poly → List Poly
  | _, [] => []
  | number, block :: rest =>
      leftRemainder half number block :: rightRemainder half number block ::
        halve half (number + 1) rest

/-- What the blocks are split to, each with its own number. -/
def splitBlocks (depth : Nat) : Nat → List Poly → Poly
  | _, [] => []
  | number, block :: rest => splitBlock depth number block ++ splitBlocks depth (number + 1) rest

theorem splitBlocks_succ (depth number : Nat) (blocks : List Poly) :
    splitBlocks (depth + 1) number blocks =
      splitBlocks depth (2 * number) (halve (2 ^ depth) number blocks) := by
  induction blocks generalizing number with
  | nil => rfl
  | cons block rest inductionHypothesis =>
      rw [splitBlocks, inductionHypothesis, splitBlock_succ, halve, splitBlocks, splitBlocks,
        List.append_assoc]
      rfl

theorem splitBlocks_zero (number : Nat) (blocks : List Poly) :
    splitBlocks 0 number blocks = blocks.flatten := by
  induction blocks generalizing number with
  | nil => rfl
  | cons block rest inductionHypothesis =>
      rw [splitBlocks, inductionHypothesis, List.flatten_cons, splitBlock]

theorem length_halve (half number : Nat) (blocks : List Poly) :
    (halve half number blocks).length = 2 * blocks.length := by
  induction blocks generalizing number with
  | nil => rfl
  | cons block rest inductionHypothesis =>
      rw [halve, List.length_cons, List.length_cons, inductionHypothesis, List.length_cons]
      omega

/-- Blocks of one length whose coefficients are words. -/
def Uniform (length : Nat) (blocks : List Poly) : Prop :=
  ∀ block ∈ blocks, block.length = length ∧ Fits block

theorem uniform_halve {half : Nat} (number : Nat) {blocks : List Poly}
    (uniform : Uniform (2 * half) blocks) : Uniform half (halve half number blocks) := by
  induction blocks generalizing number with
  | nil => simp [halve, Uniform]
  | cons block rest inductionHypothesis =>
      obtain ⟨⟨length, _⟩, restUniform⟩ := List.forall_mem_cons.mp uniform
      refine List.forall_mem_cons.mpr ⟨?left, List.forall_mem_cons.mpr ⟨?right, ?rest⟩⟩
      case left => exact ⟨length_leftRemainder length, fits_of_reduced leftRemainder_lt⟩
      case right => exact ⟨length_rightRemainder length, fits_of_reduced rightRemainder_lt⟩
      case rest => exact inductionHypothesis (number + 1) restUniform

theorem splitAt_block {half : Nat} {block : Poly} (length : block.length = 2 * half)
    (fits : Fits block) (number : Nat) (before after : List UInt32) :
    splitAt half (UInt32.ofNat (splittingRoot number)) before.length
        (before ++ (words block ++ after)) =
      some (before ++ (words (leftRemainder half number block) ++
        (words (rightRemainder half number block) ++ after))) := by
  have lowLength : (block.take half).length = half := by
    rw [List.length_take, length]
    omega
  have lengths : (block.take half).length = (block.drop half).length := by
    rw [lowLength, List.length_drop, length]
    omega
  have lowFits : Fits (block.take half) := by
    intro number among
    exact fits number (List.mem_of_mem_take among)
  have highFits : Fits (block.drop half) := by
    intro number among
    exact fits number (List.mem_of_mem_drop among)
  have halves : words block = words (block.take half) ++ words (block.drop half) := by
    rw [← words_append, List.take_append_drop]
  have split := splitAt_eq (splittingRoot_lt number) lengths lowFits highFits before [] after
  rw [lowLength, List.length_nil, Nat.add_zero, List.nil_append, List.nil_append] at split
  rw [splitAt, halves, List.append_assoc, split]
  rfl

/-- A layer takes the blocks in turn, and the running number counts them. -/
theorem layer_eq {half : Nat} (positive : 0 < half) {blocks : List Poly}
    (uniform : Uniform (2 * half) blocks) (number : Nat) (before : List UInt32)
    (places : before.length + blocks.length * (2 * half) = 256)
    (numbers : number + blocks.length < 256) :
    layer splittingRoots half before.length number (before ++ words blocks.flatten) =
      some (number + blocks.length,
        before ++ words (halve half (number + 1) blocks).flatten) := by
  induction blocks generalizing number before with
  | nil =>
      have done : half = 0 ∨ 256 ≤ before.length := by
        simp at places
        omega
      rw [layer, if_pos done]
      rfl
  | cons block rest inductionHypothesis =>
      obtain ⟨⟨length, fits⟩, restUniform⟩ := List.forall_mem_cons.mp uniform
      rw [List.length_cons] at places numbers
      rw [Nat.succ_mul] at places
      have undone : ¬ (half = 0 ∨ 256 ≤ before.length) := by omega
      have inside : number + 1 < 256 := by omega
      have split := splitAt_block length fits (number + 1) before (words rest.flatten)
      have written : (before ++ (words (leftRemainder half (number + 1) block) ++
          words (rightRemainder half (number + 1) block))).length = before.length + 2 * half := by
        rw [List.length_append, List.length_append, length_words, length_words,
          length_leftRemainder length, length_rightRemainder length]
        omega
      have later := inductionHypothesis restUniform (number + 1)
        (before ++ (words (leftRemainder half (number + 1) block) ++
          words (rightRemainder half (number + 1) block)))
        (by rw [written]; omega) (by omega)
      have total : number + 1 + rest.length = number + (block :: rest).length := by
        rw [List.length_cons]
        omega
      rw [written, total] at later
      simp only [List.append_assoc] at later
      rw [layer, if_neg undone, getElem?_splittingRoots inside, List.flatten_cons, words_append]
      simp only [Option.bind_eq_bind, Option.bind_some, split, later, halve, List.flatten_cons,
        words_append]

theorem layers_eq (depth : Nat) {blocks : List Poly} (uniform : Uniform (2 ^ depth) blocks)
    (places : blocks.length * 2 ^ depth = 256) (number : Nat)
    (numbers : number + 1 = blocks.length) :
    layers splittingRoots (2 ^ depth / 2) number (words blocks.flatten) =
      some (words (splitBlocks depth (number + 1) blocks)) := by
  induction depth generalizing blocks number with
  | zero =>
      have none : 2 ^ 0 / 2 = 0 := rfl
      rw [layers, if_pos none, splitBlocks_zero]
  | succ depth inductionHypothesis =>
      have two : 2 ^ (depth + 1) = 2 * 2 ^ depth := Nat.pow_succ'
      have positive : 0 < 2 ^ depth := Nat.two_pow_pos depth
      have half : 2 ^ (depth + 1) / 2 = 2 ^ depth := by omega
      rw [two] at uniform places
      have pairs : 2 * blocks.length * 2 ^ depth = 256 := by
        rw [← places]
        ring
      have few : 2 * blocks.length ≤ 256 := by
        rw [← pairs]
        exact Nat.le_mul_of_pos_right _ positive
      have split := layer_eq positive uniform number []
        (by rw [List.length_nil, Nat.zero_add, places]) (by omega)
      have later := inductionHypothesis (uniform_halve (number + 1) uniform)
        (by rw [length_halve, pairs]) (number + blocks.length) (by rw [length_halve]; omega)
      have children : number + blocks.length + 1 = 2 * (number + 1) := by omega
      rw [children] at later
      rw [half, layers, if_neg (by omega)]
      simp only [List.length_nil, List.nil_append] at split
      simp only [split, Option.bind_eq_bind, Option.bind_some, later, splitBlocks_succ]

/-- The words of a polynomial are overwritten by its values. -/
theorem transform_words {poly : Poly} (length : poly.length = 256) (fits : Fits poly) :
    transform (words poly) = some (words (ntt poly)) := by
  have uniform : Uniform (2 ^ 8) [poly] := by
    simpa [Uniform, length] using fits
  have done := layers_eq 8 uniform (by norm_num) 0 rfl
  simpa [transform, rootTable_eq, splitBlocks, ntt] using done

end InPlace

open Polynomial

section Words

variable {degree : Nat} (poly : Vector UInt32 degree)

/-- The coefficients that are the words of a polynomial, reduced or not. -/
def coefficients : Poly :=
  List.ofFn fun place : Fin degree => poly[place].toNat

theorem length_coefficients : (coefficients poly).length = degree :=
  List.length_ofFn

theorem getElem?_coefficients (place : Fin degree) :
    (coefficients poly)[place.val]? = some poly[place].toNat := by
  simp [coefficients]

theorem fits_coefficients : InPlace.Fits (coefficients poly) := by
  intro coefficient among
  obtain ⟨place, rfl⟩ := List.mem_ofFn.mp among
  exact UInt32.toNat_lt _

theorem words_coefficients : InPlace.words (coefficients poly) = poly.toList := by
  refine List.ext_getElem ?_ ?_
  · rw [InPlace.length_words, length_coefficients, Vector.length_toList]
  · intro place inWords inPoly
    simp only [InPlace.words, coefficients, List.getElem_map, List.getElem_ofFn, Fin.getElem_fin,
      Vector.getElem_toList, UInt32.ofNat_toNat]

end Words

theorem exists_words {degree : Nat} {numbers : Poly} (length : numbers.length = degree)
    (fits : InPlace.Fits numbers) :
    ∃ result : Vector UInt32 degree, result.toList = InPlace.words numbers ∧
      coefficients result = numbers := by
  have size : (InPlace.words numbers).toArray.size = degree := by
    rw [List.size_toArray, InPlace.length_words, length]
  refine ⟨⟨(InPlace.words numbers).toArray, size⟩, rfl, ?_⟩
  refine List.ext_getElem ((length_coefficients _).trans length.symm) ?_
  intro place inResult inNumbers
  simp only [coefficients, InPlace.words, List.getElem_ofFn, Fin.getElem_fin, Vector.getElem_mk,
    List.getElem_toArray, List.getElem_map, UInt32.toNat_ofNat']
  exact Nat.mod_eq_of_lt (fits _ (List.getElem_mem inNumbers))

theorem polynomial_coefficients {degree : Nat} (poly : Vector UInt32 degree) :
    polynomial (coefficients poly) =
      ∑ place : Fin degree, C (poly[place].toNat : Scalar) * X ^ place.val :=
  polynomial_ofFn _

/-- Polynomials of a degree below the number of words are written with them. -/
theorem exists_coefficients {degree : Nat} {poly : Scalar[X]} (small : poly.natDegree < degree) :
    ∃ result : Vector UInt32 degree, polynomial (coefficients result) = poly := by
  refine ⟨Vector.ofFn fun place => UInt32.ofNat (poly.coeff place).val, ?_⟩
  have fits (place : Fin degree) : (UInt32.ofNat (poly.coeff place).val).toNat =
      (poly.coeff place).val := by
    have reduced : (poly.coeff place).val < modulus := ZMod.val_lt _
    rw [UInt32.toNat_ofNat']
    exact Nat.mod_eq_of_lt (Nat.lt_trans reduced (by decide))
  conv_rhs => rw [poly.as_sum_range_C_mul_X_pow' small]
  rw [polynomial_coefficients,
    ← Fin.sum_univ_eq_sum_range (fun place => C (poly.coeff place) * X ^ place)]
  refine Finset.sum_congr rfl ?_
  intro place _
  rw [Fin.getElem_fin, Vector.getElem_ofFn, fits, ZMod.natCast_zmod_val]

theorem exists_product {degree : Nat} (positive : 0 < degree) (left right : Vector UInt32 degree) :
    ∃ product : Vector UInt32 degree, polynomial (coefficients product) =
      polynomial (coefficients left) * polynomial (coefficients right) %ₘ (X ^ degree + 1) :=
  exists_coefficients (natDegree_remainder_lt positive _)

/-- Every value is the remainder of a sum of products of words and powers. -/
theorem getElem_ntt_coefficients (poly : Vector UInt32 256) {place : Nat}
    (inside : place < (ntt (coefficients poly)).length) :
    (ntt (coefficients poly))[place] =
      (∑ power : Fin 256, poly[power].toNat * root ^ ((2 * reversed place + 1) * power)) %
        modulus := by
  have congruent : ((ntt (coefficients poly))[place] : Scalar) =
      ((∑ power : Fin 256, poly[power].toNat * root ^ ((2 * reversed place + 1) * power) : Nat) :
        Scalar) := by
    rw [natCast_ntt (length_coefficients poly) inside, polynomial_coefficients, eval_finsetSum,
      Nat.cast_sum]
    refine Finset.sum_congr rfl ?_
    intro power _
    rw [eval_mul, eval_C, eval_pow, eval_X, ← pow_mul, Nat.cast_mul, Nat.cast_pow]
  rw [← (ZMod.natCast_eq_natCast_iff' _ _ _).mp congruent,
    Nat.mod_eq_of_lt (ntt_lt _ _ (List.getElem_mem inside))]

/-- Whatever the words are, the transform in place has a result, which is the values of their
polynomial. -/
theorem exists_transform (poly : Vector UInt32 256) : ∃ result : Vector UInt32 256,
    InPlace.transform poly.toList = some result.toList ∧
    coefficients result = ntt (coefficients poly) ∧
    ∀ place : Fin 256, result[place].toNat < 8380417 ∧
      result[place].toNat =
        (∑ power : Fin 256, poly[power].toNat *
          1753 ^ ((2 * (BitVec.ofNat 8 place).reverse.toNat + 1) * power)) % 8380417 := by
  have done := InPlace.transform_words (length_coefficients poly) (fits_coefficients poly)
  obtain ⟨result, resultWords, values⟩ := exists_words
    (length_ntt (length_coefficients poly)) (InPlace.fits_of_reduced (ntt_lt (coefficients poly)))
  rw [words_coefficients, ← resultWords] at done
  refine ⟨result, done, values, ?_⟩
  intro place
  have word := getElem?_coefficients result place
  rw [values] at word
  obtain ⟨inside, value⟩ := List.getElem?_eq_some_iff.mp word
  rw [← value]
  exact ⟨ntt_lt _ _ (List.getElem_mem inside), getElem_ntt_coefficients poly inside⟩

/-- The transform in place has a result for all words, and it is the values of their polynomial at
the odd powers of the root in bit-reversed order. So it turns sums into sums, and products modulo
`X²⁵⁶ + 1` into products place by place. -/
theorem transform_evaluates :
    (∀ poly : Vector UInt32 256, ∃ result : Vector UInt32 256,
      InPlace.transform poly.toList = some result.toList ∧
      coefficients result = ntt (coefficients poly) ∧
      ∀ place : Fin 256, result[place].toNat < 8380417 ∧
        result[place].toNat =
          (∑ power : Fin 256, poly[power].toNat *
            1753 ^ ((2 * (BitVec.ofNat 8 place).reverse.toNat + 1) * power)) % 8380417) ∧
    (∀ left right sum : Vector UInt32 256,
      (∀ place : Fin 256,
        sum[place].toNat ≡ left[place].toNat + right[place].toNat [MOD 8380417]) →
      ntt (coefficients sum) = Poly.add (ntt (coefficients left)) (ntt (coefficients right))) ∧
    (∀ left right product : Vector UInt32 256,
      X ^ 256 + 1 ∣ polynomial (coefficients left) * polynomial (coefficients right) -
        polynomial (coefficients product) →
      ntt (coefficients product) =
        Poly.mul (ntt (coefficients left)) (ntt (coefficients right))) ∧
    (∀ left right : Vector UInt32 256, ∃ product : Vector UInt32 256,
      polynomial (coefficients product) =
        polynomial (coefficients left) * polynomial (coefficients right) %ₘ (X ^ 256 + 1)) := by
  refine ⟨?evaluates, ?additive, ?multiplicative, ?products⟩
  case evaluates => exact exists_transform
  case additive =>
    intro left right sum congruent
    refine ntt_add (length_coefficients left) (length_coefficients right)
      (length_coefficients sum) ?_
    rw [polynomial_coefficients, polynomial_coefficients, polynomial_coefficients,
      ← Finset.sum_add_distrib]
    refine Finset.sum_congr rfl ?_
    intro place _
    have same := (ZMod.natCast_eq_natCast_iff _ _ modulus).mpr (congruent place)
    rw [same, Nat.cast_add, C_add, add_mul]
  case multiplicative =>
    intro left right product congruent
    exact ntt_mul (length_coefficients left) (length_coefficients right)
      (length_coefficients product) congruent
  case products =>
    intro left right
    exact exists_product (by decide) left right

end Countersign.Lattice.MlDsa
