import Countersign.Text

/-!
A run of characters is read as a number just if it is a run of digits that denotes the number, and a
text is cut into the parts that it is joined of. What is taken off its ends are blanks.
-/

namespace Countersign.Text

variable {base value : Nat}

theorem exists_digitChar (large : 1 < base) {character : Char}
    (among : character ∈ Nat.toDigits base value) :
    ∃ digit < base, character = Nat.digitChar digit := by
  induction value using Nat.strongRecOn with
  | ind value inductionHypothesis =>
      by_cases small : value < base
      · rw [Nat.toDigits_of_lt_base small, List.mem_singleton] at among
        exact ⟨value, small, among⟩
      · have fewer : value / base < value := Nat.div_lt_self (by omega) large
        rw [Nat.toDigits_of_base_le large (by omega), List.mem_append, List.mem_singleton] at among
        rcases among with higher | last
        · exact inductionHypothesis _ fewer higher
        · exact ⟨value % base, Nat.mod_lt _ (by omega), last⟩

/-- A reader that takes one digit at a time has read the number when its digits are behind it,
whatever follows them. -/
theorem read_toDigits {α : Type} {read : Nat → List Char → α} (large : 1 < base)
    (step : ∀ before digit rest, digit < base →
      read before (Nat.digitChar digit :: rest) = read (base * before + digit) rest)
    (value : Nat) (rest : List Char) :
    read 0 (Nat.toDigits base value ++ rest) = read value rest := by
  induction value using Nat.strongRecOn generalizing rest with
  | ind value inductionHypothesis =>
      by_cases small : value < base
      · rw [Nat.toDigits_of_lt_base small, List.singleton_append, step 0 value rest small,
          Nat.mul_zero, Nat.zero_add]
      · have fewer : value / base < value := Nat.div_lt_self (by omega) large
        rw [Nat.toDigits_of_base_le large (by omega), List.append_assoc,
          inductionHypothesis _ fewer, List.singleton_append,
          step _ _ rest (Nat.mod_lt _ (by omega)), Nat.div_add_mod]

/-- A run of digits and the number that it denotes. -/
structure Numeral (run : List Char) (value : Nat) : Prop where
  nonempty : run ≠ []
  digits : ∀ character ∈ run, character.isDigit = true
  denotes : Nat.ofDigitChars 10 run 0 = value

theorem numeral_toDigits (value : Nat) : Numeral (Nat.toDigits 10 value) value where
  nonempty := Nat.toDigits_ne_nil
  digits _ among := Nat.isDigit_of_mem_toDigits (by decide) (by decide) among
  denotes := Nat.ofDigitChars_toDigits (by decide) (by decide)

theorem decimalDigit?_eq_some_iff {character : Char} {digit : Nat} :
    decimalDigit? character = some digit ↔
      character.isDigit = true ∧ character.toNat - 48 = digit := by
  have within : character.isDigit = true ↔ 48 ≤ character.toNat ∧ character.toNat ≤ 57 := by
    simp [Char.isDigit, UInt32.le_iff_toNat_le]
  rw [within]
  simp only [decimalDigit?]
  split
  · next digit => simp [digit]
  · next other => simp [other]

/-- What is read after a number are digits, and they are appended to its own. -/
theorem decimalFrom_eq_some_iff {before : Nat} {run : List Char} :
    decimalFrom before run = some value ↔
      (∀ character ∈ run, character.isDigit = true) ∧ Nat.ofDigitChars 10 run before = value := by
  induction run generalizing before with
  | nil => simp [decimalFrom, Nat.ofDigitChars]
  | cons character run inductionHypothesis =>
      rw [decimalFrom, List.forall_mem_cons]
      cases read : decimalDigit? character with
      | none =>
          have other : ¬ character.isDigit = true := fun digit => by
            have found := decimalDigit?_eq_some_iff.mpr ⟨digit, rfl⟩
            rw [read] at found
            cases found
          simp [other]
      | some digit =>
          obtain ⟨isDigit, rfl⟩ := decimalDigit?_eq_some_iff.mp read
          simp [inductionHypothesis, isDigit, Nat.ofDigitChars]

theorem decimal?_eq_some_iff {run : List Char} : decimal? run = some value ↔ Numeral run value := by
  cases run with
  | nil =>
      constructor
      · rintro ⟨⟩
      · exact fun numeral => absurd rfl numeral.nonempty
  | cons first later =>
      rw [decimal?, decimalFrom_eq_some_iff]
      · exact ⟨fun ⟨digits, denotes⟩ => ⟨List.cons_ne_nil _ _, digits, denotes⟩,
          fun numeral => ⟨numeral.digits, numeral.denotes⟩⟩
      · exact List.cons_ne_nil _ _

section Trimming

variable {before core after : List Char}

theorem dropWhile_around (blankBefore : ∀ character ∈ before, isBlank character = true)
    (visible : ∀ character ∈ core, isBlank character = false) (nonempty : core ≠ []) :
    (before ++ (core ++ after)).dropWhile isBlank = core ++ after := by
  obtain ⟨first, later, rfl⟩ := List.exists_cons_of_ne_nil nonempty
  rw [List.dropWhile_append_of_pos blankBefore, List.cons_append]
  exact List.dropWhile_cons_of_neg (by simp [visible first List.mem_cons_self])

/-- A text without blanks is what is left of it and blanks around it. -/
theorem trim_around (blankBefore : ∀ character ∈ before, isBlank character = true)
    (blankAfter : ∀ character ∈ after, isBlank character = true)
    (visible : ∀ character ∈ core, isBlank character = false) (nonempty : core ≠ []) :
    trim (before ++ core ++ after) = core := by
  have behind : (after.reverse ++ (core.reverse ++ [])).dropWhile isBlank = core.reverse ++ [] :=
    dropWhile_around (by simpa using blankAfter) (by simpa using visible) (by simpa using nonempty)
  rw [List.append_nil] at behind
  rw [trim, List.append_assoc, dropWhile_around blankBefore visible nonempty, List.reverse_append,
    behind, List.reverse_reverse]

/-- What is taken off are blanks. -/
theorem exists_trim (text : List Char) :
    ∃ before after, (∀ character ∈ before, isBlank character = true) ∧
      (∀ character ∈ after, isBlank character = true) ∧ text = before ++ trim text ++ after := by
  refine ⟨text.takeWhile isBlank, ((text.dropWhile isBlank).reverse.takeWhile isBlank).reverse,
    List.all_eq_true.mp List.all_takeWhile, fun character among => ?_, ?_⟩
  · exact List.all_eq_true.mp List.all_takeWhile character (List.mem_reverse.mp among)
  · rw [trim, List.append_assoc, ← List.reverse_append, List.takeWhile_append_dropWhile,
      List.reverse_reverse, List.takeWhile_append_dropWhile]

end Trimming

variable {separator : Char} {part : List Char}

theorem splitOn_alone (whole : separator ∉ part) : splitOn separator part = [part] := by
  induction part with
  | nil => rfl
  | cons character part inductionHypothesis =>
      rw [List.mem_cons, not_or] at whole
      obtain ⟨differs, later⟩ := whole
      simp [splitOn, Ne.symm differs, inductionHypothesis later]

theorem splitOn_first (whole : separator ∉ part) (rest : List Char) :
    splitOn separator (part ++ separator :: rest) = part :: splitOn separator rest := by
  induction part with
  | nil => simp [splitOn]
  | cons character part inductionHypothesis =>
      rw [List.mem_cons, not_or] at whole
      obtain ⟨differs, later⟩ := whole
      simp [splitOn, Ne.symm differs, inductionHypothesis later]

/-- Parts that are joined by separators are cut into these parts. -/
theorem splitOn_joined {parts : List (List Char)} (whole : ∀ one ∈ part :: parts, separator ∉ one) :
    splitOn separator (part ++ parts.flatMap (separator :: ·)) = part :: parts := by
  induction parts generalizing part with
  | nil =>
      rw [List.flatMap_nil, List.append_nil]
      exact splitOn_alone (whole part List.mem_cons_self)
  | cons next parts inductionHypothesis =>
      obtain ⟨here, later⟩ := List.forall_mem_cons.mp whole
      rw [List.flatMap_cons, List.cons_append, splitOn_first here, inductionHypothesis later]

/-- Every text is joined of the parts that it is cut into, and no part holds a separator. -/
theorem exists_splitOn (separator : Char) (text : List Char) :
    ∃ part parts, splitOn separator text = part :: parts ∧
      text = part ++ parts.flatMap (separator :: ·) ∧ ∀ one ∈ part :: parts, separator ∉ one := by
  induction text with
  | nil => exact ⟨[], [], rfl, rfl, by simp⟩
  | cons character text inductionHypothesis =>
      obtain ⟨part, parts, cut, joined, whole⟩ := inductionHypothesis
      by_cases ends : character = separator
      · refine ⟨[], part :: parts, ?_, ?_, by simpa using whole⟩
        · rw [splitOn, if_pos ends, cut]
        · rw [List.nil_append, List.flatMap_cons, List.cons_append, ← joined, ends]
      · refine ⟨character :: part, parts, ?_, ?_, ?_⟩
        · rw [splitOn, if_neg ends, cut]
        · rw [List.cons_append, ← joined]
        · rw [List.forall_mem_cons] at whole ⊢
          exact ⟨by simpa [Ne.symm ends] using whole.1, whole.2⟩

end Countersign.Text
