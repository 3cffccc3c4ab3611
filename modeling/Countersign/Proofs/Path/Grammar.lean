import Countersign.Path.Json
import Countersign.Proofs.Result
import Countersign.Proofs.Text
import Mathlib.Data.List.Forall2
import Mathlib.Data.Nat.Bitwise

/-!
The grammar of paths in text, and that the reader takes this grammar and nothing else: the root, and
then for each component a slash, a plus sign or none, digits, and a mark on the hardened ones. The
text of a path is one of the texts that spell it.
-/

namespace Countersign.Path

theorem toNat_unhardened (component : UInt32) :
    (component &&& ~~~hardened).toNat = component.toNat % 2 ^ 31 := by
  have mask : (~~~hardened).toNat = 2 ^ 31 - 1 := by decide
  rw [UInt32.toNat_and, mask, Nat.and_two_pow_sub_one_eq_mod]

theorem and_hardened_ne_zero_iff (component : UInt32) :
    component &&& hardened ≠ 0 ↔ 2 ^ 31 ≤ component.toNat := by
  have small := component.toNat_lt
  have bit : component.toNat.testBit 31 = decide (2 ^ 31 ≤ component.toNat) := by
    rw [Nat.testBit_eq_decide_div_mod_eq, decide_eq_decide]
    omega
  have cut : (component &&& hardened).toNat = (component.toNat.testBit 31).toNat * 2 ^ 31 := by
    rw [UInt32.toNat_and]
    exact Nat.and_two_pow component.toNat 31
  have zero : component &&& hardened = 0 ↔ (component &&& hardened).toNat = 0 := by
    rw [← UInt32.toNat_inj]
    rfl
  rw [Ne, zero, cut, bit]
  simp

/-- A component as it is written: its index, and whether it has a mark. -/
structure Written where
  index : Nat
  marked : Bool
deriving DecidableEq

namespace Written

/-- The component has this index, and it is hardened just if there is a mark. -/
def Denotes (written : Written) (component : UInt32) : Prop :=
  (component &&& ~~~hardened).toNat = written.index ∧
    (component &&& hardened ≠ 0 ↔ written.marked = true)

variable {written : Written} {component : UInt32}

theorem denotes_iff : written.Denotes component ↔
    component.toNat % 2 ^ 31 = written.index ∧
      (2 ^ 31 ≤ component.toNat ↔ written.marked = true) := by
  rw [Denotes, toNat_unhardened, and_hardened_ne_zero_iff]

theorem leftUnique_denotes : Relator.LeftUnique Denotes := by
  intro written other component first second
  have index : written.index = other.index := first.1.symm.trans second.1
  have marked : written.marked = other.marked :=
    Bool.eq_iff_iff.mpr (first.2.symm.trans second.2)
  cases written
  cases other
  congr

theorem rightUnique_denotes : Relator.RightUnique Denotes := by
  intro written component otherComponent first second
  obtain ⟨index, high⟩ := denotes_iff.mp first
  obtain ⟨otherIndex, otherHigh⟩ := denotes_iff.mp second
  have below := component.toNat_lt
  have otherBelow := otherComponent.toNat_lt
  have alike := high.trans otherHigh.symm
  rw [← UInt32.toNat_inj]
  omega

/-- The component that the reader makes of an index and a mark. -/
theorem denotes_or_hardened (small : written.index < 2 ^ 31) :
    written.Denotes (UInt32.ofNat written.index ||| if written.marked then hardened else 0) := by
  have index : (UInt32.ofNat written.index).toNat = written.index :=
    UInt32.toNat_ofNat_of_lt' (Nat.lt_trans small (by decide))
  rw [denotes_iff]
  cases marked : written.marked with
  | false =>
      rw [if_neg Bool.false_ne_true, UInt32.or_zero, index]
      simp
      omega
  | true =>
      have bit : hardened.toNat = 2 ^ 31 * 1 := by decide
      have joined := Nat.two_pow_add_eq_or_of_lt small 1
      rw [if_pos rfl, UInt32.toNat_or, index, bit, Nat.or_comm, ← joined]
      simp
      omega

/-- What may stand behind the digits. -/
def marks (written : Written) : List (List Char) :=
  if written.marked then [['\x27'], ['h']] else [[]]

/-- A text of a component: a plus sign or none, digits that denote the index, which leaves the
highest bit free, and just if there is a mark one of the two marks. -/
def SpelledBy (written : Written) (part : List Char) : Prop :=
  ∃ sign ∈ [[], ['+']], ∃ digits, ∃ mark ∈ written.marks,
    part = sign ++ digits ++ mark ∧ Text.Numeral digits written.index ∧ written.index < 2 ^ 31

end Written

/-- A text of a path: blanks may stand on both sides of it, but not within it. -/
def Spells (written : List Written) (text : String) : Prop :=
  ∃ before parts after, (∀ character ∈ before, Text.isBlank character = true) ∧
    (∀ character ∈ after, Text.isBlank character = true) ∧
    text.toList = before ++ ('m' :: parts.flatMap ('/' :: ·)) ++ after ∧
    List.Forall₂ Written.SpelledBy written parts

theorem ofComponents_eq_ok_iff {components : List UInt32} {path : Path} :
    ofComponents components = .ok path ↔ path.components = components := by
  constructor
  · intro taken
    rw [ofComponents] at taken
    split at taken
    · cases taken
      rfl
    · cases taken
  · rintro rfl
    rw [ofComponents, dif_pos path.depth_le]

/-- What a digit is not. -/
theorem digit_differs {character : Char} (digit : character.isDigit = true) :
    Text.isBlank character = false ∧ character ≠ '/' ∧ character ≠ '+' ∧ character ≠ '\x27' ∧
      character ≠ 'h' := by
  refine ⟨?_, ?_, ?_, ?_, ?_⟩
  · simp [Char.isDigit, UInt32.le_iff_toNat_le] at digit
    simp [Text.isBlank]
    omega
  all_goals
    rintro rfl
    simp [Char.isDigit] at digit

/-- No component holds a blank or a slash. -/
theorem Written.SpelledBy.plain {written : Written} {part : List Char}
    (spelled : written.SpelledBy part) {character : Char} (among : character ∈ part) :
    Text.isBlank character = false ∧ character ≠ '/' := by
  obtain ⟨sign, signs, digits, mark, marks, rfl, numeral, _⟩ := spelled
  have inSigns : ∀ sign ∈ [[], ['+']], ∀ character ∈ sign,
      Text.isBlank character = false ∧ character ≠ '/' := by simp [Text.isBlank]
  have inMarks : ∀ mark ∈ written.marks, ∀ character ∈ mark,
      Text.isBlank character = false ∧ character ≠ '/' := by
    rw [Written.marks]
    split <;> simp [Text.isBlank]
  rcases List.mem_append.mp among with inFront | inMark
  · rcases List.mem_append.mp inFront with inSign | inDigits
    · exact inSigns sign signs character inSign
    · obtain ⟨visible, differs, _⟩ := digit_differs (numeral.digits character inDigits)
      exact ⟨visible, differs⟩
  · exact inMarks mark marks character inMark

section Reading

variable {written : Written} {part : List Char} {index : Nat} {component : UInt32}

/-- A mark is taken off what stands in front of it, if that does not end with a mark itself. -/
theorem splitMark_append {mark : List Char} (marks : mark ∈ written.marks)
    (unmarked : ∀ character ∈ part, character ≠ '\x27' ∧ character ≠ 'h') :
    splitMark (part ++ mark) = (part, written.marked) := by
  rw [Written.marks] at marks
  cases marked : written.marked with
  | true =>
      rw [marked, if_pos rfl, List.mem_pair] at marks
      rcases marks with rfl | rfl <;> simp [splitMark]
  | false =>
      rw [marked, if_neg Bool.false_ne_true, List.mem_singleton] at marks
      rw [marks, List.append_nil, splitMark]
      split
      · next last => exact absurd rfl (unmarked _ (List.mem_of_getLast? last)).1
      · next last => exact absurd rfl (unmarked _ (List.mem_of_getLast? last)).2
      · rfl

/-- What is taken apart is joined of the rest and the mark. -/
theorem exists_mark (part : List Char) (index : Nat) :
    ∃ mark ∈ Written.marks ⟨index, (splitMark part).2⟩, part = (splitMark part).1 ++ mark := by
  rw [splitMark]
  split
  · next last => exact ⟨['\x27'], .head _, (List.dropLast_append_getLast? _ last).symm⟩
  · next last => exact ⟨['h'], .tail _ (.head _), (List.dropLast_append_getLast? _ last).symm⟩
  · exact ⟨[], .head _, (List.append_nil part).symm⟩

theorem index?_plus (rest : List Char) :
    index? ('+' :: rest) = (Text.decimal? rest).filter (· < UInt32.size) := by
  simp only [index?]
  cases Text.decimal? rest <;> simp [Option.filter]

theorem index?_of_unsigned (unsigned : ∀ rest, part ≠ '+' :: rest) :
    index? part = (Text.decimal? part).filter (· < UInt32.size) := by
  simp only [index?]
  cases Text.decimal? part <;> simp [Option.filter]

/-- The reader of an index takes a plus sign or none and then digits of a number in four bytes. -/
theorem index?_eq_some_iff : index? part = some index ↔
    ∃ sign ∈ [[], ['+']], ∃ digits, part = sign ++ digits ∧ Text.Numeral digits index ∧
      index < UInt32.size := by
  by_cases signed : ∃ rest, part = '+' :: rest
  · obtain ⟨rest, rfl⟩ := signed
    rw [index?_plus, Option.filter_eq_some_iff, Text.decimal?_eq_some_iff, decide_eq_true_eq]
    constructor
    · exact fun ⟨numeral, small⟩ => ⟨['+'], .tail _ (.head _), rest, rfl, numeral, small⟩
    · rintro ⟨sign, signs, digits, joined, numeral, small⟩
      rcases List.mem_pair.mp signs with rfl | rfl
      · obtain rfl : '+' :: rest = digits := joined
        exact absurd rfl (digit_differs (numeral.digits '+' List.mem_cons_self)).2.2.1
      · cases joined
        exact ⟨numeral, small⟩
  · rw [not_exists] at signed
    rw [index?_of_unsigned signed, Option.filter_eq_some_iff, Text.decimal?_eq_some_iff,
      decide_eq_true_eq]
    constructor
    · exact fun ⟨numeral, small⟩ => ⟨[], .head _, part, rfl, numeral, small⟩
    · rintro ⟨sign, signs, digits, joined, numeral, small⟩
      rcases List.mem_pair.mp signs with rfl | rfl
      · obtain rfl : part = digits := joined
        exact ⟨numeral, small⟩
      · exact absurd joined (signed digits)

variable (text : String)

theorem readComponentText_of_spelledBy (spelled : written.SpelledBy part) :
    ∃ component, readComponentText text part = .ok component ∧ written.Denotes component := by
  obtain ⟨sign, signs, digits, mark, marks, rfl, numeral, small⟩ := spelled
  have unmarked : ∀ character ∈ sign ++ digits, character ≠ '\x27' ∧ character ≠ 'h' := by
    have inSigns : ∀ sign ∈ [[], ['+']], ∀ character ∈ sign,
        character ≠ '\x27' ∧ character ≠ 'h' := by simp
    intro character among
    rcases List.mem_append.mp among with inSign | inDigits
    · exact inSigns sign signs character inSign
    · exact (digit_differs (numeral.digits character inDigits)).2.2.2
  have read : index? (sign ++ digits) = some written.index :=
    index?_eq_some_iff.mpr
      ⟨sign, signs, digits, rfl, numeral, Nat.lt_trans small (by decide)⟩
  have free : ¬ hardened.toNat ≤ written.index := Nat.not_le_of_lt small
  refine ⟨_, ?_, Written.denotes_or_hardened small⟩
  rw [readComponentText, splitMark_append marks unmarked]
  simp only [read, if_neg free]

theorem exists_of_readComponentText (read : readComponentText text part = .ok component) :
    ∃ written : Written, written.SpelledBy part ∧ written.Denotes component := by
  rcases cut : splitMark part with ⟨digits, marked⟩
  rw [readComponentText, cut] at read
  cases found : index? digits with
  | none =>
      simp only [found] at read
      cases read
  | some index =>
      obtain ⟨sign, signs, run, rfl, numeral, _⟩ := index?_eq_some_iff.mp found
      obtain ⟨mark, marks, joined⟩ := exists_mark part index
      rw [cut] at marks joined
      by_cases high : hardened.toNat ≤ index
      · simp only [found, if_pos high] at read
        cases read
      · simp only [found, if_neg high] at read
        cases read
        have small : index < 2 ^ 31 := Nat.lt_of_not_le high
        exact ⟨⟨index, marked⟩, ⟨sign, signs, run, mark, marks, joined, numeral, small⟩,
          Written.denotes_or_hardened small⟩

theorem readComponentText_refused {error : Error}
    (refused : readComponentText text part = .error error) : ∃ fault, error = .path fault := by
  rw [readComponentText] at refused
  split at refused
  split at refused
  · cases refused
    exact ⟨_, rfl⟩
  · split at refused
    · cases refused
      exact ⟨_, rfl⟩
    · cases refused

/-! ## Whole paths -/

variable {parts : List (List Char)} {allWritten : List Written} {components : List UInt32}

theorem mapM_of_spelledBy (spelled : List.Forall₂ Written.SpelledBy allWritten parts) :
    ∃ components, parts.mapM (readComponentText text) = .ok components ∧
      List.Forall₂ Written.Denotes allWritten components := by
  induction spelled with
  | nil => exact ⟨[], rfl, .nil⟩
  | cons first later inductionHypothesis =>
      obtain ⟨component, firstRead, firstDenotes⟩ := readComponentText_of_spelledBy text first
      obtain ⟨components, laterRead, laterDenotes⟩ := inductionHypothesis
      refine ⟨component :: components, ?_, .cons firstDenotes laterDenotes⟩
      rw [List.mapM_cons, firstRead, laterRead]
      rfl

variable {text}

theorem exists_of_mapM (read : parts.mapM (readComponentText text) = .ok components) :
    ∃ allWritten, List.Forall₂ Written.SpelledBy allWritten parts ∧
      List.Forall₂ Written.Denotes allWritten components := by
  induction parts generalizing components with
  | nil =>
      cases read
      exact ⟨[], .nil, .nil⟩
  | cons part parts inductionHypothesis =>
      rw [List.mapM_cons] at read
      obtain ⟨component, firstRead, read⟩ := Result.bind_eq_ok read
      obtain ⟨others, laterRead, read⟩ := Result.bind_eq_ok read
      cases read
      obtain ⟨first, firstSpelled, firstDenotes⟩ := exists_of_readComponentText text firstRead
      obtain ⟨later, laterSpelled, laterDenotes⟩ := inductionHypothesis laterRead
      exact ⟨first :: later, .cons firstSpelled laterSpelled, .cons firstDenotes laterDenotes⟩

theorem plain_of_spelledBy (spelled : List.Forall₂ Written.SpelledBy allWritten parts)
    {part : List Char} (among : part ∈ parts) {character : Char} (within : character ∈ part) :
    Text.isBlank character = false ∧ character ≠ '/' := by
  induction spelled with
  | nil => cases among
  | cons first _ inductionHypothesis =>
      rcases List.mem_cons.mp among with rfl | later
      · exact first.plain within
      · exact inductionHypothesis later

theorem exists_getElem?_of_denotes (denoted : List.Forall₂ Written.Denotes allWritten components)
    {place : Nat} (here : components[place]? = some component) :
    ∃ written, allWritten[place]? = some written ∧ written.Denotes component := by
  induction denoted generalizing place with
  | nil => cases here
  | cons first _ inductionHypothesis =>
      cases place with
      | zero =>
          cases here
          exact ⟨_, rfl, first⟩
      | succ place => exact inductionHypothesis here

/-- A text of the grammar is read as the components that it denotes, unless they are too many. -/
theorem parse_of_spells (spelled : Spells allWritten text) :
    ∃ components, parse text = ofComponents components ∧
      List.Forall₂ Written.Denotes allWritten components := by
  obtain ⟨before, parts, after, blankBefore, blankAfter, joined, each⟩ := spelled
  obtain ⟨components, read, denoted⟩ := mapM_of_spelledBy text each
  have visible : ∀ character ∈ 'm' :: parts.flatMap ('/' :: ·),
      Text.isBlank character = false := by
    refine List.forall_mem_cons.mpr ⟨rfl, fun character among => ?_⟩
    obtain ⟨part, isPart, inPart⟩ := List.mem_flatMap.mp among
    rcases List.mem_cons.mp inPart with rfl | within
    · rfl
    · exact (plain_of_spelledBy each isPart within).1
  have cut : Text.splitOn '/' (['m'] ++ parts.flatMap ('/' :: ·)) = ['m'] :: parts := by
    refine Text.splitOn_joined (List.forall_mem_cons.mpr ⟨by decide, ?_⟩)
    intro part isPart slash
    exact (plain_of_spelledBy each isPart slash).2 rfl
  rw [List.singleton_append] at cut
  refine ⟨components, ?_, denoted⟩
  rw [parse, joined, Text.trim_around blankBefore blankAfter visible (List.cons_ne_nil _ _), cut]
  simp only [read, Result.ok_bind]

/-- Whatever is read is a text of the grammar for the components of the path. -/
theorem spells_of_parse {path : Path} (read : parse text = .ok path) :
    ∃ allWritten, Spells allWritten text ∧
      List.Forall₂ Written.Denotes allWritten path.components := by
  obtain ⟨before, after, blankBefore, blankAfter, around⟩ := Text.exists_trim text.toList
  obtain ⟨root, parts, cut, joined, _⟩ := Text.exists_splitOn '/' (Text.trim text.toList)
  rw [parse, cut] at read
  split at read
  · next same =>
      obtain ⟨rfl, rfl⟩ := List.cons.inj same
      obtain ⟨components, each, read⟩ := Result.bind_eq_ok read
      obtain ⟨allWritten, spelled, denoted⟩ := exists_of_mapM each
      obtain rfl := ofComponents_eq_ok_iff.mp read
      rw [joined] at around
      exact ⟨allWritten, ⟨before, _, after, blankBefore, blankAfter, around, spelled⟩, denoted⟩
  · cases read

theorem parse_eq_ok_iff {path : Path} : parse text = .ok path ↔
    ∃ allWritten, Spells allWritten text ∧
      List.Forall₂ Written.Denotes allWritten path.components := by
  refine ⟨spells_of_parse, fun ⟨allWritten, spelled, denoted⟩ => ?_⟩
  obtain ⟨components, read, alsoDenoted⟩ := parse_of_spells spelled
  rw [read, ofComponents_eq_ok_iff]
  exact Written.rightUnique_denotes.forall₂ denoted alsoDenoted

/-- The path that a text is read as is the one that it spells, however it spells it. -/
theorem denotes_of_parse {path : Path} (read : parse text = .ok path)
    (spelled : Spells allWritten text) :
    List.Forall₂ Written.Denotes allWritten path.components := by
  obtain ⟨components, alsoRead, denoted⟩ := parse_of_spells spelled
  rw [read, eq_comm, ofComponents_eq_ok_iff] at alsoRead
  rwa [alsoRead]

theorem parse_refused {error : Error} (refused : parse text = .error error) :
    ∃ fault, error = .path fault := by
  rw [parse] at refused
  split at refused
  · next parts _ =>
      cases each : parts.mapM (readComponentText text) with
      | error stopped =>
          obtain ⟨part, _, failed⟩ := Result.exists_of_mapM_eq_error each
          rw [each] at refused
          cases refused
          exact readComponentText_refused text failed
      | ok components =>
          rw [each, Result.ok_bind, ofComponents] at refused
          split at refused
          · cases refused
          · cases refused
            exact ⟨_, rfl⟩
  · cases refused
    exact ⟨_, rfl⟩

end Reading

/-- The digits of a component and its mark. -/
def numeral (component : UInt32) : List Char :=
  Nat.toDigits 10 (component.toNat % 2 ^ 31) ++
    if 2 ^ 31 ≤ component.toNat then ['\x27'] else []

theorem componentText_eq (component : UInt32) :
    componentText component = '/' :: numeral component := by
  rw [componentText, numeral]
  by_cases high : 2 ^ 31 ≤ component.toNat
  · rw [if_pos ((and_hardened_ne_zero_iff component).2 high), if_pos high, toNat_unhardened]
    rfl
  · rw [if_neg (mt (and_hardened_ne_zero_iff component).1 high), if_neg high, List.append_nil,
      Nat.mod_eq_of_lt (Nat.lt_of_not_le high)]

/-- A component the way its text shows it. -/
def shown (component : UInt32) : Written :=
  ⟨component.toNat % 2 ^ 31, 2 ^ 31 ≤ component.toNat⟩

theorem denotes_shown (component : UInt32) : (shown component).Denotes component := by
  rw [Written.denotes_iff, shown, decide_eq_true_eq]
  exact ⟨rfl, Iff.rfl⟩

theorem spelledBy_numeral (component : UInt32) :
    (shown component).SpelledBy (numeral component) := by
  refine ⟨[], .head _, _, _, ?_, rfl, Text.numeral_toDigits _, Nat.mod_lt _ (by decide)⟩
  simp only [Written.marks, shown, decide_eq_true_eq]
  split
  · exact .head _
  · exact .head _

theorem toList_text (path : Path) :
    path.text.toList = ['m'] ++ (path.components.map numeral).flatMap ('/' :: ·) := by
  have same : componentText = fun component => '/' :: numeral component := funext componentText_eq
  rw [text, String.toList_ofList, List.flatMap_map, same]
  rfl

theorem spells_text (path : Path) : Spells (path.components.map shown) path.text := by
  refine ⟨[], path.components.map numeral, [], by simp, by simp, ?_, ?_⟩
  · rw [toList_text, List.nil_append, List.append_nil]
    rfl
  · rw [List.forall₂_map_left_iff, List.forall₂_map_right_iff, List.forall₂_same]
    exact fun component _ => spelledBy_numeral component

theorem denotes_shown_all (components : List UInt32) :
    List.Forall₂ Written.Denotes (components.map shown) components := by
  rw [List.forall₂_map_left_iff, List.forall₂_same]
  exact fun component _ => denotes_shown component

/-- The text of a path denotes the path. -/
theorem parse_text (path : Path) : parse path.text = .ok path := by
  rw [parse_eq_ok_iff]
  exact ⟨_, spells_text path, denotes_shown_all path.components⟩

/-- The text of a path is read as the path. A text is read as a path just if it is written by the
grammar, with blanks around it or not, and denotes the components of the path, which are ten at
most; any other text is refused as no path. So a component of what was read is hardened just if it
was written with a mark, and two texts that are read as one path have the same indices and marks. -/
theorem text_read_by_grammar :
    (∀ path : Path, parse path.text = .ok path) ∧
      (∀ (text : String) (path : Path), parse text = .ok path ↔
        ∃ written, Spells written text ∧ written.length ≤ 10 ∧
          List.Forall₂ Written.Denotes written path.components) ∧
      (∀ text : String, (¬ ∃ written, Spells written text ∧ written.length ≤ 10) ↔
        ∃ fault, parse text = .error (.path fault)) ∧
      (∀ (text : String) (path : Path) (written : List Written), parse text = .ok path →
        Spells written text → ∀ (place : Nat) (component : UInt32),
          path.components[place]? = some component → component &&& hardened ≠ 0 →
            ∃ one, written[place]? = some one ∧ one.marked = true) ∧
      ∀ (text other : String) (path : Path) (written otherWritten : List Written),
        parse text = .ok path → parse other = .ok path → Spells written text →
          Spells otherWritten other → written = otherWritten := by
  have shallow {path : Path} {written : List Written}
      (denoted : List.Forall₂ Written.Denotes written path.components) : written.length ≤ 10 :=
    denoted.length_eq ▸ path.depth_le
  refine ⟨parse_text, fun text path => ?_, fun text => ?_, ?_, ?_⟩
  · rw [parse_eq_ok_iff]
    exact ⟨fun ⟨written, spelled, denoted⟩ => ⟨written, spelled, shallow denoted, denoted⟩,
      fun ⟨written, spelled, _, denoted⟩ => ⟨written, spelled, denoted⟩⟩
  · constructor
    · intro unspelled
      cases read : parse text with
      | error error =>
          obtain ⟨fault, rfl⟩ := parse_refused read
          exact ⟨fault, rfl⟩
      | ok path =>
          obtain ⟨written, spelled, denoted⟩ := spells_of_parse read
          exact absurd ⟨written, spelled, shallow denoted⟩ unspelled
    · rintro ⟨fault, refused⟩ ⟨written, spelled, few⟩
      obtain ⟨components, read, denoted⟩ := parse_of_spells spelled
      rw [denoted.length_eq] at few
      rw [refused, ofComponents, dif_pos few] at read
      cases read
  · intro text path written read spelled place component here high
    obtain ⟨one, found, denotes⟩ := exists_getElem?_of_denotes (denotes_of_parse read spelled) here
    exact ⟨one, found, denotes.2.mp high⟩
  · intro text other path written otherWritten read otherRead spelled otherSpelled
    exact Written.leftUnique_denotes.forall₂ (denotes_of_parse read spelled)
      (denotes_of_parse otherRead otherSpelled)

/-- Blanks around it, a plus sign, zeros in front and the other mark make no other path. -/
theorem text_read_by_grammar_variant :
    ∃ path written, parse " m/+044h\n" = .ok path ∧ parse "m/44'" = .ok path ∧
      path.components = [44 ||| hardened] ∧ Spells written " m/+044h\n" ∧ Spells written "m/44'" ∧
        ∃ one, written[0]? = some one ∧ one.marked = true := by
  have read : parse " m/+044h\n" = .ok ⟨[44 ||| hardened], by decide⟩ := by rfl
  have otherRead : parse "m/44'" = .ok ⟨[44 ||| hardened], by decide⟩ := by rfl
  obtain ⟨_, reads, _, marks, alike⟩ := text_read_by_grammar
  obtain ⟨written, spelled, _, _⟩ := (reads _ _).mp read
  obtain ⟨otherWritten, otherSpelled, _, _⟩ := (reads _ _).mp otherRead
  obtain rfl := alike _ _ _ _ _ read otherRead spelled otherSpelled
  exact ⟨_, written, read, otherRead, rfl, spelled, otherSpelled,
    marks _ _ _ read spelled 0 _ rfl (by decide)⟩

end Countersign.Path
