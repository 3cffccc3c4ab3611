import Countersign.Proofs.Json.Reading

/-!
Whether the quotes that are still to come are odd in number. Reading a value does not change it, and
no part of a document does. So a reader that has left a text in its middle stays where quotes open
and close the wrong way, and does not come to an end with the document.
-/

namespace Countersign.Json

/-- Whether the quotes of a text are odd in number, but for those after a backslash. -/
def oddQuotes : List Char → Bool
  | [] => false
  | '"' :: rest => !oddQuotes rest
  | '\\' :: _ :: rest => oddQuotes rest
  | _ :: rest => oddQuotes rest

/-- A character that is neither a quote nor a backslash. -/
def Quiet (character : Char) : Prop :=
  character ≠ '"' ∧ character ≠ '\\'

instance (character : Char) : Decidable (Quiet character) :=
  inferInstanceAs (Decidable (_ ∧ _))

theorem oddQuotes_quote (rest : List Char) : oddQuotes ('"' :: rest) = !oddQuotes rest := rfl

theorem oddQuotes_escape (character : Char) (rest : List Char) :
    oddQuotes ('\\' :: character :: rest) = oddQuotes rest := rfl

theorem oddQuotes_cons {character : Char} (quiet : Quiet character) (rest : List Char) :
    oddQuotes (character :: rest) = oddQuotes rest := by
  rw [oddQuotes]
  · exact quiet.1
  · rintro _ _ rfl
    exact absurd rfl quiet.2

theorem oddQuotes_append {text : List Char} (quiet : ∀ character ∈ text, Quiet character)
    (rest : List Char) : oddQuotes (text ++ rest) = oddQuotes rest := by
  induction text with
  | nil => rfl
  | cons character text inductionHypothesis =>
      obtain ⟨here, later⟩ := List.forall_mem_cons.mp quiet
      rw [List.cons_append, oddQuotes_cons here, inductionHypothesis later]

theorem oddQuotes_dropWhile {p : Char → Bool}
    (quiet : ∀ character, p character = true → Quiet character)
    (text : List Char) : oddQuotes (text.dropWhile p) = oddQuotes text := by
  induction text with
  | nil => rfl
  | cons character text inductionHypothesis =>
      by_cases passed : p character = true
      · rw [List.dropWhile_cons_of_pos passed, inductionHypothesis,
          oddQuotes_cons (quiet character passed)]
      · rw [List.dropWhile_cons_of_neg passed]

theorem quiet_of_isBlank (character : Char) (blank : isBlank character = true) :
    Quiet character := by
  simp only [isBlank, Bool.or_eq_true, decide_eq_true_eq] at blank
  rcases blank with ((rfl | rfl) | rfl) | rfl <;> decide

theorem quiet_of_isDigit (character : Char) (digit : isDigit character = true) :
    Quiet character := by
  constructor <;> rintro rfl <;> exact absurd digit (by decide)

theorem oddQuotes_skipBlanks (text : List Char) : oddQuotes (skipBlanks text) = oddQuotes text :=
  oddQuotes_dropWhile quiet_of_isBlank text

theorem oddQuotes_blank {blanks : List Char} (blank : Blank blanks) (rest : List Char) :
    oddQuotes (blanks ++ rest) = oddQuotes rest :=
  oddQuotes_append (fun character among => quiet_of_isBlank character (blank character among)) rest

theorem oddQuotes_digits {digits : List Char} (run : Digits digits) (rest : List Char) :
    oddQuotes (digits ++ rest) = oddQuotes rest :=
  oddQuotes_append (fun character among => quiet_of_isDigit character (run.digits character among))
    rest

variable {text rest : List Char}

theorem oddQuotes_skipDigits? (read : skipDigits? text = some rest) :
    oddQuotes rest = oddQuotes text := by
  obtain ⟨_, same⟩ := Option.ite_none_left_eq_some.mp read
  cases same
  exact oddQuotes_dropWhile quiet_of_isDigit text

theorem oddQuotes_skipSign (text : List Char) : oddQuotes (skipSign text) = oddQuotes text := by
  unfold skipSign
  split <;> rfl

theorem oddQuotes_skipFraction? {given : Bool} (read : skipFraction? text = some (given, rest)) :
    oddQuotes rest = oddQuotes text := by
  unfold skipFraction? at read
  split at read
  · obtain ⟨after, skipped, same⟩ := Option.map_eq_some_iff.mp read
    cases same
    rw [oddQuotes_skipDigits? skipped, oddQuotes_cons (by decide)]
  · cases read
    rfl

theorem oddQuotes_skipExponent? {given : Bool} (read : skipExponent? text = some (given, rest)) :
    oddQuotes rest = oddQuotes text := by
  unfold skipExponent? at read
  split at read
  · obtain ⟨after, skipped, same⟩ := Option.map_eq_some_iff.mp read
    cases same
    rw [oddQuotes_skipDigits? skipped, oddQuotes_skipSign, oddQuotes_cons (by decide)]
  · obtain ⟨after, skipped, same⟩ := Option.map_eq_some_iff.mp read
    cases same
    rw [oddQuotes_skipDigits? skipped, oddQuotes_skipSign, oddQuotes_cons (by decide)]
  · cases read
    rfl

theorem oddQuotes_readNumber? {negative : Bool} {value : Value}
    (read : readNumber? negative text = some (value, rest)) : oddQuotes rest = oddQuotes text := by
  obtain ⟨_, read⟩ := Option.ite_none_left_eq_some.mp read
  cases fraction : skipFraction? (text.dropWhile isDigit) with
  | none => simp [fraction] at read
  | some afterFraction =>
      cases exponent : skipExponent? afterFraction.2 with
      | none => simp [fraction, exponent] at read
      | some afterExponent =>
          have ends : afterExponent.2 = rest := by
            simp only [fraction, exponent] at read
            split at read <;> cases read <;> rfl
          rw [← ends, oddQuotes_skipExponent? exponent, oddQuotes_skipFraction? fraction,
            oddQuotes_dropWhile quiet_of_isDigit]

theorem oddQuotes_dropWord? {word : List Char} (quiet : ∀ character ∈ word, Quiet character)
    (read : dropWord? word text = some rest) : oddQuotes rest = oddQuotes text := by
  induction word generalizing text with
  | nil =>
      cases read
      rfl
  | cons character word inductionHypothesis =>
      obtain ⟨here, later⟩ := List.forall_mem_cons.mp quiet
      cases text with
      | nil => cases read
      | cons first text =>
          obtain ⟨rfl, readOthers⟩ := Option.ite_none_right_eq_some.mp read
          rw [inductionHypothesis later readOthers, oddQuotes_cons here]

theorem oddQuotes_word {first : Char} {word after : List Char} {value result : Value}
    (quiet : ∀ character ∈ first :: word, Quiet character) (starts : text = first :: after)
    (read : (dropWord? word after).map (value, ·) = some (result, rest)) :
    oddQuotes rest = oddQuotes text := by
  obtain ⟨here, later⟩ := List.forall_mem_cons.mp quiet
  obtain ⟨_, inner, same⟩ := Option.map_eq_some_iff.mp read
  cases same
  rw [starts, oddQuotes_dropWord? later inner, oddQuotes_cons here]

theorem quiet_of_hexDigit? {character : Char} {value : Nat}
    (digit : hexDigit? character = some value) : Quiet character := by
  constructor <;> rintro rfl <;> exact absurd digit (by simp [hexDigit?])

theorem quiet_of_unit? {a b c d : Char} {unit : Nat} (denoted : unit? a b c d = some unit) :
    ∀ character ∈ [a, b, c, d], Quiet character := by
  simp only [unit?, Option.bind_eq_bind, Option.bind_eq_some_iff] at denoted
  obtain ⟨_, first, _, second, _, third, _, fourth, _⟩ := denoted
  simp [quiet_of_hexDigit? first, quiet_of_hexDigit? second, quiet_of_hexDigit? third,
    quiet_of_hexDigit? fourth]

theorem oddQuotes_readUnits? {units : List Nat} (read : readUnits? text = some (units, rest)) :
    oddQuotes text = !oddQuotes rest := by
  fun_induction readUnits? text generalizing units rest with
  | case1 => cases read
  | case2 after =>
      cases read
      rfl
  | case3 a b c d after unit units' rest' later denoted inductionHypothesis =>
      cases read
      have quiet := quiet_of_unit? denoted
      rw [oddQuotes_escape, ← inductionHypothesis later]
      exact oddQuotes_append quiet after
  | case5 escape after _ unit units' rest' later _ inductionHypothesis =>
      cases read
      rw [oddQuotes_escape, inductionHypothesis later]
  | case8 character after notQuote _ _ plain units' rest' later inductionHypothesis =>
      cases read
      simp only [Bool.or_eq_true, decide_eq_true_eq, not_or] at plain
      rw [oddQuotes_cons ⟨notQuote, plain.1⟩, inductionHypothesis later]
  | case4 | case6 | case7 | case9 => cases read

theorem oddQuotes_readText? {content : Option String}
    (read : readText? text = some (content, rest)) : oddQuotes ('"' :: text) = oddQuotes rest := by
  cases units : readUnits? text with
  | none => simp [readText?, units] at read
  | some found =>
      obtain ⟨found, after⟩ := found
      simp only [readText?, units, Option.some.injEq, Prod.mk.injEq] at read
      rw [oddQuotes_quote, oddQuotes_readUnits? units, read.2, Bool.not_not]

/-- Reading something does not change whether the quotes still to come are odd in number. -/
def KeepsQuotes {α : Type} (read : List Char → Option (α × List Char)) : Prop :=
  ∀ text result rest, read text = some (result, rest) → oddQuotes rest = oddQuotes text

variable {fuel : Nat}

theorem keepsQuotes_readValue? (members : KeepsQuotes (readMembers? fuel []))
    (fields : KeepsQuotes (readFields? fuel .any)) : KeepsQuotes (readValue? (fuel + 1) .any) := by
  intro text result rest read
  rw [readValue?] at read
  rw [← oddQuotes_skipBlanks text]
  split at read
  · next after starts =>
      obtain ⟨_, inner, same⟩ := Option.map_eq_some_iff.mp read
      cases same
      rw [starts, oddQuotes_readText? inner]
  · next after starts =>
      rw [starts, oddQuotes_cons (by decide), ← oddQuotes_skipBlanks after]
      dsimp only at read
      split at read
      · next after closing =>
          cases read
          rw [closing, oddQuotes_cons (by decide)]
      · obtain ⟨_, inner, same⟩ := Option.map_eq_some_iff.mp read
        cases same
        rw [oddQuotes_skipBlanks, members _ _ _ inner]
  · next after starts =>
      rw [starts, oddQuotes_cons (by decide), ← oddQuotes_skipBlanks after]
      split at read
      · next after closing =>
          cases read
          rw [closing, oddQuotes_cons (by decide)]
      · obtain ⟨_, inner, same⟩ := Option.map_eq_some_iff.mp read
        cases same
        rw [oddQuotes_skipBlanks, fields _ _ _ inner]
  · next after starts => exact oddQuotes_word (by simp [Quiet]) starts read
  · next after starts => exact oddQuotes_word (by simp [Quiet]) starts read
  · next after starts => exact oddQuotes_word (by simp [Quiet]) starts read
  · next after starts => rw [starts, oddQuotes_readNumber? read, oddQuotes_cons (by decide)]
  · exact oddQuotes_readNumber? read

theorem keepsQuotes_readMembers? (value : KeepsQuotes (readValue? fuel .any))
    (members : KeepsQuotes (readMembers? fuel [])) : KeepsQuotes (readMembers? (fuel + 1) []) := by
  intro text result rest read
  rw [readMembers?] at read
  cases first : readValue? fuel .any text with
  | none => simp [first] at read
  | some found =>
      obtain ⟨found, between⟩ := found
      simp only [List.headD_nil, first] at read
      rw [← value _ _ _ first, ← oddQuotes_skipBlanks between]
      split at read
      · next after comma =>
          obtain ⟨_, inner, same⟩ := Option.map_eq_some_iff.mp read
          cases same
          rw [comma, members _ _ _ inner, oddQuotes_cons (by decide)]
      · next after closing =>
          cases read
          rw [closing, oddQuotes_cons (by decide)]
      · cases read

/-- Fields that are wanted in no form are read without a change of the quotes. -/
def KeepsQuotesUnlessWanted (fuel : Nat) : Prop :=
  ∀ form text fields rest, readFields? fuel form text = some (fields, rest) →
    (∀ field ∈ fields, form.field field.1 = .any) → oddQuotes rest = oddQuotes text

theorem keepsQuotes_readFields? (value : KeepsQuotes (readValue? fuel .any))
    (others : KeepsQuotesUnlessWanted fuel) : KeepsQuotesUnlessWanted (fuel + 1) := by
  intro form text fields rest read unwanted
  rw [readFields?] at read
  rw [← oddQuotes_skipBlanks text]
  split at read
  · next after starts =>
      rw [starts]
      cases name : readText? after with
      | none => simp [name] at read
      | some found =>
          obtain ⟨key, between⟩ := found
          simp only [name] at read
          rw [oddQuotes_readText? name, ← oddQuotes_skipBlanks between]
          split at read
          · next after colon =>
              rw [colon, oddQuotes_cons (by decide)]
              cases first : readValue? fuel (form.field key) after with
              | none => simp [first] at read
              | some found =>
                  obtain ⟨found, between⟩ := found
                  simp only [first] at read
                  split at read
                  · next after comma =>
                      obtain ⟨⟨later, _⟩, inner, same⟩ := Option.map_eq_some_iff.mp read
                      cases same
                      obtain ⟨here, unwantedLater⟩ := List.forall_mem_cons.mp unwanted
                      rw [here] at first
                      rw [others form after later _ inner unwantedLater,
                        ← value _ _ _ first, ← oddQuotes_skipBlanks between, comma,
                        oddQuotes_cons (by decide)]
                  · next after closing =>
                      cases read
                      have here := unwanted (key, found) List.mem_cons_self
                      rw [here] at first
                      rw [← value _ _ _ first, ← oddQuotes_skipBlanks between, closing,
                        oddQuotes_cons (by decide)]
                  · cases read
          · cases read
  · cases read

theorem keepsQuotes (fuel : Nat) :
    KeepsQuotes (readValue? fuel .any) ∧ KeepsQuotes (readMembers? fuel []) ∧
      KeepsQuotesUnlessWanted fuel := by
  induction fuel with
  | zero =>
      refine ⟨?_, ?_, ?_⟩
      · intro text result rest read
        cases read
      · intro text result rest read
        cases read
      · intro form text fields rest read
        cases read
  | succ fuel inductionHypothesis =>
      -- Members and fields of a value that is wanted in no form are wanted in none either.
      obtain ⟨value, members, fields⟩ := inductionHypothesis
      have all : KeepsQuotes (readFields? fuel .any) :=
        fun text result rest read => fields .any text result rest read fun _ _ => rfl
      exact ⟨keepsQuotes_readValue? members all, keepsQuotes_readMembers? value members,
        keepsQuotes_readFields? value fields⟩

theorem oddQuotes_spellsUnits {units : List Nat} (spelled : SpellsUnits units text)
    (rest : List Char) : oddQuotes (text ++ '"' :: rest) = !oddQuotes rest := by
  induction spelled with
  | done => rfl
  | plain notQuote notEscape _ _ inductionHypothesis =>
      rw [List.cons_append, oddQuotes_cons ⟨notQuote, notEscape⟩, inductionHypothesis]
  | escape _ _ inductionHypothesis => exact inductionHypothesis
  | @unicode a b c d unit units text denoted _ inductionHypothesis =>
      rw [← inductionHypothesis]
      exact oddQuotes_append (quiet_of_unit? denoted) _

theorem oddQuotes_spellsText {content : Option String} (spelled : SpellsText content text)
    (rest : List Char) : oddQuotes (text ++ rest) = oddQuotes rest := by
  cases spelled with
  | quoted spelled =>
      rw [List.cons_append, List.append_assoc, List.singleton_append, oddQuotes_quote,
        oddQuotes_spellsUnits spelled, Bool.not_not]

theorem oddQuotes_fraction {fraction : List Char} (part : Fraction fraction) (rest : List Char) :
    oddQuotes (fraction ++ rest) = oddQuotes rest := by
  cases part with
  | missing => rfl
  | given run => rw [List.cons_append, oddQuotes_cons (by decide), oddQuotes_digits run]

theorem oddQuotes_exponent {exponent : List Char} (part : Exponent exponent) (rest : List Char) :
    oddQuotes (exponent ++ rest) = oddQuotes rest := by
  cases part with
  | missing => rfl
  | @given mark sign digits isMark isSign run =>
      have quietMark : Quiet mark := by rcases isMark with rfl | rfl <;> decide
      have quietSign : ∀ character ∈ sign, Quiet character := by
        rcases isSign with rfl | rfl | rfl <;> simp [Quiet]
      rw [List.cons_append, oddQuotes_cons quietMark, List.append_assoc,
        oddQuotes_append quietSign, oddQuotes_digits run]

/-- A part of a document has an even number of quotes. -/
theorem oddQuotes_spells {part : Part} (spelled : Spells part text) (rest : List Char) :
    oddQuotes (text ++ rest) = oddQuotes rest := by
  induction spelled generalizing rest with
  | null | true | false => exact oddQuotes_append (by simp [Quiet]) rest
  | natural => exact oddQuotes_digits (digits_toDigits _) rest
  | @otherNumber sign whole fraction exponent isSign isWhole isFraction isExponent _ =>
      have quietSign : ∀ character ∈ sign, Quiet character := by
        rcases isSign with rfl | rfl <;> simp [Quiet]
      simp only [List.append_assoc]
      rw [oddQuotes_append quietSign, oddQuotes_digits isWhole.toDigits,
        oddQuotes_fraction isFraction, oddQuotes_exponent isExponent]
  | text spelled => exact oddQuotes_spellsText spelled rest
  | emptyArray blank | emptyObject blank =>
      rw [List.cons_append, List.append_assoc, oddQuotes_cons (by decide), oddQuotes_blank blank]
      exact oddQuotes_cons (by decide) rest
  | array _ inductionHypothesis | object _ inductionHypothesis =>
      rw [List.cons_append, List.append_assoc, oddQuotes_cons (by decide), inductionHypothesis]
      exact oddQuotes_cons (by decide) rest
  | padded blankBefore _ blankAfter inductionHypothesis =>
      rw [List.append_assoc, oddQuotes_blank blankBefore, List.append_assoc, inductionHypothesis,
        oddQuotes_blank blankAfter]
  | lastMember _ inductionHypothesis => exact inductionHypothesis rest
  | member _ _ first others =>
      rw [List.append_assoc, first, List.cons_append, oddQuotes_cons (by decide), others]
  | lastField blankBefore spelled blankBetween _ inductionHypothesis =>
      simp only [List.append_assoc, List.cons_append]
      rw [oddQuotes_blank blankBefore, oddQuotes_spellsText spelled, oddQuotes_blank blankBetween,
        oddQuotes_cons (by decide), inductionHypothesis]
  | field blankBefore spelled blankBetween _ _ first others =>
      simp only [List.append_assoc, List.cons_append]
      rw [oddQuotes_blank blankBefore, oddQuotes_spellsText spelled, oddQuotes_blank blankBetween,
        oddQuotes_cons (by decide), first, oddQuotes_cons (by decide), others]

end Countersign.Json
