import Countersign.Bytes
import Countersign.Json.Scalar

/-!
The grammar of JSON documents: which texts spell a value. It leaves the writer every freedom of the
format, such as blanks between all parts, escapes in texts and any order of the fields. Blanks,
numbers and texts are read as what they spell, up to where they end.
-/

namespace Countersign.Json

def Blank (text : List Char) : Prop :=
  ∀ character ∈ text, isBlank character = true

/-- A run of digits that is not empty. -/
structure Digits (text : List Char) : Prop where
  nonempty : text ≠ []
  digits : ∀ character ∈ text, isDigit character = true

/-- The whole part of a number, which has no leading zero. -/
structure Whole (text : List Char) : Prop extends Digits text where
  leading : text.head? = some '0' → text.length = 1

/-- The fraction of a number, which may be missing. -/
inductive Fraction : List Char → Prop
  | missing : Fraction []
  | given {digits : List Char} : Digits digits → Fraction ('.' :: digits)

/-- The exponent of a number, which may be missing. -/
inductive Exponent : List Char → Prop
  | missing : Exponent []
  | given {mark : Char} {sign digits : List Char} :
      mark = 'e' ∨ mark = 'E' → sign = [] ∨ sign = ['+'] ∨ sign = ['-'] → Digits digits →
      Exponent (mark :: (sign ++ digits))

/-- The units that stand between two quotes. -/
inductive SpellsUnits : List Nat → List Char → Prop
  | done : SpellsUnits [] []
  | plain {character : Char} {units : List Nat} {text : List Char} :
      character ≠ '"' → character ≠ '\\' → 32 ≤ character.toNat → SpellsUnits units text →
      SpellsUnits (character.toNat :: units) (character :: text)
  | escape {escape : Char} {unit : Nat} {units : List Nat} {text : List Char} :
      shortEscape? escape = some unit → SpellsUnits units text →
      SpellsUnits (unit :: units) ('\\' :: escape :: text)
  | unicode {a b c d : Char} {unit : Nat} {units : List Nat} {text : List Char} :
      unit? a b c d = some unit → SpellsUnits units text →
      SpellsUnits (unit :: units) ('\\' :: 'u' :: a :: b :: c :: d :: text)

/-- A text in quotes, with its content if it has one. -/
inductive SpellsText : Option String → List Char → Prop
  | quoted {units : List Nat} {text : List Char} : SpellsUnits units text →
      SpellsText ((joinSurrogates? units).map String.ofList) ('"' :: (text ++ ['"']))

/-- The parts of a document. Members and fields are at least one. -/
inductive Part
  | value (value : Value)
  | padded (value : Value)
  | members (values : List Value)
  | fields (fields : List (Option String × Value))

/-- Which texts spell a part of a document. -/
inductive Spells : Part → List Char → Prop
  | null : Spells (.value .null) ['n', 'u', 'l', 'l']
  | true : Spells (.value (.bool true)) ['t', 'r', 'u', 'e']
  | false : Spells (.value (.bool false)) ['f', 'a', 'l', 's', 'e']
  | natural {value : Nat} : Spells (.value (.natural value)) (Nat.toDigits 10 value)
  | otherNumber {sign whole fraction exponent : List Char} :
      sign = [] ∨ sign = ['-'] → Whole whole → Fraction fraction → Exponent exponent →
      sign ≠ [] ∨ fraction ≠ [] ∨ exponent ≠ [] →
      Spells (.value .otherNumber) (sign ++ (whole ++ (fraction ++ exponent)))
  | text {content : Option String} {text : List Char} : SpellsText content text →
      Spells (.value (.text content)) text
  | emptyArray {blanks : List Char} : Blank blanks →
      Spells (.value (.array [])) ('[' :: (blanks ++ [']']))
  | array {values : List Value} {text : List Char} : Spells (.members values) text →
      Spells (.value (.array values)) ('[' :: (text ++ [']']))
  | emptyObject {blanks : List Char} : Blank blanks →
      Spells (.value (.object [])) ('{' :: (blanks ++ ['}']))
  | object {fields : List (Option String × Value)} {text : List Char} :
      Spells (.fields fields) text → Spells (.value (.object fields)) ('{' :: (text ++ ['}']))
  | padded {value : Value} {before text after : List Char} :
      Blank before → Spells (.value value) text → Blank after →
      Spells (.padded value) (before ++ (text ++ after))
  | lastMember {value : Value} {text : List Char} : Spells (.padded value) text →
      Spells (.members [value]) text
  | member {value : Value} {values : List Value} {text rest : List Char} :
      Spells (.padded value) text → Spells (.members values) rest →
      Spells (.members (value :: values)) (text ++ ',' :: rest)
  | lastField {key : Option String} {value : Value} {before name between text : List Char} :
      Blank before → SpellsText key name → Blank between → Spells (.padded value) text →
      Spells (.fields [(key, value)]) (before ++ (name ++ (between ++ ':' :: text)))
  | field {key : Option String} {value : Value} {fields : List (Option String × Value)}
      {before name between text rest : List Char} :
      Blank before → SpellsText key name → Blank between → Spells (.padded value) text →
      Spells (.fields fields) rest →
      Spells (.fields ((key, value) :: fields))
        (before ++ (name ++ (between ++ ':' :: (text ++ ',' :: rest))))

/-- A document writes a value. -/
def Writes (value : Value) (document : String) : Prop :=
  Spells (.padded value) document.toList

/-- Bytes as the members of an array. -/
def octetValues (octets : Bytes) : List Value :=
  octets.map fun octet => .natural octet.toNat

/-- A value can be read where a form is wanted: an array holds just as many octets as are wanted. -/
inductive Suits : Form → Value → Prop
  | any {value : Value} : Suits .any value
  | null {form : Form} : Suits form .null
  | bool {form : Form} {value : Bool} : Suits form (.bool value)
  | natural {form : Form} {value : Nat} : Suits form (.natural value)
  | otherNumber {form : Form} : Suits form .otherNumber
  | text {form : Form} {content : Option String} : Suits form (.text content)
  | octets {octets : Bytes} : Suits (.octets octets.length) (.array (octetValues octets))
  | array {known : List (String × Form)} {values : List Value} :
      (∀ (index : Nat) (value : Value), values[index]? = some value →
        Suits ((Form.record known).members[index]?.getD .any) value) →
      Suits (.record known) (.array values)
  | object {form : Form} {fields : List (Option String × Value)} :
      (∀ field ∈ fields, Suits (form.field field.1) field.2) → Suits form (.object fields)

/-- The values suit the forms of members in their order. -/
def SuitAll (forms : List Form) (values : List Value) : Prop :=
  ∀ (index : Nat) (value : Value), values[index]? = some value →
    Suits (forms[index]?.getD .any) value

theorem skipBlanks_append {blanks : List Char} (blank : Blank blanks) (rest : List Char) :
    skipBlanks (blanks ++ rest) = skipBlanks rest :=
  List.dropWhile_append_of_pos blank

theorem skipBlanks_cons {character : Char} (visible : isBlank character = false)
    (rest : List Char) : skipBlanks (character :: rest) = character :: rest :=
  List.dropWhile_cons_of_neg (by simp [visible])

/-- Blanks before a character that is none. -/
theorem skipBlanks_before {blanks : List Char} (blank : Blank blanks) {character : Char}
    (visible : isBlank character = false) (rest : List Char) :
    skipBlanks (blanks ++ character :: rest) = character :: rest := by
  rw [skipBlanks_append blank, skipBlanks_cons visible]

/-- A run of digits stops before what follows. -/
def Stops (rest : List Char) : Prop :=
  ∀ character ∈ rest.head?, isDigit character = false

/-- A number stops before what follows. -/
def Ends (rest : List Char) : Prop :=
  ∀ character ∈ rest.head?,
    isDigit character = false ∧ character ≠ '.' ∧ character ≠ 'e' ∧ character ≠ 'E'

theorem Ends.stops {rest : List Char} (ends : Ends rest) : Stops rest :=
  fun character first => (ends character first).1

theorem ends_nil : Ends [] := by
  simp [Ends]

theorem ends_of_blank {blanks rest : List Char} (blank : Blank blanks) (ends : Ends rest) :
    Ends (blanks ++ rest) := by
  cases blanks with
  | nil => exact ends
  | cons character blanks =>
      intro first isFirst
      obtain rfl : character = first := by simpa using isFirst
      have among : isBlank character = true := blank character List.mem_cons_self
      simp only [isBlank, Bool.or_eq_true, decide_eq_true_eq] at among
      rcases among with ((rfl | rfl) | rfl) | rfl <;> decide

variable {digits whole fraction exponent rest : List Char}

theorem takeWhile_digits (among : ∀ character ∈ digits, isDigit character = true)
    (stops : Stops rest) : (digits ++ rest).takeWhile isDigit = digits := by
  rw [List.takeWhile_append_of_pos among]
  cases rest with
  | nil => simp
  | cons character rest => simp [stops character rfl]

theorem dropWhile_digits (among : ∀ character ∈ digits, isDigit character = true)
    (stops : Stops rest) : (digits ++ rest).dropWhile isDigit = rest := by
  rw [List.dropWhile_append_of_pos among]
  cases rest with
  | nil => rfl
  | cons character rest => simp [stops character rfl]

theorem skipDigits?_append (run : Digits digits) (stops : Stops rest) :
    skipDigits? (digits ++ rest) = some rest := by
  simp [skipDigits?, takeWhile_digits run.digits stops, dropWhile_digits run.digits stops,
    run.nonempty]

theorem skipSign_digits (run : Digits digits) : skipSign (digits ++ rest) = digits ++ rest := by
  obtain ⟨character, digits, rfl⟩ := List.exists_cons_of_ne_nil run.nonempty
  have digit : isDigit character = true := run.digits character List.mem_cons_self
  rw [List.cons_append, skipSign]
  · rintro _ ⟨rfl, _⟩
    exact absurd digit (by decide)
  · rintro _ ⟨rfl, _⟩
    exact absurd digit (by decide)

theorem skipSign_append {sign : List Char} (isSign : sign = [] ∨ sign = ['+'] ∨ sign = ['-'])
    (run : Digits digits) : skipSign (sign ++ digits ++ rest) = digits ++ rest := by
  rcases isSign with rfl | rfl | rfl
  · exact skipSign_digits run
  · rfl
  · rfl

theorem skipFraction?_append (part : Fraction fraction) (stops : Stops rest)
    (pointless : rest.head? ≠ some '.') :
    skipFraction? (fraction ++ rest) = some (!fraction.isEmpty, rest) := by
  cases part with
  | missing =>
      rw [List.nil_append, skipFraction?]
      · rfl
      · rintro _ rfl
        exact pointless rfl
  | given run => simp [skipFraction?, skipDigits?_append run stops]

theorem skipExponent?_append (part : Exponent exponent) (ends : Ends rest) :
    skipExponent? (exponent ++ rest) = some (!exponent.isEmpty, rest) := by
  cases part with
  | missing =>
      rw [List.nil_append, skipExponent?]
      · rfl
      · rintro _ rfl
        exact (ends 'e' rfl).2.2.1 rfl
      · rintro _ rfl
        exact (ends 'E' rfl).2.2.2 rfl
  | @given mark sign digits isMark isSign run =>
      have signed : skipDigits? (skipSign (sign ++ digits ++ rest)) = some rest := by
        rw [skipSign_append isSign run, skipDigits?_append run ends.stops]
      rcases isMark with rfl | rfl <;>
        simp only [List.cons_append, skipExponent?, signed, Option.map_some, List.isEmpty_cons,
          Bool.not_false]

theorem stops_exponent (part : Exponent exponent) (ends : Ends rest) :
    Stops (exponent ++ rest) ∧ (exponent ++ rest).head? ≠ some '.' := by
  cases part with
  | missing => exact ⟨ends.stops, fun point => (ends '.' point).2.1 rfl⟩
  | given isMark _ _ => rcases isMark with rfl | rfl <;> simp [Stops] <;> decide

theorem stops_fraction (part : Fraction fraction) (stops : Stops rest) :
    Stops (fraction ++ rest) := by
  cases part with
  | missing => exact stops
  | given _ =>
      simp only [Stops, List.cons_append, List.head?_cons]
      rintro _ ⟨⟩
      rfl

/-- A number is read up to its end. -/
theorem readNumber?_append (negative : Bool) (isWhole : Whole whole)
    (isFraction : Fraction fraction)
    (isExponent : Exponent exponent) (ends : Ends rest) :
    readNumber? negative (whole ++ (fraction ++ (exponent ++ rest))) =
      some (if negative || !fraction.isEmpty || !exponent.isEmpty then .otherNumber
        else .natural (digitsValue whole), rest) := by
  obtain ⟨stops, pointless⟩ := stops_exponent isExponent ends
  have afterWhole := stops_fraction isFraction stops
  have leading : (whole.isEmpty || (whole.head? = some '0' && 1 < whole.length)) = false := by
    by_cases zero : whole.head? = some '0'
    · simp [isWhole.leading zero, isWhole.nonempty]
    · simp [zero, isWhole.nonempty]
  simp only [readNumber?, takeWhile_digits isWhole.digits afterWhole,
    dropWhile_digits isWhole.digits afterWhole, leading, Bool.false_eq_true, if_false,
    skipFraction?_append isFraction stops pointless, skipExponent?_append isExponent ends]
  split <;> rfl

theorem digits_toDigits (value : Nat) : Digits (Nat.toDigits 10 value) where
  nonempty := Nat.toDigits_ne_nil
  digits := fun _ among => Nat.isDigit_of_mem_toDigits (by decide) (by decide) among

theorem head?_toDigits {value : Nat} (positive : 0 < value) :
    (Nat.toDigits 10 value).head? ≠ some '0' := by
  induction value using Nat.strongRecOn with
  | ind value inductionHypothesis =>
      by_cases small : value < 10
      · have single : ∀ value < 10, 0 < value → Nat.digitChar value ≠ '0' := by decide
        simpa [Nat.toDigits_of_lt_base small] using single value small positive
      · have higher := inductionHypothesis (value / 10) (by omega) (by omega)
        obtain ⟨first, rest, shape⟩ :=
          List.exists_cons_of_ne_nil (Nat.toDigits_ne_nil : Nat.toDigits 10 (value / 10) ≠ [])
        rw [shape] at higher
        rw [Nat.toDigits_of_base_le (by decide) (by omega), shape]
        exact higher

theorem whole_toDigits (value : Nat) : Whole (Nat.toDigits 10 value) where
  toDigits := digits_toDigits value
  leading := fun zero => by
    rcases Nat.eq_zero_or_pos value with rfl | positive
    · rfl
    · exact absurd zero (head?_toDigits positive)

theorem digitsValue_toDigits (value : Nat) : digitsValue (Nat.toDigits 10 value) = value :=
  Nat.ofDigitChars_toDigits (by decide) (by decide)

theorem readNumber?_natural (value : Nat) (ends : Ends rest) :
    readNumber? false (Nat.toDigits 10 value ++ rest) = some (.natural value, rest) := by
  have read := readNumber?_append false (whole_toDigits value) .missing .missing ends
  simpa [digitsValue_toDigits] using read

theorem readUnits?_append {units : List Nat} {text : List Char} (spelled : SpellsUnits units text)
    (rest : List Char) : readUnits? (text ++ '"' :: rest) = some (units, rest) := by
  induction spelled with
  | done => simp [readUnits?]
  | @plain character units text notQuote notEscape printable _ inductionHypothesis =>
      rw [List.cons_append, readUnits?]
      · simp [notEscape, printable, inductionHypothesis]
      · exact notQuote
      · rintro _ _ _ _ _ rfl
        exact absurd rfl notEscape
      · rintro _ _ rfl
        exact absurd rfl notEscape
  | @escape escape unit units text named _ inductionHypothesis =>
      rw [List.cons_append, List.cons_append, readUnits?]
      · simp [named, inductionHypothesis]
      · rintro _ _ _ _ _ rfl
        simp [shortEscape?] at named
  | unicode named _ inductionHypothesis =>
      simp [readUnits?, named, inductionHypothesis]

/-- A text is read up to its closing quote. -/
theorem readText?_append {units : List Nat} {text : List Char} (spelled : SpellsUnits units text)
    (rest : List Char) :
    readText? (text ++ '"' :: rest) = some ((joinSurrogates? units).map String.ofList, rest) := by
  rw [readText?, readUnits?_append spelled]

/-- A character that stands for itself in a text. -/
def Plain (character : Char) : Prop :=
  character ≠ '"' ∧ character ≠ '\\' ∧ 32 ≤ character.toNat

instance (character : Char) : Decidable (Plain character) :=
  inferInstanceAs (Decidable (_ ∧ _ ∧ _))

def PlainText (text : String) : Prop :=
  ∀ character ∈ text.toList, Plain character

instance (text : String) : Decidable (PlainText text) :=
  List.decidableBAll _ _

theorem spellsUnits_of_plain {text : List Char} (plain : ∀ character ∈ text, Plain character) :
    SpellsUnits (text.map Char.toNat) text := by
  induction text with
  | nil => exact .done
  | cons character text inductionHypothesis =>
      obtain ⟨⟨notQuote, notEscape, printable⟩, later⟩ := List.forall_mem_cons.mp plain
      exact .plain notQuote notEscape printable (inductionHypothesis later)

/-- No character is half a surrogate pair. -/
theorem not_surrogate (character : Char) :
    isLeading character.toNat = false ∧ isTrailing character.toNat = false := by
  have valid := character.valid
  simp only [UInt32.isValidChar, Nat.isValidChar] at valid
  have same : character.toNat = character.val.toNat := rfl
  simp only [isLeading, isTrailing, Bool.and_eq_false_imp, decide_eq_true_eq,
    decide_eq_false_iff_not]
  omega

theorem joinSurrogates?_toNat (text : List Char) :
    joinSurrogates? (text.map Char.toNat) = some text := by
  induction text with
  | nil => rfl
  | cons character text inductionHypothesis =>
      obtain ⟨notLeading, notTrailing⟩ := not_surrogate character
      have same : Char.ofNat character.toNat = character := Char.ofNat_toNat character
      cases text with
      | nil => simp [joinSurrogates?, notLeading, notTrailing, same]
      | cons next text =>
          rw [List.map_cons] at inductionHypothesis
          simp [joinSurrogates?, notLeading, notTrailing, same, inductionHypothesis]

/-- A text of plain characters in quotes spells itself. -/
theorem spellsText_of_plain {text : String} (plain : PlainText text) :
    SpellsText (some text) ('"' :: (text.toList ++ ['"'])) := by
  have spelled := SpellsText.quoted (spellsUnits_of_plain plain)
  rwa [joinSurrogates?_toNat, Option.map_some, String.ofList_toList] at spelled

end Countersign.Json
