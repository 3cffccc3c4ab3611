import Countersign.Json.Document
import Countersign.Proofs.Json.Scalars

/-!
Every document is read as the value it writes if this value suits the form that is wanted.
-/

namespace Countersign.Json

variable {form : Form} {forms : List Form} {value : Value} {values : List Value}
  {fields : List (Option String × Value)} {text rest : List Char}

theorem visible_of_digit {character : Char} (digit : isDigit character = true) :
    isBlank character = false ∧ character ≠ ']' := by
  constructor
  · rw [← Bool.not_eq_true]
    intro blank
    simp only [isBlank, Bool.or_eq_true, decide_eq_true_eq] at blank
    rcases blank with ((rfl | rfl) | rfl) | rfl <;> exact absurd digit (by decide)
  · rintro rfl
    exact absurd digit (by decide)

/-- A value starts with a character that is no blank and that closes no array. -/
theorem first_of_spells (spelled : Spells (.value value) text) :
    ∃ first later, text = first :: later ∧ isBlank first = false ∧ first ≠ ']' := by
  have ofDigits : ∀ {digits : List Char} (after : List Char), Digits digits →
      ∃ first later, digits ++ after = first :: later ∧ isBlank first = false ∧ first ≠ ']' := by
    intro digits after run
    obtain ⟨first, later, rfl⟩ := List.exists_cons_of_ne_nil run.nonempty
    exact ⟨first, later ++ after, rfl, visible_of_digit (run.digits first List.mem_cons_self)⟩
  cases spelled with
  | @natural value =>
      have found := ofDigits [] (digits_toDigits value)
      rwa [List.append_nil] at found
  | otherNumber isSign isWhole _ _ _ =>
      rcases isSign with rfl | rfl
      · rw [List.nil_append]
        exact ofDigits _ isWhole.toDigits
      · exact ⟨_, _, rfl, by decide, by decide⟩
  | text quoted =>
      cases quoted with
      | quoted _ => exact ⟨_, _, rfl, by decide, by decide⟩
  | _ => exact ⟨_, _, rfl, by decide, by decide⟩

theorem skipBlanks_value (spelled : Spells (.value value) text) (after : List Char) :
    skipBlanks (text ++ after) = text ++ after := by
  obtain ⟨first, later, rfl, visible, _⟩ := first_of_spells spelled
  exact skipBlanks_cons visible _

theorem first_of_padded (spelled : Spells (.padded value) text) (after : List Char) :
    ∃ first later, skipBlanks (text ++ after) = first :: later ∧ first ≠ ']' := by
  cases spelled with
  | padded blank inner _ =>
      rw [List.append_assoc, skipBlanks_append blank, List.append_assoc, skipBlanks_value inner]
      obtain ⟨first, later, rfl, _, notClosing⟩ := first_of_spells inner
      exact ⟨first, _, rfl, notClosing⟩

theorem first_of_members (spelled : Spells (.members values) text) (after : List Char) :
    ∃ first later, skipBlanks (text ++ after) = first :: later ∧ first ≠ ']' := by
  cases spelled with
  | lastMember inner => exact first_of_padded inner after
  | member inner _ =>
      rw [List.append_assoc]
      exact first_of_padded inner _

theorem first_of_fields (spelled : Spells (.fields fields) text) (after : List Char) :
    ∃ later, skipBlanks (text ++ after) = '"' :: later := by
  cases spelled with
  | lastField blank name _ _ =>
      cases name with
      | quoted _ =>
          rw [List.append_assoc, skipBlanks_append blank]
          exact ⟨_, skipBlanks_cons (by decide) _⟩
  | field blank name _ _ _ =>
      cases name with
      | quoted _ =>
          rw [List.append_assoc, skipBlanks_append blank]
          exact ⟨_, skipBlanks_cons (by decide) _⟩

theorem readOctet?_padded {octet : UInt8}
    (spelled : Spells (.padded (.natural octet.toNat)) text) (ends : Ends rest) :
    ∃ blanks, Blank blanks ∧ readOctet? (text ++ rest) = some (octet, blanks ++ rest) := by
  cases spelled with
  | @padded _ before _ after blankBefore inner blankAfter =>
      have skipped := skipBlanks_value inner (after ++ rest)
      cases inner with
      | natural =>
          have read := readNumber?_natural octet.toNat (ends_of_blank blankAfter ends)
          refine ⟨after, blankAfter, ?_⟩
          rw [readOctet?, List.append_assoc, skipBlanks_append blankBefore, List.append_assoc,
            skipped, read]
          simp [octet.toNat_lt]

theorem afterComma?_blanks {blanks : List Char} (blank : Blank blanks) (after : List Char) :
    afterComma? false (blanks ++ ',' :: after) = some after := by
  simp [afterComma?, skipBlanks_append blank, skipBlanks_cons (show isBlank ',' = false by decide)]

theorem readOctets?_end {blanks : List Char} (blank : Blank blanks) (after : List Char) :
    readOctets? false 0 (blanks ++ ']' :: after) = some ([], after) := by
  have skipped : skipBlanks (blanks ++ ']' :: after) = ']' :: after := by
    rw [skipBlanks_append blank, skipBlanks_cons (by decide)]
  simp [readOctets?, passRest?, afterComma?, skipped]

theorem ends_mark (character : Char) (mark : character ∈ [',', ']', '}']) (after : List Char) :
    Ends (character :: after) := by
  simp only [List.mem_cons, List.not_mem_nil, or_false] at mark
  rcases mark with rfl | rfl | rfl <;> simp [Ends] <;> decide

/-- The members of an array are read as octets where they are these. -/
theorem readOctets?_members {octets : Bytes} (first : Bool) {start : List Char}
    (spelled : Spells (.members (octetValues octets)) text)
    (starts : afterComma? first start = some (text ++ ']' :: rest)) :
    readOctets? first octets.length start = some (octets, rest) := by
  induction octets generalizing text first start with
  | nil => cases spelled
  | cons octet octets inductionHypothesis =>
      rw [List.length_cons, readOctets?, starts, Option.bind_some]
      generalize shape : octetValues (octet :: octets) = values at spelled
      cases spelled with
      | lastMember inner =>
          obtain ⟨rfl, none⟩ := List.cons.inj shape
          obtain rfl := List.map_eq_nil_iff.mp none
          obtain ⟨blanks, blank, read⟩ := readOctet?_padded inner (ends_mark ']' (by simp) rest)
          simp [read, readOctets?_end blank]
      | @member _ _ text later inner others =>
          obtain ⟨rfl, rfl⟩ := List.cons.inj shape
          obtain ⟨blanks, blank, read⟩ :=
            readOctet?_padded inner (ends_mark ',' (by simp) (later ++ ']' :: rest))
          have next := inductionHypothesis false others (afterComma?_blanks blank _)
          rw [List.append_assoc, List.cons_append, read]
          simp [next]

theorem readOctets?_none {blanks : List Char} (blank : Blank blanks) (after : List Char) :
    readOctets? true 0 (blanks ++ ']' :: after) = some ([], after) := by
  have skipped := skipBlanks_before blank (show isBlank ']' = false by decide) after
  have noOctet : readOctet? (blanks ++ ']' :: after) = none := by
    rw [readOctet?, skipped]
    rfl
  have passed : passMember? (']' :: after) = some (']' :: after) := rfl
  have closing := skipBlanks_cons (show isBlank ']' = false by decide) after
  simp [readOctets?, passRest?, afterComma?, noOctet, skipped, passed, closing]

theorem suits_array (suits : Suits form (.array values)) :
    (∃ octets : Bytes, form = .octets octets.length ∧ values = octetValues octets) ∨
      ((∀ count, form ≠ .octets count) ∧ SuitAll form.members values) := by
  generalize shape : Value.array values = value at suits
  cases suits with
  | any => exact .inr ⟨by simp, fun _ _ _ => .any⟩
  | octets =>
      cases shape
      exact .inl ⟨_, rfl, rfl⟩
  | array each =>
      cases shape
      exact .inr ⟨by simp, each⟩
  | _ => cases shape

theorem suits_object (suits : Suits form (.object fields)) :
    ∀ field ∈ fields, Suits (form.field field.1) field.2 := by
  cases suits with
  | any => exact fun _ _ => .any
  | object each => exact each

theorem suits_head (suits : SuitAll forms (value :: values)) : Suits (forms.headD .any) value := by
  have first := suits 0 value rfl
  rwa [← List.head?_eq_getElem?, ← List.headD_eq_head?_getD] at first

theorem suits_tail (suits : SuitAll forms (value :: values)) : SuitAll forms.tail values := by
  intro index other found
  rw [List.getElem?_tail]
  exact suits (index + 1) other found

theorem readValue?_blanks {blanks : List Char} (blank : Blank blanks) (fuel : Nat) :
    readValue? fuel form (blanks ++ text) = readValue? fuel form text := by
  cases fuel with
  | zero => rfl
  | succ fuel => simp only [readValue?, skipBlanks_append blank]

theorem readValue?_quote (fuel : Nat) :
    readValue? (fuel + 1) form ('"' :: rest) =
      (readText? rest).map fun (content, rest) => (.text content, rest) := rfl

theorem readValue?_octets_bracket (fuel count : Nat) :
    readValue? (fuel + 1) (.octets count) ('[' :: rest) =
      (readOctets? true count rest).map fun (octets, rest) =>
        (.array (octetValues octets), rest) := rfl

theorem readValue?_bracket (unfixed : ∀ count, form ≠ .octets count) (fuel : Nat) :
    readValue? (fuel + 1) form ('[' :: rest) =
      match skipBlanks rest with
      | ']' :: rest => some (.array [], rest)
      | _ => (readMembers? fuel form.members rest).map fun (members, rest) =>
          (.array members, rest) := by
  cases form with
  | octets count => exact absurd rfl (unfixed count)
  | any => rfl
  | record known => rfl

theorem readValue?_brace (fuel : Nat) :
    readValue? (fuel + 1) form ('{' :: rest) =
      match skipBlanks rest with
      | '}' :: rest => some (.object [], rest)
      | _ => (readFields? fuel form rest).map fun (fields, rest) => (.object fields, rest) := rfl

/-- What the reader makes of a part of a document that stands before something else. Each of its
steps goes down to a shorter text and takes two off the fuel at most. -/
def Part.ReadFrom (text : List Char) : Part → Prop
  | .value value => ∀ form, Suits form value → ∀ fuel rest, 2 * text.length ≤ fuel → Ends rest →
      readValue? fuel form (text ++ rest) = some (value, rest)
  | .padded value => ∀ form, Suits form value → ∀ fuel rest, 2 * text.length ≤ fuel → Ends rest →
      ∃ blanks, Blank blanks ∧ readValue? fuel form (text ++ rest) = some (value, blanks ++ rest)
  | .members values => ∀ forms, SuitAll forms values → ∀ fuel rest, 2 * text.length < fuel →
      readMembers? fuel forms (text ++ ']' :: rest) = some (values, rest)
  | .fields fields => ∀ form, (∀ field ∈ fields, Suits (form.field field.1) field.2) →
      ∀ fuel rest, 2 * text.length < fuel →
      readFields? fuel form (text ++ '}' :: rest) = some (fields, rest)

theorem readValue?_digits {digits : List Char} (run : Digits digits) (fuel : Nat)
    (later : List Char) :
    readValue? (fuel + 1) form (digits ++ later) = readNumber? false (digits ++ later) := by
  obtain ⟨first, others, rfl⟩ := List.exists_cons_of_ne_nil run.nonempty
  have digit : isDigit first = true := run.digits first List.mem_cons_self
  rw [List.cons_append, readValue?, skipBlanks_cons (visible_of_digit digit).1]
  split <;> simp_all <;> exact absurd digit (by decide)

theorem readValue?_otherNumber {sign whole fraction exponent : List Char}
    (isSign : sign = [] ∨ sign = ['-']) (isWhole : Whole whole) (isFraction : Fraction fraction)
    (isExponent : Exponent exponent) (more : sign ≠ [] ∨ fraction ≠ [] ∨ exponent ≠ [])
    (ends : Ends rest) (fuel : Nat) :
    readValue? (fuel + 1) form (sign ++ (whole ++ (fraction ++ exponent)) ++ rest) =
      some (.otherNumber, rest) := by
  have read := fun negative => readNumber?_append negative isWhole isFraction isExponent ends
  simp only [List.append_assoc]
  rcases isSign with rfl | rfl
  · have kind : (false || !fraction.isEmpty || !exponent.isEmpty) = true := by simpa using more
    rw [List.nil_append, readValue?_digits isWhole.toDigits, read, kind]
    rfl
  · exact read true

theorem readValue?_text {content : Option String} (spelled : SpellsText content text) (fuel : Nat) :
    readValue? (fuel + 1) form (text ++ rest) = some (.text content, rest) := by
  cases spelled with
  | quoted spelled =>
      rw [List.cons_append, List.append_assoc, List.singleton_append, readValue?_quote,
        readText?_append spelled]
      rfl

theorem readValue?_emptyArray (unfixed : ∀ count, form ≠ .octets count) {blanks : List Char}
    (blank : Blank blanks) (fuel : Nat) :
    readValue? (fuel + 1) form ('[' :: (blanks ++ [']']) ++ rest) = some (.array [], rest) := by
  have closing := skipBlanks_before blank (show isBlank ']' = false by decide) rest
  rw [List.cons_append, List.append_assoc, List.singleton_append, readValue?_bracket unfixed]
  simp [closing]

theorem readValue?_array (unfixed : ∀ count, form ≠ .octets count) {fuel : Nat}
    (spelled : Spells (.members values) text)
    (read : readMembers? fuel form.members (text ++ ']' :: rest) = some (values, rest)) :
    readValue? (fuel + 1) form ('[' :: (text ++ [']']) ++ rest) = some (.array values, rest) := by
  obtain ⟨first, later, starts, notClosing⟩ := first_of_members spelled (']' :: rest)
  rw [List.cons_append, List.append_assoc, List.singleton_append, readValue?_bracket unfixed]
  simp [starts, notClosing, read]

theorem readValue?_octets {octets : Bytes} (spelled : Spells (.members (octetValues octets)) text)
    (fuel : Nat) :
    readValue? (fuel + 1) (.octets octets.length) ('[' :: (text ++ [']']) ++ rest) =
      some (.array (octetValues octets), rest) := by
  have read := @readOctets?_members text rest octets true _ spelled rfl
  rw [List.cons_append, List.append_assoc, List.singleton_append, readValue?_octets_bracket, read]
  rfl

theorem readValue?_noOctets {blanks : List Char} (blank : Blank blanks) (fuel : Nat) :
    readValue? (fuel + 1) (.octets 0) ('[' :: (blanks ++ [']']) ++ rest) =
      some (.array [], rest) := by
  rw [List.cons_append, List.append_assoc, List.singleton_append, readValue?_octets_bracket,
    readOctets?_none blank]
  rfl

theorem readValue?_emptyObject {blanks : List Char} (blank : Blank blanks) (fuel : Nat) :
    readValue? (fuel + 1) form ('{' :: (blanks ++ ['}']) ++ rest) = some (.object [], rest) := by
  have closing := skipBlanks_before blank (show isBlank '}' = false by decide) rest
  rw [List.cons_append, List.append_assoc, List.singleton_append, readValue?_brace]
  simp [closing]

theorem readValue?_object (spelled : Spells (.fields fields) text) (fuel : Nat) :
    readValue? (fuel + 1) form ('{' :: (text ++ ['}']) ++ rest) =
      (readFields? fuel form (text ++ '}' :: rest)).map fun (fields, rest) =>
        (.object fields, rest) := by
  obtain ⟨later, starts⟩ := first_of_fields spelled ('}' :: rest)
  rw [List.cons_append, List.append_assoc, List.singleton_append, readValue?_brace]
  simp [starts]

/-! ## Members and fields -/

variable {blanks before name between : List Char} {key : Option String} {fuel : Nat}

theorem readMembers?_last (blank : Blank blanks)
    (read : readValue? fuel (forms.headD .any) text = some (value, blanks ++ ']' :: rest)) :
    readMembers? (fuel + 1) forms text = some ([value], rest) := by
  have closing := skipBlanks_before blank (show isBlank ']' = false by decide) rest
  simp only [readMembers?, read, closing]

theorem readMembers?_more (blank : Blank blanks)
    (read : readValue? fuel (forms.headD .any) text = some (value, blanks ++ ',' :: rest)) :
    readMembers? (fuel + 1) forms text =
      (readMembers? fuel forms.tail rest).map fun (values, rest) => (value :: values, rest) := by
  have comma := skipBlanks_before blank (show isBlank ',' = false by decide) rest
  simp only [readMembers?, read, comma]

/-- What is read of an object after the value of a field. -/
def fieldsAfter? (fuel : Nat) (form : Form) (key : Option String) (value : Value)
    (text : List Char) : Option (List (Option String × Value) × List Char) :=
  match skipBlanks text with
  | ',' :: rest =>
      (readFields? fuel form rest).map fun (fields, rest) => ((key, value) :: fields, rest)
  | '}' :: rest => some ([(key, value)], rest)
  | _ => none

theorem fieldsAfter?_closing (blank : Blank blanks) :
    fieldsAfter? fuel form key value (blanks ++ '}' :: rest) = some ([(key, value)], rest) := by
  have closing := skipBlanks_before blank (show isBlank '}' = false by decide) rest
  simp only [fieldsAfter?, closing]

theorem fieldsAfter?_comma (blank : Blank blanks) :
    fieldsAfter? fuel form key value (blanks ++ ',' :: rest) =
      (readFields? fuel form rest).map fun (fields, rest) => ((key, value) :: fields, rest) := by
  have comma := skipBlanks_before blank (show isBlank ',' = false by decide) rest
  simp only [fieldsAfter?, comma]

/-- The value of the first field of an object is read, and then the other fields. -/
theorem readFields?_first (blankBefore : Blank before) (spelled : SpellsText key name)
    (blankBetween : Blank between) :
    readFields? (fuel + 1) form (before ++ (name ++ (between ++ ':' :: text))) =
      (readValue? fuel (form.field key) text).bind fun found =>
        fieldsAfter? fuel form key found.1 found.2 := by
  cases spelled with
  | @quoted units inner spelled =>
      have colon := skipBlanks_before blankBetween (show isBlank ':' = false by decide) text
      rw [readFields?, skipBlanks_append blankBefore, List.cons_append, List.append_assoc,
        List.singleton_append, skipBlanks_cons (by decide)]
      simp only [readText?_append spelled, colon]
      cases readValue? fuel (form.field _) text with
      | none => rfl
      | some found => rfl

/-- A text that spells a part of a document is read as this part. -/
theorem readFrom_of_spells {part : Part} (spelled : Spells part text) : part.ReadFrom text := by
  have positive : ∀ {fuel : Nat} {first : Char} {later : List Char},
      2 * (first :: later).length ≤ fuel → ∃ less, fuel = less + 1 := by
    intro fuel first later enough
    exact Nat.exists_eq_succ_of_ne_zero (by simp at enough; omega)
  induction spelled with
  | null | true | false =>
      intro form _ fuel rest enough _
      obtain ⟨fuel, rfl⟩ := positive enough
      rfl
  | @natural value =>
      intro form _ fuel rest enough ends
      have run := digits_toDigits value
      have some := List.length_pos_iff.2 run.nonempty
      obtain ⟨fuel, rfl⟩ := Nat.exists_eq_succ_of_ne_zero (show fuel ≠ 0 by omega)
      rw [readValue?_digits run]
      exact readNumber?_natural value ends
  | otherNumber isSign isWhole isFraction isExponent more =>
      intro form _ fuel rest enough ends
      have some := List.length_pos_iff.2 isWhole.nonempty
      obtain ⟨fuel, rfl⟩ := Nat.exists_eq_succ_of_ne_zero
        (show fuel ≠ 0 by simp only [List.length_append] at enough; omega)
      exact readValue?_otherNumber isSign isWhole isFraction isExponent more ends fuel
  | text spelled =>
      intro form _ fuel rest enough _
      cases spelled with
      | quoted spelled =>
          obtain ⟨fuel, rfl⟩ := positive enough
          exact readValue?_text (.quoted spelled) fuel
  | emptyArray blank =>
      intro form suits fuel rest enough _
      obtain ⟨fuel, rfl⟩ := positive enough
      rcases suits_array suits with ⟨octets, rfl, same⟩ | ⟨unfixed, _⟩
      · obtain rfl := List.map_eq_nil_iff.mp same.symm
        exact readValue?_noOctets blank fuel
      · exact readValue?_emptyArray unfixed blank fuel
  | array spelled inductionHypothesis =>
      intro form suits fuel rest enough _
      obtain ⟨fuel, rfl⟩ := positive enough
      rcases suits_array suits with ⟨octets, rfl, rfl⟩ | ⟨unfixed, all⟩
      · exact readValue?_octets spelled fuel
      · refine readValue?_array unfixed spelled (inductionHypothesis form.members all fuel rest ?_)
        simp at enough
        omega
  | emptyObject blank =>
      intro form _ fuel rest enough _
      obtain ⟨fuel, rfl⟩ := positive enough
      exact readValue?_emptyObject blank fuel
  | object spelled inductionHypothesis =>
      intro form suits fuel rest enough _
      obtain ⟨fuel, rfl⟩ := positive enough
      have read := inductionHypothesis form (suits_object suits) fuel rest
        (by simp at enough; omega)
      rw [readValue?_object spelled, read, Option.map_some]
  | @padded value before text after blankBefore _ blankAfter inductionHypothesis =>
      intro form suits fuel rest enough ends
      refine ⟨after, blankAfter, ?_⟩
      rw [List.append_assoc, readValue?_blanks blankBefore, List.append_assoc]
      refine inductionHypothesis form suits fuel _ ?_ (ends_of_blank blankAfter ends)
      simp only [List.length_append] at enough
      omega
  | lastMember _ inductionHypothesis =>
      intro forms suit fuel rest enough
      obtain ⟨fuel, rfl⟩ := Nat.exists_eq_succ_of_ne_zero (show fuel ≠ 0 by omega)
      obtain ⟨blanks, blank, read⟩ := inductionHypothesis (forms.headD .any) (suits_head suit) fuel
        (']' :: rest) (by omega) (ends_mark ']' (by simp) rest)
      exact readMembers?_last blank read
  | @member value values text later _ _ readOne readOthers =>
      intro forms suit fuel rest enough
      obtain ⟨fuel, rfl⟩ := Nat.exists_eq_succ_of_ne_zero (show fuel ≠ 0 by omega)
      simp only [List.length_append, List.length_cons] at enough
      obtain ⟨blanks, blank, read⟩ := readOne (forms.headD .any) (suits_head suit) fuel
        (',' :: (later ++ ']' :: rest)) (by omega) (ends_mark ',' (by simp) _)
      rw [List.append_assoc, List.cons_append, readMembers?_more blank read,
        readOthers forms.tail (suits_tail suit) fuel rest (by omega)]
      rfl
  | @lastField key value before name between text blankBefore spelled blankBetween _
      inductionHypothesis =>
      intro form suit fuel rest enough
      obtain ⟨fuel, rfl⟩ := Nat.exists_eq_succ_of_ne_zero (show fuel ≠ 0 by omega)
      simp only [List.length_append, List.length_cons] at enough
      obtain ⟨blanks, blank, read⟩ := inductionHypothesis (form.field key)
        (suit (key, value) List.mem_cons_self) fuel ('}' :: rest) (by omega)
        (ends_mark '}' (by simp) rest)
      rw [List.append_assoc, List.append_assoc, List.append_assoc, List.cons_append]
      rw [readFields?_first blankBefore spelled blankBetween, read, Option.bind_some,
        fieldsAfter?_closing blank]
  | @field key value fields before name between text later blankBefore spelled blankBetween _ _
      readOne readOthers =>
      intro form suit fuel rest enough
      obtain ⟨fuel, rfl⟩ := Nat.exists_eq_succ_of_ne_zero (show fuel ≠ 0 by omega)
      simp only [List.length_append, List.length_cons] at enough
      obtain ⟨suitsFirst, suitLater⟩ := List.forall_mem_cons.mp suit
      obtain ⟨blanks, blank, read⟩ := readOne (form.field key) suitsFirst fuel
        (',' :: (later ++ '}' :: rest)) (by omega) (ends_mark ',' (by simp) _)
      simp only [List.append_assoc, List.cons_append]
      rw [readFields?_first blankBefore spelled blankBetween, read, Option.bind_some,
        fieldsAfter?_comma blank, readOthers form suitLater fuel rest (by omega)]
      rfl

/-- A document is read as the value it writes. -/
theorem parse?_of_writes {document : String} (written : Writes value document)
    (suits : Suits form value) : parse? form document = some value := by
  obtain ⟨blanks, blank, read⟩ :=
    readFrom_of_spells written form suits (2 * document.toList.length + 2) [] (by omega) ends_nil
  have skipped : skipBlanks blanks = [] := by
    simpa [skipBlanks] using skipBlanks_append blank []
  rw [List.append_nil, List.append_nil] at read
  simp [parse?, read, skipped]

end Countersign.Json
