import Countersign.Proofs.Json.Quotes
import Countersign.Proofs.Json.Records

/-!
An array of a fixed number of octets may end in a fault, and then its reader may stop in the middle
of a text. It does not come to a good end from there: an object with one such array has the same
keys for the reader as in the grammar, or it is refused, or the array was read twice.
-/

namespace Countersign.Json

/-- A reader has stopped where it should, or where quotes open and close the wrong way. -/
def ReachesOrStrays (goal stop : List Char) : Prop :=
  stop = goal ∨ oddQuotes stop ≠ oddQuotes goal

variable {text rest stop : List Char}

theorem eq_of_dropWidth?_one {character : Char}
    (dropped : dropWidth? 1 (character :: text) = some stop) :
    stop = text := by
  have positive := character.utf8Size_pos
  obtain ⟨single, dropped⟩ := Option.ite_none_right_eq_some.mp dropped
  rw [show 0 + 1 - character.utf8Size = 0 by omega, dropWidth?] at dropped
  exact (Option.some.inj dropped).symm

theorem strays_in_text {units : List Nat} (spelled : SpellsUnits units text) (rest : List Char) :
    ReachesOrStrays rest (text ++ '"' :: rest) := by
  right
  rw [oddQuotes_spellsUnits spelled]
  cases oddQuotes rest <;> decide

theorem passText?_units {units : List Nat} (spelled : SpellsUnits units text) (halved : Bool)
    (passed : passText? halved (text ++ '"' :: rest) = some stop) : ReachesOrStrays rest stop := by
  induction spelled generalizing halved with
  | done =>
      rw [List.nil_append, passText?] at passed
      exact .inl (Option.some.inj passed).symm
  | @plain character units text notQuote notEscape printable spelled inductionHypothesis =>
      rw [List.cons_append, passText?] at passed
      · split at passed
        · rw [eq_of_dropWidth?_one passed]
          exact strays_in_text spelled rest
        · exact inductionHypothesis false passed
      · exact notQuote
      · rintro _ _ _ _ _ rfl
        exact absurd rfl notEscape
      · rintro _ rfl
        exact absurd rfl notEscape
      · rintro _ _ rfl
        exact absurd rfl notEscape
  | @escape escape unit units text named spelled inductionHypothesis =>
      have notUnicode : escape ≠ 'u' := by
        rintro rfl
        simp [shortEscape?] at named
      rw [List.cons_append, List.cons_append, passText?] at passed
      · split at passed
        · exact inductionHypothesis false passed
        · rw [eq_of_dropWidth?_one passed]
          exact strays_in_text spelled rest
      · rintro _ _ _ _ _ rfl
        exact absurd rfl notUnicode
      · rintro rfl
        exact absurd rfl notUnicode
  | @unicode a b c d unit units text denoted spelled inductionHypothesis =>
      simp only [List.cons_append, passText?, denoted] at passed
      split at passed
      · exact inductionHypothesis _ passed
      · rw [← Option.some.inj passed]
        exact strays_in_text spelled rest

variable {whole fraction exponent : List Char}

theorem passExponent?_append (part : Exponent exponent) (ends : Ends rest) {isZero : Bool}
    (passed : passExponent? isZero (exponent ++ rest) = some stop) : stop = rest := by
  cases part with
  | missing =>
      cases rest with
      | nil => exact (Option.some.inj passed).symm
      | cons mark rest =>
          obtain ⟨_, _, notSmall, notLarge⟩ := ends mark rfl
          simp only [List.nil_append, passExponent?, notSmall, notLarge, decide_false,
            Bool.or_self, Bool.false_eq_true, if_false] at passed
          exact (Option.some.inj passed).symm
  | @given mark sign digits isMark isSign run =>
      have marked : (decide (mark = 'e') || decide (mark = 'E')) = true := by simpa using isMark
      have some := List.isEmpty_eq_false_iff.2 run.nonempty
      simp only [List.cons_append, passExponent?, marked, skipSign_append isSign run,
        takeWhile_digits run.digits ends.stops, dropWhile_digits run.digits ends.stops, some,
        Bool.false_eq_true, if_false, if_true] at passed
      exact (Option.some.inj (Option.ite_none_left_eq_some.mp passed).2).symm

theorem passFraction?_append (isFraction : Fraction fraction) (isExponent : Exponent exponent)
    (ends : Ends rest)
    (passed : passFraction? whole (fraction ++ (exponent ++ rest)) = some stop) : stop = rest := by
  obtain ⟨stops, pointless⟩ := stops_exponent isExponent ends
  cases isFraction with
  | missing =>
      rw [List.nil_append, passFraction?] at passed
      · exact passExponent?_append isExponent ends passed
      · intro _ starts
        exact pointless (by rw [starts]; rfl)
  | given run =>
      have some := List.isEmpty_eq_false_iff.2 run.nonempty
      simp only [List.cons_append, passFraction?, takeWhile_digits run.digits stops,
        dropWhile_digits run.digits stops, some, Bool.false_eq_true, if_false] at passed
      exact passExponent?_append isExponent ends passed

theorem passNumber?_append (isWhole : Whole whole) (isFraction : Fraction fraction)
    (isExponent : Exponent exponent) (ends : Ends rest)
    (passed : passNumber? (whole ++ (fraction ++ (exponent ++ rest))) = some stop) :
    stop = rest := by
  have stops := stops_fraction isFraction (stops_exponent isExponent ends).1
  by_cases zero : whole.head? = some '0'
  · obtain ⟨first, rfl⟩ := List.length_eq_one_iff.mp (isWhole.leading zero)
    cases zero
    exact passFraction?_append isFraction isExponent ends passed
  · have some := List.isEmpty_eq_false_iff.2 isWhole.nonempty
    rw [passNumber?] at passed
    · simp only [takeWhile_digits isWhole.digits stops, dropWhile_digits isWhole.digits stops, some,
        Bool.false_eq_true, if_false] at passed
      exact passFraction?_append isFraction isExponent ends passed
    · intro _ starts
      refine zero ?_
      obtain ⟨first, later, rfl⟩ := List.exists_cons_of_ne_nil isWhole.nonempty
      rw [(List.cons.inj starts).1]
      rfl

theorem passMember?_digits {digits : List Char} (run : Digits digits) (later : List Char) :
    passMember? (digits ++ later) = passNumber? (digits ++ later) := by
  obtain ⟨first, others, rfl⟩ := List.exists_cons_of_ne_nil run.nonempty
  have digit : isDigit first = true := run.digits first List.mem_cons_self
  rw [List.cons_append]
  unfold passMember?
  split <;> simp_all <;> exact absurd digit (by decide)

/-- What comes of passing over a value: nothing is read of an array or object. -/
theorem passMember?_value {value : Value} (spelled : Spells (.value value) text) (ends : Ends rest)
    (passed : passMember? (text ++ rest) = some stop) :
    ReachesOrStrays rest stop ∨ ∃ later, stop = '[' :: later ∨ stop = '{' :: later := by
  cases spelled with
  | null | true | false => exact .inl (.inl (by simpa [passMember?, passWord?] using passed.symm))
  | @natural value =>
      have isWhole := whole_toDigits value
      rw [passMember?_digits isWhole.toDigits] at passed
      exact .inl (.inl (passNumber?_append isWhole .missing .missing ends passed))
  | @otherNumber sign whole fraction exponent isSign isWhole isFraction isExponent _ =>
      simp only [List.append_assoc] at passed
      rcases isSign with rfl | rfl
      · rw [List.nil_append, passMember?_digits isWhole.toDigits] at passed
        exact .inl (.inl (passNumber?_append isWhole isFraction isExponent ends passed))
      · exact .inl (.inl (passNumber?_append isWhole isFraction isExponent ends passed))
  | text quoted =>
      cases quoted with
      | quoted units =>
          rw [List.cons_append, List.append_assoc, passMember?] at passed
          exact .inl (passText?_units units false passed)
  | emptyArray _ | array _ => exact .inr ⟨_, .inl (Option.some.inj passed).symm⟩
  | emptyObject _ | object _ => exact .inr ⟨_, .inr (Option.some.inj passed).symm⟩

theorem reaches_or_strays_closing {goal : List Char}
    (outcome : ReachesOrStrays goal stop ∨ ∃ later, stop = '[' :: later ∨ stop = '{' :: later)
    (closing : skipBlanks stop = ']' :: rest) :
    skipBlanks goal = ']' :: rest ∨ oddQuotes rest ≠ oddQuotes goal := by
  rcases outcome with (rfl | strayed) | ⟨later, rfl | rfl⟩
  · exact .inl closing
  · rw [← oddQuotes_skipBlanks, closing, oddQuotes_cons (by decide)] at strayed
    exact .inr strayed
  · rw [skipBlanks_cons (by decide)] at closing
    cases closing
  · rw [skipBlanks_cons (by decide)] at closing
    cases closing

theorem readNumber?_of_readOctet? {octet : UInt8} (read : readOctet? text = some (octet, stop)) :
    ∃ value, readNumber? false (skipBlanks text) = some (value, stop) := by
  rw [readOctet?] at read
  split at read
  · next value after number =>
      obtain ⟨_, same⟩ := Option.ite_none_right_eq_some.mp read
      cases same
      exact ⟨_, number⟩
  · cases read

/-- An octet is read up to where its member ends. -/
theorem readOctet?_spells {value : Value} {octet : UInt8} (spelled : Spells (.padded value) text)
    (ends : Ends rest) (read : readOctet? (text ++ rest) = some (octet, stop)) :
    ∃ blanks, Blank blanks ∧ stop = blanks ++ rest := by
  cases spelled with
  | @padded _ before inner after blankBefore spelled blankAfter =>
      refine ⟨after, blankAfter, ?_⟩
      have endsAfter := ends_of_blank blankAfter ends
      obtain ⟨number, numberRead⟩ := readNumber?_of_readOctet? read
      rw [List.append_assoc, skipBlanks_append blankBefore, List.append_assoc,
        skipBlanks_value spelled] at numberRead
      cases spelled with
      | natural =>
          rw [readNumber?_natural _ endsAfter] at numberRead
          cases numberRead
          rfl
      | otherNumber isSign isWhole isFraction isExponent _ =>
          rcases isSign with rfl | rfl
          · have found := readNumber?_append false isWhole isFraction isExponent endsAfter
            simp only [List.nil_append, List.append_assoc] at numberRead
            rw [found] at numberRead
            cases numberRead
            rfl
          · cases numberRead
      | text quoted =>
          cases quoted with
          | quoted _ => cases numberRead
      | _ => cases numberRead

theorem passMember?_padded {value : Value} {passed : List Char}
    (spelled : Spells (.padded value) text) (ends : Ends rest)
    (passing : passMember? (skipBlanks (text ++ rest)) = some passed)
    (closing : skipBlanks passed = ']' :: stop) :
    skipBlanks rest = ']' :: stop ∨ oddQuotes stop ≠ oddQuotes rest := by
  cases spelled with
  | @padded _ before inner after blankBefore spelled blankAfter =>
      rw [List.append_assoc, skipBlanks_append blankBefore, List.append_assoc,
        skipBlanks_value spelled] at passing
      have outcome := passMember?_value spelled (ends_of_blank blankAfter ends) passing
      have found := reaches_or_strays_closing outcome closing
      rwa [skipBlanks_append blankAfter, oddQuotes_blank blankAfter] at found

/-- Once all octets are read, one more member is passed over. -/
theorem readOctets?_rest {first : Bool} {start : List Char} {octets : Bytes}
    (starts : afterComma? first start = some text)
    (read : readOctets? first 0 start = some (octets, stop)) :
    ∃ passed, passMember? (skipBlanks text) = some passed ∧ skipBlanks passed = ']' :: stop := by
  rw [readOctets?] at read
  split at read
  · next closing =>
      cases read
      obtain ⟨passed, passing, closing⟩ := Option.map_eq_some_iff.mp closing
      rw [passRest?, starts] at passing
      exact ⟨passed, (Option.ite_none_left_eq_some.mp passing).2, closing⟩
  · cases read

/-- An array ends after its last octet, where no comma follows. -/
theorem readOctets?_last {blanks : List Char} (blank : Blank blanks) {count : Nat} {octets : Bytes}
    (read : readOctets? false count (blanks ++ ']' :: rest) = some (octets, stop)) :
    stop = rest := by
  cases count with
  | zero =>
      rw [readOctets?_end blank] at read
      cases read
      rfl
  | succ count =>
      have noComma : afterComma? false (blanks ++ ']' :: rest) = none := by
        rw [afterComma?, skipBlanks_before blank (by decide)]
        rfl
      simp [readOctets?, noComma] at read

/-- An array is read as octets up to its end, or its reader strays. -/
theorem readOctets?_spells {values : List Value} (spelled : Spells (.members values) text)
    {first : Bool} {start : List Char}
    (starts : afterComma? first start = some (text ++ ']' :: rest)) {count : Nat} {octets : Bytes}
    (read : readOctets? first count start = some (octets, stop)) : ReachesOrStrays rest stop := by
  induction values generalizing text first start count octets with
  | nil => cases spelled
  | cons value values inductionHypothesis =>
      cases count with
      | zero =>
          obtain ⟨passed, passing, closing⟩ := readOctets?_rest starts read
          cases spelled with
          | lastMember spelled =>
              have found :=
                passMember?_padded spelled (ends_mark ']' (by simp) rest) passing closing
              rw [skipBlanks_cons (by decide), oddQuotes_cons (by decide)] at found
              exact found.imp (fun same => (List.cons.inj same).2.symm) id
          | @member _ _ text later spelled others =>
              rw [List.append_assoc, List.cons_append] at passing
              have found := passMember?_padded spelled (ends_mark ',' (by simp) _) passing closing
              rw [skipBlanks_cons (by decide), oddQuotes_cons (by decide),
                oddQuotes_spells others, oddQuotes_cons (by decide)] at found
              exact found.elim (fun same => by cases same) .inr
      | succ count =>
          rw [readOctets?, starts, Option.bind_some] at read
          cases octet : readOctet? (text ++ ']' :: rest) with
          | none => simp [octet] at read
          | some found =>
              obtain ⟨found, between⟩ := found
              simp only [octet] at read
              obtain ⟨⟨others, _⟩, later, same⟩ := Option.map_eq_some_iff.mp read
              cases same
              cases spelled with
              | lastMember spelled =>
                  obtain ⟨blanks, blank, rfl⟩ :=
                    readOctet?_spells spelled (ends_mark ']' (by simp) rest) octet
                  exact .inl (readOctets?_last blank later)
              | member spelled others =>
                  rw [List.append_assoc, List.cons_append] at octet
                  obtain ⟨blanks, blank, rfl⟩ :=
                    readOctet?_spells spelled (ends_mark ',' (by simp) _) octet
                  exact inductionHypothesis others (afterComma?_blanks blank _) later

theorem readOctets?_empty {blanks : List Char} (blank : Blank blanks) {count : Nat} {octets : Bytes}
    (read : readOctets? true count (blanks ++ ']' :: rest) = some (octets, stop)) :
    stop = rest := by
  cases count with
  | zero =>
      rw [readOctets?_none blank] at read
      cases read
      rfl
  | succ count =>
      have noOctet : readOctet? (blanks ++ ']' :: rest) = none := by
        rw [readOctet?, skipBlanks_before blank (by decide)]
        rfl
      simp [readOctets?, afterComma?, noOctet] at read

theorem readValue?_wantedArray {values : List Value} {result : Value} {fuel count : Nat}
    (spelled : Spells (.value (.array values)) text)
    (read : readValue? fuel (.octets count) (text ++ rest) = some (result, stop)) :
    ReachesOrStrays rest stop := by
  cases fuel with
  | zero => cases read
  | succ fuel =>
      cases spelled with
      | emptyArray blank =>
          rw [List.cons_append, List.append_assoc, List.singleton_append,
            readValue?_octets_bracket] at read
          obtain ⟨_, inner, same⟩ := Option.map_eq_some_iff.mp read
          cases same
          exact .inl (readOctets?_empty blank inner)
      | array spelled =>
          rw [List.cons_append, List.append_assoc, List.singleton_append,
            readValue?_octets_bracket] at read
          obtain ⟨_, inner, same⟩ := Option.map_eq_some_iff.mp read
          cases same
          exact readOctets?_spells spelled rfl inner

/-- A value that is wanted as octets is read up to its end, or its reader strays. -/
theorem readValue?_wanted {value result : Value} {fuel count : Nat}
    (spelled : Spells (.padded value) text) (enough : 2 * text.length ≤ fuel) (ends : Ends rest)
    (read : readValue? fuel (.octets count) (text ++ rest) = some (result, stop)) :
    (∃ blanks, Blank blanks ∧ stop = blanks ++ rest) ∨ oddQuotes stop ≠ oddQuotes rest := by
  cases spelled with
  | @padded _ before inner after blankBefore spelled blankAfter =>
      rw [List.append_assoc, readValue?_blanks blankBefore, List.append_assoc] at read
      have outcome : ReachesOrStrays (after ++ rest) stop := by
        have exact_ : Suits (.octets count) value → ReachesOrStrays (after ++ rest) stop := by
          intro suits
          have found := readFrom_of_spells spelled (.octets count) suits fuel (after ++ rest)
            (by simp only [List.length_append] at enough; omega) (ends_of_blank blankAfter ends)
          rw [read] at found
          cases found
          exact .inl rfl
        cases value with
        | array values => exact readValue?_wantedArray spelled read
        | null => exact exact_ .null
        | bool _ => exact exact_ .bool
        | natural _ => exact exact_ .natural
        | otherNumber => exact exact_ .otherNumber
        | text _ => exact exact_ .text
        | object _ => exact exact_ (.object fun _ _ => .any)
      rcases outcome with same | strayed
      · exact .inl ⟨after, blankAfter, same⟩
      · rw [oddQuotes_blank blankAfter] at strayed
        exact .inr strayed

/-! ## Objects with one field that is wanted as octets -/

variable {point : String} {form : Form}

/-- Only one field of an object is wanted in a form, as octets. -/
structure WantsOctets (form : Form) (point : String) : Prop where
  wanted : ∃ count, form.field (some point) = .octets count
  others : ∀ key, key ≠ some point → form.field key = .any

/-- Two objects have the same keys in the same order, and the same values for all but one. -/
structure SameButAt (point : String) (fields others : List (Option String × Value)) : Prop where
  keys : others.map Prod.fst = fields.map Prod.fst
  values : ∀ field ∈ fields, field.1 ≠ some point → field ∈ others

/-- A field is read up to its end, or it is the one that is wanted as octets and its reader
strays. -/
theorem readValue?_field {key : Option String} {value result : Value} {fuel : Nat}
    (wants : WantsOctets form point) (spelled : Spells (.padded value) text)
    (enough : 2 * text.length ≤ fuel) (ends : Ends rest)
    (read : readValue? fuel (form.field key) (text ++ rest) = some (result, stop)) :
    (∃ blanks, Blank blanks ∧ stop = blanks ++ rest ∧ (key ≠ some point → result = value)) ∨
      (key = some point ∧ oddQuotes stop ≠ oddQuotes rest) := by
  by_cases isPoint : key = some point
  · obtain ⟨count, wanted⟩ := wants.wanted
    rw [isPoint, wanted] at read
    rcases readValue?_wanted spelled enough ends read with ⟨blanks, blank, same⟩ | strayed
    · exact .inl ⟨blanks, blank, same, fun other => absurd isPoint other⟩
    · exact .inr ⟨isPoint, strayed⟩
  · rw [wants.others key isPoint] at read
    obtain ⟨blanks, blank, found⟩ := readFrom_of_spells spelled .any .any fuel rest enough ends
    rw [read] at found
    cases found
    exact .inl ⟨blanks, blank, rfl, fun _ => rfl⟩

variable {fields others : List (Option String × Value)} {fuel : Nat}

/-- After its reader has strayed, an object is not read to a good end, unless it is read twice. -/
theorem strayed_fields {key : Option String} {value : Value} {between goal : List Char}
    (wants : WantsOctets form point) (isPoint : key = some point)
    (strayed : oddQuotes between ≠ oddQuotes goal)
    (read : fieldsAfter? fuel form key value between = some (others, stop)) :
    Twice point others ∨ oddQuotes stop ≠ oddQuotes goal := by
  rw [← oddQuotes_skipBlanks between] at strayed
  rw [fieldsAfter?] at read
  split at read
  · next after comma =>
      obtain ⟨⟨later, _⟩, inner, same⟩ := Option.map_eq_some_iff.mp read
      cases same
      rw [comma, oddQuotes_cons (by decide)] at strayed
      by_cases again : ∃ field ∈ later, field.1 = some point
      · obtain ⟨field, among, sameKey⟩ := again
        subst isPoint
        exact .inl (twice_of_again among sameKey value)
      · right
        have unwanted : ∀ field ∈ later, form.field field.1 = .any :=
          fun field among => wants.others field.1 fun isPoint => again ⟨field, among, isPoint⟩
        rwa [(keepsQuotes fuel).2.2 form _ _ _ inner unwanted]
  · next after closing =>
      cases read
      rw [closing, oddQuotes_cons (by decide)] at strayed
      exact .inr strayed
  · cases read

theorem SameButAt.single {key : Option String} {value result : Value}
    (same : key ≠ some point → result = value) :
    SameButAt point [(key, value)] [(key, result)] where
  keys := rfl
  values := fun field among other => by
    obtain rfl := List.mem_singleton.mp among
    rw [same other]
    exact List.mem_singleton.mpr rfl

theorem SameButAt.cons {key : Option String} {value result : Value}
    (same : key ≠ some point → result = value) (later : SameButAt point fields others) :
    SameButAt point ((key, value) :: fields) ((key, result) :: others) where
  keys := by rw [List.map_cons, List.map_cons, later.keys]
  values := fun field among other => by
    rcases List.mem_cons.mp among with rfl | inLater
    · rw [same other]
      exact List.mem_cons_self
    · exact List.mem_cons_of_mem _ (later.values field inLater other)

/-- The fields of an object are read up to their end, but for the value of the one that is wanted as
octets; or its reader strays, and then it is read twice or the end is not reached. -/
theorem readFields?_spells (wants : WantsOctets form point) (spelled : Spells (.fields fields) text)
    (enough : 2 * text.length < fuel)
    (read : readFields? fuel form (text ++ '}' :: rest) = some (others, stop)) :
    (SameButAt point fields others ∧ stop = rest) ∨ Twice point others ∨
      oddQuotes stop ≠ oddQuotes rest := by
  induction fields generalizing text fuel others with
  | nil => cases spelled
  | cons field fields inductionHypothesis =>
      obtain ⟨fuel, rfl⟩ := Nat.exists_eq_succ_of_ne_zero (show fuel ≠ 0 by omega)
      cases spelled with
      | @lastField key value before name between text blankBefore spelled blankBetween inner =>
          simp only [List.length_append, List.length_cons] at enough
          simp only [List.append_assoc, List.cons_append] at read
          rw [readFields?_first blankBefore spelled blankBetween] at read
          obtain ⟨⟨result, after⟩, first, read⟩ := Option.bind_eq_some_iff.mp read
          rcases readValue?_field wants inner (by omega) (ends_mark '}' (by simp) rest) first with
            ⟨blanks, blank, rfl, same⟩ | ⟨isPoint, strayed⟩
          · rw [fieldsAfter?_closing blank] at read
            cases read
            exact .inl ⟨.single same, rfl⟩
          · rw [oddQuotes_cons (by decide)] at strayed
            exact .inr (strayed_fields wants isPoint strayed read)
      | @field key value _ before name between text later blankBefore spelled blankBetween inner
          spelledLater =>
          simp only [List.length_append, List.length_cons] at enough
          simp only [List.append_assoc, List.cons_append] at read
          rw [readFields?_first blankBefore spelled blankBetween] at read
          obtain ⟨⟨result, after⟩, first, read⟩ := Option.bind_eq_some_iff.mp read
          rcases readValue?_field wants inner (by omega) (ends_mark ',' (by simp) _) first with
            ⟨blanks, blank, rfl, same⟩ | ⟨isPoint, strayed⟩
          · rw [fieldsAfter?_comma blank] at read
            obtain ⟨⟨readLater, _⟩, readOthers, together⟩ := Option.map_eq_some_iff.mp read
            cases together
            rcases inductionHypothesis spelledLater (by omega) readOthers with
              ⟨sameLater, atEnd⟩ | twice | strayed
            · exact .inl ⟨.cons same sameLater, atEnd⟩
            · exact .inr (.inl (twice_cons twice _))
            · exact .inr (.inr strayed)
          · rw [oddQuotes_cons (by decide), oddQuotes_spells spelledLater,
              oddQuotes_cons (by decide)] at strayed
            exact .inr (strayed_fields wants isPoint strayed read)

/-- A document that writes an object is refused, or is read as one that differs at most in the value
that is wanted as octets, or in which that value stands twice. -/
theorem parse?_object {document : String} {value : Value} (wants : WantsOctets form point)
    (written : Writes (.object fields) document) (parsed : parse? form document = some value) :
    ∃ others, value = .object others ∧ (SameButAt point fields others ∨ Twice point others) := by
  rw [parse?] at parsed
  generalize enough : 2 * document.toList.length + 2 = fuel at parsed
  rw [Writes] at written
  generalize document.toList = whole at written enough parsed
  cases written with
  | @padded _ before inner after blankBefore spelled blankAfter =>
      rw [readValue?_blanks blankBefore] at parsed
      cases read : readValue? fuel form (inner ++ after) with
      | none => simp [read] at parsed
      | some found =>
          obtain ⟨found, stop⟩ := found
          simp only [read] at parsed
          obtain ⟨atEnd, same⟩ := Option.ite_none_right_eq_some.mp parsed
          cases same
          have evenAfter : oddQuotes after = false := by
            simpa [oddQuotes] using oddQuotes_blank blankAfter []
          have evenStop : oddQuotes stop = false := by
            rw [← oddQuotes_skipBlanks, List.isEmpty_iff.mp atEnd, oddQuotes]
          obtain ⟨fuel, rfl⟩ := Nat.exists_eq_succ_of_ne_zero (show fuel ≠ 0 by omega)
          cases spelled with
          | emptyObject blank =>
              rw [readValue?_emptyObject blank] at read
              cases read
              exact ⟨[], rfl, .inl ⟨rfl, fun _ among _ => among⟩⟩
          | @object _ text spelled =>
              rw [readValue?_object spelled] at read
              obtain ⟨⟨others, _⟩, inside, together⟩ := Option.map_eq_some_iff.mp read
              cases together
              refine ⟨others, rfl, ?_⟩
              simp only [List.length_append, List.length_cons] at enough
              rcases readFields?_spells wants spelled (by omega) inside with
                ⟨same, _⟩ | twice | strayed
              · exact .inl same
              · exact .inr twice
              · exact absurd (evenStop.trans evenAfter.symm) strayed

end Countersign.Json
