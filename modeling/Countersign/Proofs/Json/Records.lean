import Countersign.Json.Codec
import Countersign.Proofs.Hex
import Countersign.Proofs.Json.Reading
import Countersign.Proofs.Text

/-!
What is written for a number, a byte string or a record spells a value, and such a value is read as
what was written; of an object the fields are found by their names, in whatever order they stand.
-/

namespace Countersign.Json

/-- Digits are read as the number they were written for. -/
theorem numberFrom?_toDigits {base : Nat} (large : 1 < base) (hex : base ≤ 16) (value : Nat) :
    numberFrom? base 0 (Nat.toDigits base value) = some value := by
  have known : ∀ digit < 16,
      Nat.digitChar digit ≠ '_' ∧ hexDigit? (Nat.digitChar digit) = some digit := by decide
  have read : numberFrom? base 0 (Nat.toDigits base value ++ []) = numberFrom? base value [] := by
    refine Text.read_toDigits large (fun before digit rest small => ?_) value []
    obtain ⟨notIgnored, denoted⟩ := known digit (by omega)
    simp [numberFrom?, digitBelow?, notIgnored, denoted, small]
  rwa [List.append_nil, numberFrom?] at read

theorem uint64?_natural (value : UInt64) : uint64? (.natural value.toNat) = some value := by
  simp [uint64?, natBelow?, value.toNat_lt_size]

theorem uint128?_natural (value : BitVec 128) : uint128? (.natural value.toNat) = some value := by
  have small : value.toNat < 1 <<< 128 := value.isLt
  rw [uint128?, natBelow?, if_pos small]
  simp

theorem word?_quantity (word : Word) :
    word? (.text (some (Hex.quantity word.toNat))) = some word := by
  have small : word.toNat < 1 <<< 256 := word.isLt
  have denoted : number? (Hex.quantity word.toNat).toList = some word.toNat := by
    have read := numberFrom?_toDigits (by decide : 1 < 16) (by decide) word.toNat
    simpa [Hex.quantity, Hex.minimalDigits, number?] using read
  simp only [word?, denoted, if_pos small]
  simp

theorem bytes?_of_spells {bytes : Bytes} {text : String} (spelled : Hex.Spells bytes text) :
    bytes? (.text (some text)) = some bytes := by
  simp [bytes?, Hex.decode_of_spells spelled, Except.toOption]

theorem mapM_octetValues (bytes : Bytes) : (octetValues bytes).mapM octet? = some bytes := by
  induction bytes with
  | nil => rfl
  | cons byte bytes inductionHypothesis =>
      have first : octet? (.natural byte.toNat) = some byte := by
        simp [octet?, natBelow?, byte.toNat_lt]
      rw [octetValues] at inductionHypothesis ⊢
      simp [first, inductionHypothesis]

/-- A value holds the bytes of a string: a text of their digits, or an array of them. -/
inductive Holds (bytes : Bytes) : Value → Prop
  | text {text : String} : Hex.Spells bytes text → Holds bytes (.text (some text))
  | array : Holds bytes (.array (octetValues bytes))

theorem octets?_of_holds {n : Nat} {octets : Octets n} {value : Value}
    (holds : Holds octets.bytes value) : octets? n value = some octets := by
  have sized : Octets.ofBytes? n octets.bytes = some octets := by
    simp [Octets.ofBytes?, octets.length_bytes]
  cases holds with
  | text spelled => simp [octets?, bytes?_of_spells spelled, sized]
  | array =>
      have length : (octetValues octets.bytes).length = n := by
        simp [octetValues, octets.length_bytes]
      have counted : octetMembers n (octetValues octets.bytes) = octetValues octets.bytes := by
        rw [octetMembers, List.drop_of_length_le (Nat.le_of_eq length)]
      simp [octets?, counted, bytes?, mapM_octetValues, sized]

theorem suits_of_holds {n : Nat} {octets : Octets n} {value : Value}
    (holds : Holds octets.bytes value) : Suits (.octets n) value := by
  cases holds with
  | text _ => exact .text
  | array =>
      obtain ⟨bytes, rfl⟩ := octets
      exact .octets

theorem spells_writeNat (value : Nat) :
    Spells (.value (.natural value)) (writeNat value).toList := by
  rw [writeNat, Nat.toString_eq_ofList_toDigits, String.toList_ofList]
  exact .natural

theorem spells_writeBool (value : Bool) :
    Spells (.value (.bool value)) (writeBool value).toList := by
  cases value with
  | true => exact .true
  | false => exact .false

theorem spells_writeText {text : String} (plain : PlainText text) :
    Spells (.value (.text (some text))) (writeText text).toList := by
  have split : (writeText text).toList = '"' :: (text.toList ++ ['"']) := by
    simp [writeText]
  rw [split]
  exact .text (spellsText_of_plain plain)

theorem spells_writeBytes (bytes : Bytes) :
    Spells (.value (.text (some (Hex.encode bytes)))) (writeBytes bytes).toList := by
  have plainDigit : ∀ value < 16, Plain (Hex.digit value) := by decide
  refine spells_writeText ?_
  rw [PlainText, Hex.encode, String.toList_ofList, List.forall_mem_cons, List.forall_mem_cons]
  refine ⟨by decide, by decide, ?_⟩
  intro character among
  obtain ⟨byte, _, inByte⟩ := List.mem_flatMap.mp among
  have high : byte.toNat / 16 < 16 := by have := byte.toNat_lt; omega
  have low : byte.toNat % 16 < 16 := Nat.mod_lt _ (by decide)
  simp only [Hex.digitsOfByte, List.mem_cons, List.not_mem_nil, or_false] at inByte
  rcases inByte with rfl | rfl
  · exact plainDigit _ high
  · exact plainDigit _ low

theorem spells_writeWord (word : Word) :
    Spells (.value (.text (some (Hex.quantity word.toNat)))) (writeWord word).toList := by
  have plainDigit : ∀ value < 16, Plain (Nat.digitChar value) := by decide
  refine spells_writeText ?_
  rw [PlainText, Hex.quantity, String.toList_ofList, List.forall_mem_cons, List.forall_mem_cons]
  refine ⟨by decide, by decide, ?_⟩
  intro character among
  obtain ⟨digit, small, rfl⟩ := Text.exists_digitChar (by decide) among
  exact plainDigit digit small

/-- Fields whose names are texts. -/
def named (fields : List (String × Value)) : List (Option String × Value) :=
  fields.map fun field => (some field.1, field.2)

/-- The fields of one name. -/
def fieldsOf (name : String) (fields : List (String × Value)) : List (String × Value) :=
  fields.filter fun field => field.1 = name

variable {names : List String} {fields : List (String × Value)} {name : String}

theorem filter_named (name : String) (fields : List (String × Value)) :
    ((named fields).filter fun field => field.1 = some name) = named (fieldsOf name fields) := by
  rw [named, List.filter_map]
  simp [named, fieldsOf, Function.comp_def]

theorem lookup?_named (name : String) (fields : List (String × Value)) :
    lookup? name (named fields) = (fieldsOf name fields).head?.map Prod.snd := by
  rw [lookup?, ← List.head?_filter, filter_named, named, List.head?_map, Option.map_map]
  rfl

/-- An object is read by names that stand once in it at most. -/
theorem fields?_named (single : ∀ name ∈ names, (fieldsOf name fields).length ≤ 1) :
    fields? names (.object (named fields)) =
      some (names.map fun name => lookup? name (named fields)) := by
  have unambiguous : isUnambiguous names (named fields) = true := by
    rw [isUnambiguous, Bool.and_eq_true, List.all_eq_true, List.all_eq_true]
    constructor
    · intro field among
      obtain ⟨_, _, rfl⟩ := List.mem_map.mp among
      rfl
    · intro name known
      rw [filter_named, named, List.length_map]
      exact decide_eq_true (single name known)
  rw [fields?, if_pos unambiguous]

/-- A name stands twice among fields. -/
def Twice (name : String) (fields : List (Option String × Value)) : Prop :=
  2 ≤ (fields.filter fun field => field.1 = some name).length

theorem twice_cons {fields : List (Option String × Value)} (twice : Twice name fields)
    (field : Option String × Value) : Twice name (field :: fields) := by
  rw [Twice, List.filter_cons]
  split
  · exact Nat.le_succ_of_le twice
  · exact twice

theorem twice_of_again {fields : List (Option String × Value)} {field : Option String × Value}
    (again : field ∈ fields) (isName : field.1 = some name) (value : Value) :
    Twice name ((some name, value) :: fields) := by
  have found : field ∈ fields.filter fun field => field.1 = some name := by
    simp [again, isName]
  have some := List.length_pos_of_mem found
  rw [Twice, List.filter_cons_of_pos (by simp), List.length_cons]
  omega

/-- How often a name stands depends on the keys alone. -/
theorem twice_of_same_keys {fields others : List (Option String × Value)}
    (keys : others.map Prod.fst = fields.map Prod.fst) (twice : Twice name fields) :
    Twice name others := by
  have count : ∀ fields : List (Option String × Value),
      (fields.filter fun field => field.1 = some name).length =
        ((fields.map Prod.fst).filter fun key => key = some name).length := by
    intro fields
    rw [List.filter_map, List.length_map]
    rfl
  rw [Twice, count] at twice ⊢
  rwa [keys]

theorem not_twice_of_isUnambiguous {fields : List (Option String × Value)}
    (unambiguous : isUnambiguous names fields = true) (known : name ∈ names) :
    ¬ Twice name fields := by
  rw [isUnambiguous, Bool.and_eq_true, List.all_eq_true, List.all_eq_true] at unambiguous
  have single := of_decide_eq_true (unambiguous.2 name known)
  exact Nat.not_le_of_lt (Nat.lt_succ_of_le single)

/-- An object in which a known name stands twice is refused. -/
theorem fields?_of_twice {fields : List (Option String × Value)} (known : name ∈ names)
    (twice : Twice name fields) : fields? names (.object fields) = none := by
  rw [fields?, if_neg fun unambiguous => not_twice_of_isUnambiguous unambiguous known twice]

/-- An object that is read gives each known name its only value. -/
theorem lookup?_of_mem {fields : List (Option String × Value)} {values : List (Option Value)}
    (found : fields? names (.object fields) = some values) (known : name ∈ names) {value : Value}
    (among : (some name, value) ∈ fields) : lookup? name fields = some value := by
  obtain ⟨unambiguous, _⟩ := Option.ite_none_right_eq_some.mp found
  have once := not_twice_of_isUnambiguous unambiguous known
  have inside : (some name, value) ∈ fields.filter fun field => field.1 = some name := by
    simp [among]
  rw [Twice] at once
  rw [lookup?, ← List.head?_filter]
  match same : fields.filter fun field => field.1 = some name with
  | [] =>
      rw [same] at inside
      cases inside
  | [only] =>
      rw [same, List.mem_singleton] at inside
      rw [same, ← inside]
      rfl
  | first :: second :: rest =>
      rw [same] at once
      simp at once

variable {α : Type} {stands : α → Value → Prop} {read : Value → Option α} {given : Option α}

@[simp]
theorem required_some (value : Value) : required read (some value) = read value := rfl

@[simp]
theorem optional_some (absent : α) (value : Value) :
    Json.optional absent read (some value) = read value := rfl

@[simp]
theorem optional_none (absent : α) : Json.optional absent read none = some absent := rfl

/-- A part stands once under its name, as a value that stands for it, or it is left out. -/
def Gives (stands : α → Value → Prop) (fields : List (String × Value)) (name : String) :
    Option α → Prop
  | some part => ∃ value, fieldsOf name fields = [(name, value)] ∧ stands part value
  | none => fieldsOf name fields = []

theorem Gives.single (gives : Gives stands fields name given) :
    (fieldsOf name fields).length ≤ 1 := by
  cases given with
  | none => simp [show fieldsOf name fields = [] from gives]
  | some part =>
      obtain ⟨value, alone, _⟩ := gives
      simp [alone]

theorem Gives.exists_part (gives : Gives stands fields name given) {value : Value}
    (among : (name, value) ∈ fields) : ∃ part, stands part value := by
  have found : (name, value) ∈ fieldsOf name fields := by
    simp [fieldsOf, among]
  cases given with
  | none =>
      rw [show fieldsOf name fields = [] from gives] at found
      cases found
  | some part =>
      obtain ⟨only, alone, standsFor⟩ := gives
      rw [alone, List.mem_singleton] at found
      cases found
      exact ⟨part, standsFor⟩

/-- A part that is left out is as it is without the document. -/
theorem Gives.optional_map {β : Type} {read : Value → Option β} {result : α → β}
    (gives : Gives stands fields name given)
    (reads : ∀ part value, stands part value → read value = some (result part)) (absent : β) :
    Json.optional absent read (lookup? name (named fields)) =
      some ((given.map result).getD absent) := by
  rw [lookup?_named]
  cases given with
  | none =>
      rw [show fieldsOf name fields = [] from gives]
      rfl
  | some part =>
      obtain ⟨value, alone, standsFor⟩ := gives
      rw [alone]
      exact reads part value standsFor

theorem Gives.optional (gives : Gives stands fields name given)
    (reads : ∀ part value, stands part value → read value = some part) (absent : α) :
    Json.optional absent read (lookup? name (named fields)) = some (given.getD absent) := by
  rw [gives.optional_map reads absent, Option.map_id']

/-! ## Writing -/

/-- A field that is written: its name, the text of its value and the value. -/
structure Entry where
  name : String
  text : String
  value : Value

namespace Entry

/-- The text spells the value. -/
def Spelled (entry : Entry) : Prop :=
  Spells (.value entry.value) entry.text.toList

/-- A field as it stands in a record. -/
def written (entry : Entry) : String :=
  writeText entry.name ++ ":" ++ entry.text

theorem toList_written (entry : Entry) :
    entry.written.toList =
      [] ++ ('"' :: (entry.name.toList ++ ['"']) ++ ([] ++ ':' :: entry.text.toList)) := by
  simp [written, writeText]

end Entry

/-- The fields of entries in their order. -/
def fieldsOfEntries (entries : List Entry) : List (String × Value) :=
  entries.map fun entry => (entry.name, entry.value)

/-- The record of entries as it is written. -/
def writeEntries (entries : List Entry) : String :=
  writeRecord (entries.map fun entry => (entry.name, entry.text))

/-- The names of a record: at least one, all different, and none needs an escape. -/
structure Layout (names : List String) : Prop where
  nonempty : names ≠ []
  distinct : names.Nodup
  plain : ∀ name ∈ names, PlainText name

theorem blank_nil : Blank [] := by
  simp [Blank]

theorem spells_bare {value : Value} {text : List Char} (spelled : Spells (.value value) text) :
    Spells (.padded value) text := by
  simpa using Spells.padded blank_nil spelled blank_nil

theorem toList_intercalate_cons (text : String) (texts : List String) :
    (String.intercalate "," (text :: texts)).toList =
      text.toList ++ texts.flatMap fun text => ',' :: text.toList := by
  induction texts generalizing text with
  | nil => simp
  | cons next texts inductionHypothesis =>
      rw [String.intercalate_cons_cons, String.toList_append, String.toList_append,
        inductionHypothesis next]
      simp

variable {first : Entry} {entries : List Entry}

theorem spells_entries
    (plain : ∀ entry ∈ first :: entries, PlainText entry.name)
    (spelled : ∀ entry ∈ first :: entries, entry.Spelled) :
    Spells (.fields (named (fieldsOfEntries (first :: entries))))
      (first.written.toList ++
        (entries.map Entry.written).flatMap fun text => ',' :: text.toList) := by
  induction entries generalizing first with
  | nil =>
      have name := spellsText_of_plain (plain first List.mem_cons_self)
      have value := spells_bare (spelled first List.mem_cons_self)
      rw [List.map_nil, List.flatMap_nil, List.append_nil, first.toList_written]
      exact .lastField blank_nil name blank_nil value
  | cons next entries inductionHypothesis =>
      obtain ⟨plainFirst, plainLater⟩ := List.forall_mem_cons.mp plain
      obtain ⟨spelledFirst, spelledLater⟩ := List.forall_mem_cons.mp spelled
      have value := spells_bare spelledFirst
      have whole : Spells (.fields (named (fieldsOfEntries (first :: next :: entries)))) _ :=
        .field blank_nil (spellsText_of_plain plainFirst) blank_nil value
          (inductionHypothesis plainLater spelledLater)
      rw [first.toList_written]
      simpa using whole

/-- A record spells the object of its fields. -/
theorem spells_writeEntries (layout : Layout (entries.map Entry.name))
    (spelled : ∀ entry ∈ entries, entry.Spelled) :
    Spells (.value (.object (named (fieldsOfEntries entries))))
      (writeEntries entries).toList := by
  have plain : ∀ entry ∈ entries, PlainText entry.name :=
    fun entry among => layout.plain entry.name (List.mem_map_of_mem among)
  obtain ⟨first, others, rfl⟩ :=
    List.exists_cons_of_ne_nil fun none : entries = [] => layout.nonempty (by simp [none])
  have split : (writeEntries (first :: others)).toList =
      '{' :: ((first.written.toList ++
        (others.map Entry.written).flatMap fun text => ',' :: text.toList) ++ ['}']) := by
    rw [writeEntries, writeRecord, List.map_map, List.map_cons, String.toList_append,
      String.toList_append, toList_intercalate_cons]
    rfl
  rw [split]
  exact .object (spells_entries plain spelled)

theorem fieldsOf_entry (distinct : (entries.map Entry.name).Nodup) {entry : Entry}
    (among : entry ∈ entries) :
    fieldsOf entry.name (fieldsOfEntries entries) = [(entry.name, entry.value)] := by
  induction entries with
  | nil => cases among
  | cons first entries inductionHypothesis =>
      rw [List.map_cons, List.nodup_cons] at distinct
      obtain ⟨fresh, distinctLater⟩ := distinct
      have others : ∀ name, name ∉ entries.map Entry.name →
          fieldsOf name (fieldsOfEntries entries) = [] := by
        intro name absent
        rw [fieldsOf, List.filter_eq_nil_iff]
        intro field inFields
        obtain ⟨other, isOther, rfl⟩ := List.mem_map.mp inFields
        simp only [decide_eq_true_eq]
        rintro rfl
        exact absent (List.mem_map_of_mem isOther)
      rcases List.mem_cons.mp among with rfl | later
      · have none := others entry.name fresh
        simp only [fieldsOf, fieldsOfEntries] at none ⊢
        simp [none]
      · have differs : first.name ≠ entry.name := by
          intro same
          exact fresh (same ▸ List.mem_map_of_mem later)
        have rest := inductionHypothesis distinctLater later
        simp only [fieldsOf, fieldsOfEntries] at rest ⊢
        simp [differs, rest]

/-- An object is read by the names of the record that spells it. -/
theorem fields?_entries (layout : Layout (entries.map Entry.name)) :
    fields? (entries.map Entry.name) (.object (named (fieldsOfEntries entries))) =
      some (entries.map fun entry => some entry.value) := by
  have alone := fun (entry : Entry) (among : entry ∈ entries) =>
    fieldsOf_entry layout.distinct among
  rw [fields?_named, List.map_map]
  · congr 1
    refine List.map_congr_left fun entry among => ?_
    simp [lookup?_named, alone entry among]
  · intro name isName
    obtain ⟨entry, among, rfl⟩ := List.mem_map.mp isName
    simp [alone entry among]

/-- What is written is read again, so that different values are written differently. -/
structure Faithful {α : Type} (write : α → String) (read : String → Except Error α) : Prop where
  read_back : ∀ value, read (write value) = .ok value
  distinct : Function.Injective write

theorem faithful_of_read_back {α : Type} {write : α → String} {read : String → Except Error α}
    (read_back : ∀ value, read (write value) = .ok value) : Faithful write read where
  read_back := read_back
  distinct := fun left right same => by
    have both := congrArg read same
    rw [read_back, read_back] at both
    exact Except.ok.inj both

/-- A kind of values that are written as records: each as its entries, whose values are what the
kind is read from. -/
structure Codec {α : Type} (names : List String) (entries : α → List Entry)
    (write : α → String) (read : Value → Option α) : Prop where
  layout : Layout names
  names_eq : ∀ value, (entries value).map Entry.name = names
  spelled : ∀ value, ∀ entry ∈ entries value, entry.Spelled
  written : ∀ value, write value = writeEntries (entries value)
  reads : ∀ value object,
    fields? names object = some ((entries value).map fun entry => some entry.value) →
      read object = some value

namespace Codec

variable {α : Type} {names : List String} {entries : α → List Entry} {write : α → String}
  {read : Value → Option α}

/-- The object that a value is written as. -/
theorem spells (codec : Codec names entries write read) (value : α) :
    Spells (.value (.object (named (fieldsOfEntries (entries value))))) (write value).toList := by
  rw [codec.written]
  refine spells_writeEntries ?_ (codec.spelled value)
  rw [codec.names_eq]
  exact codec.layout

theorem reads_written (codec : Codec names entries write read) (value : α) :
    read (.object (named (fieldsOfEntries (entries value)))) = some value := by
  have layout := codec.layout
  refine codec.reads value _ ?_
  rw [← codec.names_eq value] at layout ⊢
  exact fields?_entries layout

/-- A document is read as what it was written for. -/
theorem faithful (codec : Codec names entries write read) {form : Form}
    (suit : ∀ value, ∀ entry ∈ entries value, Suits (form.field (some entry.name)) entry.value) :
    Faithful write (readDocument form read) := by
  refine faithful_of_read_back fun value => ?_
  have suits : Suits form (.object (named (fieldsOfEntries (entries value)))) := by
    refine .object fun field among => ?_
    simp only [named, fieldsOfEntries, List.map_map, List.mem_map] at among
    obtain ⟨entry, isEntry, rfl⟩ := among
    exact suit value entry isEntry
  have parsed := parse?_of_writes (spells_bare (codec.spells value)) suits
  simp [readDocument, parsed, decode, codec.reads_written value]

end Codec

end Countersign.Json
