import Countersign.Abi
import Countersign.Proofs.Bytes
import Mathlib.Data.List.Induction

/-!
What the reader of an encoding finds: exactly the byte strings that the places of the data point to
and that lie inside the data, each with its length in front of it. Sequences may stand inside
sequences: whatever stands before and behind the encoding of a value, the value is read back from
where it starts, because each distance counts from the start of its own sequence.
-/

namespace Countersign.Abi

theorem places_inPlace (offset : Nat) (words : List Bytes) :
    places offset (words.map .inPlace) = words.flatten := by
  induction words with
  | nil => rfl
  | cons word rest inductionHypothesis =>
      rw [List.map_cons, places, inductionHypothesis, List.flatten_cons]

theorem tails_inPlace (words : List Bytes) :
    (words.map Part.inPlace).flatMap Part.tail = [] := by
  induction words with
  | nil => rfl
  | cons word rest inductionHypothesis =>
      rw [List.map_cons, List.flatMap_cons, inductionHypothesis]
      rfl

/-- A sequence of members of fixed size is their concatenation. -/
theorem sequence_inPlace (words : List Bytes) :
    sequence (words.map .inPlace) = words.flatten := by
  rw [sequence, places_inPlace, tails_inPlace, List.append_nil]

theorem wordPadding_eq (length : Nat) :
    Bytes.wordPadding length = Bytes.zeros (32 * ((length + 31) / 32) - length) := by
  rw [Bytes.wordPadding]
  congr 1
  omega

theorem length_byteString (bytes : Bytes) :
    (byteString bytes).length = 32 + 32 * ((bytes.length + 31) / 32) := by
  simp only [byteString, List.length_append, wordBytes, Bytes.length_ofNatBE, Bytes.wordPadding,
    Bytes.length_zeros]
  omega

/-- No two byte strings are encoded alike. Lengths too large for a word may be written alike, but
then the encodings differ in their own lengths. -/
theorem byteString_injective : Function.Injective byteString := by
  intro left right same
  have lengths := congrArg List.length same
  rw [length_byteString, length_byteString] at lengths
  have width (size : Nat) : (wordBytes size).length = 32 := Bytes.length_ofNatBE 32 size
  rw [byteString, byteString, List.append_assoc, List.append_assoc] at same
  obtain ⟨counts, contents⟩ := List.append_inj same (by rw [width, width])
  have remainders := congrArg Bytes.toNatBE counts
  rw [wordBytes, wordBytes, Bytes.toNatBE_ofNatBE, Bytes.toNatBE_ofNatBE] at remainders
  exact List.append_inj_left contents (by omega)

variable {data before after : Bytes} {offset : Nat}

theorem readSize?_of_split {size : Nat} (fits : size < UInt64.size)
    (split : data = before ++ (wordBytes size ++ after)) (starts : before.length = offset) :
    readSize? data offset = some size := by
  have width : (wordBytes size).length = 32 := Bytes.length_ofNatBE 32 size
  have word : (data.drop offset).take 32 = wordBytes size := by
    rw [split, List.drop_left' starts, List.take_left' width]
  have small : size < 256 ^ 32 := Nat.lt_trans fits (by decide)
  have value : Bytes.toNatBE (wordBytes size) = size := by
    rw [wordBytes, Bytes.toNatBE_ofNatBE, Nat.mod_eq_of_lt small]
  simp [readSize?, word, width, value, fits]

theorem readBytes?_of_split {bytes : Bytes} (fits : bytes.length < UInt64.size)
    (split : data = before ++ (byteString bytes ++ after)) (starts : before.length = offset) :
    readBytes? data offset = some bytes := by
  have whole : data = before ++ (wordBytes bytes.length ++
      (bytes ++ (Bytes.wordPadding bytes.length ++ after))) := by
    simp [split, byteString]
  have content : data.drop (offset + 32) = bytes ++ (Bytes.wordPadding bytes.length ++ after) := by
    have both : (before ++ wordBytes bytes.length).length = offset + 32 := by
      simp [starts, wordBytes]
    rw [whole, ← List.append_assoc, List.drop_left' both]
  have enough : offset + 32 + bytes.length ≤ data.length := by
    simp [whole, starts, wordBytes]
    omega
  rw [readBytes?, readSize?_of_split fits whole starts]
  simp [enough, content]

variable {size place : Nat} {bytes : Bytes}

/-- A size of sixty-four bits stands in the word at a position, which lies inside the data: its high
twenty-four bytes are zero, and the low eight are the size. -/
structure SizeAt (data : Bytes) (position size : Nat) : Prop where
  fits : size < UInt64.size
  inside : position + 32 ≤ data.length
  word : data.extract position (position + 32) = Bytes.zeros 24 ++ Bytes.ofNatBE 8 size

theorem wordBytes_of_fits (fits : size < UInt64.size) :
    wordBytes size = Bytes.zeros 24 ++ Bytes.ofNatBE 8 size :=
  Bytes.ofNatBE_of_fits 8 24 fits

theorem readSize?_eq_some_iff : readSize? data offset = some size ↔ SizeAt data offset size := by
  have slice := Bytes.extract_add data offset 32
  constructor
  · intro found
    obtain ⟨⟨full, fits⟩, same⟩ := Option.ite_none_right_eq_some.mp found
    rw [Option.some.injEq] at same
    have written := Bytes.ofNatBE_toNatBE ((data.drop offset).take 32)
    rw [full, same] at written
    rw [same] at fits
    refine ⟨fits, ?_, ?_⟩
    · rw [List.length_take, List.length_drop] at full
      omega
    · rw [slice, ← wordBytes_of_fits fits, wordBytes, written]
  · rintro ⟨fits, inside, word⟩
    have starts : (data.take offset).length = offset := by
      rw [List.length_take]
      omega
    have split : data = data.take offset ++ (wordBytes size ++ data.drop (offset + 32)) := by
      rw [wordBytes_of_fits fits, ← word, slice, ← List.drop_drop, List.take_append_drop,
        List.take_append_drop]
    exact readSize?_of_split fits split starts

theorem SizeAt.append (found : SizeAt data offset size) (suffix : Bytes) :
    SizeAt (data ++ suffix) offset size := by
  refine ⟨found.fits, ?_, ?_⟩
  · rw [List.length_append]
    exact Nat.le_add_right_of_le found.inside
  · rw [Bytes.extract_append_of_le found.inside, found.word]

/-- A byte string stands at a position: its size in a word, and behind that its bytes, all inside
the data. -/
structure StringAt (data : Bytes) (position : Nat) (bytes : Bytes) : Prop where
  size : SizeAt data position bytes.length
  inside : position + 32 + bytes.length ≤ data.length
  content : data.extract (position + 32) (position + 32 + bytes.length) = bytes

theorem readBytes?_eq_some_iff :
    readBytes? data offset = some bytes ↔ StringAt data offset bytes := by
  constructor
  · intro found
    rw [readBytes?] at found
    rcases sized : readSize? data offset with _ | length
    · rw [sized] at found
      cases found
    · rw [sized] at found
      obtain ⟨inside, same⟩ := Option.ite_none_right_eq_some.mp found
      rw [Option.some.injEq] at same
      have width : bytes.length = length := by
        rw [← same, List.length_take, List.length_drop]
        omega
      subst width
      exact ⟨readSize?_eq_some_iff.mp sized, inside, (Bytes.extract_add ..).trans same⟩
  · rintro ⟨sized, inside, content⟩
    rw [readBytes?, readSize?_eq_some_iff.mpr sized]
    dsimp only
    rw [if_pos inside, ← Bytes.extract_add, content]

theorem StringAt.append (found : StringAt data offset bytes) (suffix : Bytes) :
    StringAt (data ++ suffix) offset bytes := by
  refine ⟨found.size.append suffix, ?_, ?_⟩
  · rw [List.length_append]
    exact Nat.le_add_right_of_le found.inside
  · rw [Bytes.extract_append_of_le found.inside, found.content]

/-- The place with a given number points to a byte string: in it stands the distance to where the
byte string stands. -/
def PointsTo (data : Bytes) (place : Nat) (bytes : Bytes) : Prop :=
  ∃ offset, SizeAt data (32 * place) offset ∧ StringAt data offset bytes

theorem readBytesMember?_eq_some_iff :
    readBytesMember? data place = some bytes ↔ PointsTo data place bytes := by
  rw [PointsTo, readBytesMember?]
  rcases placed : readSize? data (32 * place) with _ | offset
  · have unplaced (offset : Nat) : ¬ SizeAt data (32 * place) offset := by
      rw [← readSize?_eq_some_iff, placed]
      simp
    simp [unplaced]
  · have unique (other : Nat) : SizeAt data (32 * place) other ↔ offset = other := by
      rw [← readSize?_eq_some_iff, placed, Option.some.injEq]
    simp [unique, readBytes?_eq_some_iff]

theorem PointsTo.append (found : PointsTo data place bytes) (suffix : Bytes) :
    PointsTo (data ++ suffix) place bytes := by
  obtain ⟨offset, placed, standing⟩ := found
  exact ⟨offset, placed.append suffix, standing.append suffix⟩

/-- The room that all tails take. -/
def tailsLength (parts : List Part) : Nat :=
  (parts.flatMap Part.tail).length

@[simp]
theorem tailsLength_nil : tailsLength [] = 0 :=
  rfl

@[simp]
theorem tailsLength_cons (part : Part) (rest : List Part) :
    tailsLength (part :: rest) = part.tail.length + tailsLength rest := by
  rw [tailsLength, List.flatMap_cons, List.length_append, tailsLength]

theorem length_places (offset : Nat) (parts : List Part) :
    (places offset parts).length = placesLength parts := by
  induction parts generalizing offset with
  | nil => rfl
  | cons part rest inductionHypothesis =>
      cases part with
      | inPlace bytes =>
          rw [places, List.length_append, inductionHypothesis]
          rfl
      | behind bytes =>
          rw [places, List.length_append, inductionHypothesis, wordBytes, Bytes.length_ofNatBE]
          rfl

theorem length_sequence (parts : List Part) :
    (sequence parts).length = placesLength parts + tailsLength parts := by
  rw [sequence, List.length_append, length_places, tailsLength]

theorem places_append (offset : Nat) (left right : List Part) :
    places offset (left ++ right) =
      places offset left ++ places (offset + tailsLength left) right := by
  induction left generalizing offset with
  | nil => rfl
  | cons part rest inductionHypothesis =>
      cases part with
      | inPlace bytes =>
          rw [List.cons_append, places, places, inductionHypothesis, List.append_assoc,
            tailsLength_cons, Part.tail, List.length_nil, Nat.zero_add]
      | behind bytes =>
          rw [List.cons_append, places, places, inductionHypothesis, List.append_assoc,
            tailsLength_cons, Part.tail, Nat.add_assoc]

/-- Every part takes a word among the places. -/
def Uniform (parts : List Part) : Prop :=
  ∀ part ∈ parts, part.placeLength = 32

theorem placesLength_uniform {parts : List Part} (uniform : Uniform parts) :
    placesLength parts = 32 * parts.length := by
  induction parts with
  | nil => rfl
  | cons part rest inductionHypothesis =>
      obtain ⟨here, later⟩ := List.forall_mem_cons.mp uniform
      rw [placesLength, here, inductionHypothesis later, List.length_cons, Nat.mul_succ,
        Nat.add_comm]

theorem placeLength_member (kind : Kind) (value : kind.Value) :
    (member kind value).placeLength = 32 := by
  cases kind with
  | word => exact Bytes.length_ofNatBE 32 _
  | bytes => rfl
  | array element => rfl

/-- An address takes the place of a word. -/
theorem addressMember_eq (address : Address) :
    addressMember address = member .word (BitVec.ofNat 256 address.toNat) := by
  have below := Bytes.toNatBE_lt address.bytes
  rw [address.length_bytes] at below
  have small : address.toNat < 2 ^ 256 := Nat.lt_trans below (by decide)
  have written : Bytes.zeros 12 ++ address.bytes = wordBytes address.toNat := by
    have digits := Bytes.ofNatBE_toNatBE address.bytes
    rw [address.length_bytes] at digits
    rw [wordBytes, Octets.toNat, Bytes.ofNatBE_of_fits 20 12 below, digits]
  change Part.inPlace _ = .inPlace (wordBytes (BitVec.ofNat 256 address.toNat).toNat)
  rw [written, BitVec.toNat_ofNat, Nat.mod_eq_of_lt small]

theorem encode_array (element : Kind) (values : List element.Value) :
    encode (.array element) values =
      wordBytes values.length ++ sequence (values.map (member element)) :=
  rfl

theorem uniform_members (element : Kind) (values : List element.Value) :
    Uniform (values.map (member element)) := by
  intro part among
  obtain ⟨value, _, rfl⟩ := List.mem_map.mp among
  exact placeLength_member element value

theorem readWord?_of_split {word : Word}
    (split : data = before ++ (wordBytes word.toNat ++ after)) (starts : before.length = offset) :
    readWord? data offset = some word := by
  have width : (wordBytes word.toNat).length = 32 := Bytes.length_ofNatBE 32 _
  have found : (data.drop offset).take 32 = wordBytes word.toNat := by
    rw [split, List.drop_left' starts, List.take_left' width]
  have small : word.toNat < 256 ^ 32 := word.isLt
  have value : Bytes.toNatBE (wordBytes word.toNat) = word.toNat := by
    rw [wordBytes, Bytes.toNatBE_ofNatBE, Nat.mod_eq_of_lt small]
  simp only [readWord?, found, width, value, if_true, BitVec.ofNat_toNat, BitVec.setWidth_eq]

/-- A member of a sequence is read if its encoding is read wherever it stands. -/
theorem readMember?_of_split {kind : Kind} {value : kind.Value} (read : Nat → Option kind.Value)
    {left right parts : List Part} {start : Nat}
    (among : parts = left ++ member kind value :: right)
    (uniform : Uniform parts) (fits : (sequence parts).length < UInt64.size)
    (split : data = before ++ (sequence parts ++ after)) (starts : before.length = start)
    (reads : ∀ {before after : Bytes}, data = before ++ (encode kind value ++ after) →
      read before.length = some value) :
    readMember? kind read data start left.length = some value := by
  have leftUniform : Uniform left := by
    intro part inLeft
    exact uniform part (among ▸ List.mem_append_left _ inLeft)
  have width (first : Nat) : (places first left).length = 32 * left.length := by
    rw [length_places, placesLength_uniform leftUniform]
  have placed : places (placesLength parts) parts = places (placesLength parts) left ++
      places (placesLength parts + tailsLength left) (member kind value :: right) := by
    rw [← places_append, ← among]
  have tails : parts.flatMap Part.tail =
      left.flatMap Part.tail ++ ((member kind value).tail ++ right.flatMap Part.tail) := by
    rw [among, List.flatMap_append, List.flatMap_cons]
  rw [readMember?]
  by_cases fixed : kind.isFixed
  · have inPlace : member kind value = .inPlace (encode kind value) := if_pos fixed
    have found : data = (before ++ places (placesLength parts) left) ++ (encode kind value ++
        (places (placesLength parts + tailsLength left) right ++
          (parts.flatMap Part.tail ++ after))) := by
      rw [split, sequence, placed, inPlace, places]
      simp only [List.append_assoc]
    rw [if_pos fixed, ← starts, ← width, ← List.length_append]
    exact reads found
  · have behind : member kind value = .behind (encode kind value) := if_neg fixed
    have atPlace : data = (before ++ places (placesLength parts) left) ++
        (wordBytes (placesLength parts + tailsLength left) ++
          (places (placesLength parts + tailsLength left + (encode kind value).length) right ++
            (parts.flatMap Part.tail ++ after))) := by
      rw [split, sequence, placed, behind, places]
      simp only [List.append_assoc]
    have atDistance : data =
        (before ++ (places (placesLength parts) parts ++ left.flatMap Part.tail)) ++
          (encode kind value ++ (right.flatMap Part.tail ++ after)) := by
      rw [split, sequence, tails, behind]
      simp only [Part.tail, List.append_assoc]
    have near : placesLength parts + tailsLength left < UInt64.size := by
      have sum := congrArg List.length tails
      rw [List.length_append] at sum
      rw [length_sequence, tailsLength] at fits
      rw [tailsLength]
      omega
    have distance : readSize? data (start + 32 * left.length) =
        some (placesLength parts + tailsLength left) :=
      readSize?_of_split near atPlace (by rw [List.length_append, width, starts])
    have stands : (before ++ (places (placesLength parts) parts ++ left.flatMap Part.tail)).length =
        start + (placesLength parts + tailsLength left) := by
      rw [List.length_append, List.length_append, length_places, starts, tailsLength]
    rw [if_neg fixed, distance]
    dsimp only
    rw [← stands]
    exact reads atDistance

/-! ## Values -/

/-- The results for all places of a list are the list. -/
theorem mapM_range {α : Type} {read : Nat → Option α} {values : List α}
    (each : ∀ left value right, values = left ++ value :: right → read left.length = some value) :
    (List.range values.length).mapM read = some values := by
  induction values using List.reverseRecOn with
  | nil => rfl
  | append_singleton initial last inductionHypothesis =>
      have earlier : (List.range initial.length).mapM read = some initial := by
        refine inductionHypothesis ?_
        rintro left value right rfl
        exact each left value (right ++ [last]) (by simp)
      rw [List.length_append, List.length_singleton, List.range_succ, List.mapM_append, earlier]
      simp [each initial last [] rfl]

/-- A sequence has room for each of its parts. -/
theorem length_part_le {part : Part} {parts : List Part} (among : part ∈ parts) :
    part.placeLength + part.tail.length ≤ (sequence parts).length := by
  rw [length_sequence]
  induction parts with
  | nil => cases among
  | cons head rest inductionHypothesis =>
      rw [placesLength, tailsLength_cons]
      rcases List.mem_cons.mp among with rfl | later
      · omega
      · have room := inductionHypothesis later
        omega

theorem length_encode_le {kind : Kind} {value : kind.Value} {parts : List Part}
    (among : member kind value ∈ parts) : (encode kind value).length ≤ (sequence parts).length := by
  have room := length_part_le among
  by_cases fixed : kind.isFixed
  · have inPlace : member kind value = .inPlace (encode kind value) := if_pos fixed
    rw [inPlace] at room
    exact Nat.le_trans (Nat.le_add_right _ _) room
  · have behind : member kind value = .behind (encode kind value) := if_neg fixed
    rw [behind] at room
    exact Nat.le_trans (Nat.le_add_left _ _) room

/-- The value is read from where its encoding starts, by induction on how deep its arrays are
nested. -/
theorem read?_of_split {kind : Kind} {value : kind.Value}
    (fits : (encode kind value).length < UInt64.size)
    (split : data = before ++ (encode kind value ++ after)) (starts : before.length = offset) :
    read? data kind offset = some value := by
  induction kind generalizing before after offset with
  | word => exact readWord?_of_split split starts
  | bytes =>
      refine readBytes?_of_split ?_ split starts
      have length : (encode .bytes value).length = _ := length_byteString value
      omega
  | array element inductionHypothesis =>
      rw [encode_array] at split fits
      have uniform := uniform_members element value
      have width : (wordBytes (List.length (α := element.Value) value)).length = 32 :=
        Bytes.length_ofNatBE 32 _
      have length := length_sequence (List.map (member element) value)
      rw [placesLength_uniform uniform, List.length_map] at length
      rw [List.length_append, width] at fits
      rw [List.append_assoc] at split
      have counted : readSize? data offset = some (List.length (α := element.Value) value) :=
        readSize?_of_split (by omega) split starts
      have inside : offset + 32 + 32 * List.length (α := element.Value) value ≤ data.length := by
        rw [split, List.length_append, List.length_append, List.length_append, width, starts]
        omega
      rw [← List.append_assoc] at split
      rw [read?, counted]
      dsimp only
      rw [if_pos inside]
      refine mapM_range ?_
      rintro left one right rfl
      have among : List.map (member element) (left ++ one :: right) =
          left.map (member element) ++ member element one :: right.map (member element) := by
        rw [List.map_append, List.map_cons]
      have member : member element one ∈ List.map (member element) (left ++ one :: right) :=
        List.mem_map_of_mem (List.mem_append_right _ List.mem_cons_self)
      have room := length_encode_le member
      have read := readMember?_of_split (read? data element) among uniform (by omega) split
        (by rw [List.length_append, width, starts])
        fun found => inductionHypothesis (by omega) found rfl
      rwa [List.length_map] at read

/-- A member of a sequence is read from its place, wherever the sequence starts. -/
theorem readMember?_of_members {kind : Kind} {value : kind.Value} {left right parts : List Part}
    (among : parts = left ++ member kind value :: right) (uniform : Uniform parts)
    (fits : (sequence parts).length < UInt64.size)
    (split : data = before ++ (sequence parts ++ after)) :
    readMember? kind (read? data kind) data before.length left.length = some value := by
  have one : member kind value ∈ parts := by
    rw [among]
    exact List.mem_append_right _ List.mem_cons_self
  refine readMember?_of_split _ among uniform fits split rfl ?_
  intro before after found
  exact read?_of_split (Nat.lt_of_le_of_lt (length_encode_le one) fits) found rfl

theorem dvd_length_sequence {parts : List Part} (uniform : Uniform parts)
    (tails : ∀ part ∈ parts, 32 ∣ part.tail.length) : 32 ∣ (sequence parts).length := by
  have whole : 32 ∣ tailsLength parts := by
    induction parts with
    | nil => exact Nat.dvd_zero 32
    | cons part rest inductionHypothesis =>
        obtain ⟨_, uniformRest⟩ := List.forall_mem_cons.mp uniform
        obtain ⟨here, later⟩ := List.forall_mem_cons.mp tails
        rw [tailsLength_cons]
        exact Nat.dvd_add here (inductionHypothesis uniformRest later)
  rw [length_sequence, placesLength_uniform uniform]
  exact Nat.dvd_add (Nat.dvd_mul_right 32 _) whole

theorem dvd_length_tail_member {kind : Kind} {value : kind.Value}
    (whole : 32 ∣ (encode kind value).length) : 32 ∣ (member kind value).tail.length := by
  by_cases fixed : kind.isFixed
  · rw [show member kind value = .inPlace (encode kind value) from if_pos fixed]
    exact Nat.dvd_zero 32
  · rwa [show member kind value = .behind (encode kind value) from if_neg fixed]

/-- A value takes whole words. -/
theorem dvd_length_encode (kind : Kind) (value : kind.Value) :
    32 ∣ (encode kind value).length := by
  induction kind with
  | word =>
      simp only [encode, wordBytes, Bytes.length_ofNatBE, Nat.dvd_refl]
  | bytes =>
      rw [encode, length_byteString]
      exact Nat.dvd_add (Nat.dvd_refl 32) (Nat.dvd_mul_right 32 _)
  | array element inductionHypothesis =>
      have tails : ∀ part ∈ List.map (member element) value, 32 ∣ part.tail.length := by
        intro part among
        obtain ⟨one, _, rfl⟩ := List.mem_map.mp among
        exact dvd_length_tail_member (inductionHypothesis one)
      rw [encode_array, List.length_append, wordBytes, Bytes.length_ofNatBE]
      exact Nat.dvd_add (Nat.dvd_refl 32)
        (dvd_length_sequence (uniform_members element value) tails)

theorem length_encode_words (words : List Word) :
    (encode (.array .word) words).length = 32 + 32 * words.length := by
  have tails : tailsLength (words.map (member .word)) = 0 := by
    induction words with
    | nil => rfl
    | cons word rest inductionHypothesis =>
        rw [List.map_cons, tailsLength_cons, inductionHypothesis]
        rfl
  rw [encode_array, List.length_append, length_sequence, tails,
    placesLength_uniform (uniform_members .word words), List.length_map, wordBytes,
    Bytes.length_ofNatBE, Nat.add_zero]

/-- An array of arrays that are all of one length when encoded. -/
theorem length_encode_arrays {element : Kind} {values : List (List element.Value)} {length : Nat}
    (lengths : ∀ value ∈ values, (encode (.array element) value).length = length) :
    (encode (.array (.array element)) values).length = 32 + values.length * (32 + length) := by
  have tails : tailsLength (values.map (member (.array element))) = values.length * length := by
    induction values with
    | nil => simp
    | cons value rest inductionHypothesis =>
        obtain ⟨here, later⟩ := List.forall_mem_cons.mp lengths
        have first : (member (.array element) value).tail.length = length := here
        rw [List.map_cons, tailsLength_cons, inductionHypothesis later, first, List.length_cons,
          Nat.succ_mul, Nat.add_comm]
  rw [encode_array, List.length_append, length_sequence, tails,
    placesLength_uniform (uniform_members (.array element) values), List.length_map, wordBytes,
    Bytes.length_ofNatBE, Nat.mul_add, Nat.mul_comm 32]

end Countersign.Abi
