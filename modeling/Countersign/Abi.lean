import Countersign.Bytes

/-!
The contract interface's encoding of values. A value of fixed size stands in its place; one whose
size varies stands behind all places of its sequence, and its place holds the distance from the
start of the sequence to it.
-/

namespace Countersign.Abi

/-- The kinds of values that are exchanged. -/
inductive Kind
  | word
  | bytes
  | array (element : Kind)
deriving DecidableEq

/-- The values of a kind. -/
abbrev Kind.Value : Kind → Type
  | .word => Word
  | .bytes => Bytes
  | .array element => List element.Value

/-- Values of the kind all have one size. -/
def Kind.isFixed : Kind → Bool
  | .word => true
  | .bytes => false
  | .array _ => false

/-- A word in thirty-two bytes, most significant first. -/
def wordBytes (value : Nat) : Bytes :=
  Bytes.ofNatBE 32 value

/-- A member of a sequence: what stands in its place, or what stands behind. -/
inductive Part
  | inPlace (bytes : Bytes)
  | behind (bytes : Bytes)

namespace Part

/-- The room that the member takes among the places. -/
def placeLength : Part → Nat
  | inPlace bytes => bytes.length
  | behind _ => 32

def tail : Part → Bytes
  | inPlace _ => []
  | behind bytes => bytes

end Part

/-- The room that all places take. -/
def placesLength : List Part → Nat
  | [] => 0
  | part :: rest => part.placeLength + placesLength rest

/-- The places of a sequence whose next tail starts at `offset`. -/
def places (offset : Nat) : List Part → Bytes
  | [] => []
  | .inPlace bytes :: rest => bytes ++ places offset rest
  | .behind bytes :: rest => wordBytes offset ++ places (offset + bytes.length) rest

/-- A sequence: all places, then all tails. -/
def sequence (parts : List Part) : Bytes :=
  places (placesLength parts) parts ++ parts.flatMap Part.tail

/-- A byte string: its length in a word, and the bytes completed to whole words. -/
def byteString (bytes : Bytes) : Bytes :=
  wordBytes bytes.length ++ bytes ++ Bytes.wordPadding bytes.length

/-- The encoding of a value alone: a byte string with its length, an array with its length and
the sequence of its members. -/
def encode : (kind : Kind) → kind.Value → Bytes
  | .word, value => wordBytes (value : Word).toNat
  | .bytes, value => byteString value
  | .array element, values =>
      let part (value : element.Value) : Part :=
        if element.isFixed then .inPlace (encode element value) else .behind (encode element value)
      wordBytes (List.length (α := element.Value) values) ++ sequence (List.map part values)

/-- A value as a member of a sequence. -/
def member (kind : Kind) (value : kind.Value) : Part :=
  if kind.isFixed then .inPlace (encode kind value) else .behind (encode kind value)

/-- An address as a member of a sequence, in the low bytes of a word. -/
def addressMember (address : Address) : Part :=
  .inPlace (Bytes.zeros 12 ++ address.bytes)

/-- A word that is used as a length or a distance: the high twenty-four of its bytes at `offset`
are zero. -/
def readSize? (data : Bytes) (offset : Nat) : Option Nat :=
  let word := (data.drop offset).take 32
  let size := Bytes.toNatBE word
  if word.length = 32 ∧ size < UInt64.size then some size else none

/-- The byte string at `offset`: its length, and that many bytes, all inside the data. -/
def readBytes? (data : Bytes) (offset : Nat) : Option Bytes :=
  match readSize? data offset with
  | none => none
  | some length =>
      if offset + 32 + length ≤ data.length then some ((data.drop (offset + 32)).take length)
      else none

/-- The byte string that the place with a given number points to. -/
def readBytesMember? (data : Bytes) (place : Nat) : Option Bytes :=
  match readSize? data (32 * place) with
  | some offset => readBytes? data offset
  | none => none

/-- The word at `offset`. -/
def readWord? (data : Bytes) (offset : Nat) : Option Word :=
  let word := (data.drop offset).take 32
  if word.length = 32 then some (BitVec.ofNat 256 (Bytes.toNatBE word)) else none

/-- The member of the sequence that starts at `start` whose place has a given number. It stands in
its place, or at the distance from the start that its place holds. -/
def readMember? {α : Type} (kind : Kind) (read : Nat → Option α) (data : Bytes)
    (start place : Nat) : Option α :=
  if kind.isFixed then
    read (start + 32 * place)
  else
    match readSize? data (start + 32 * place) with
    | some distance => read (start + distance)
    | none => none

/-- The value of a kind whose encoding starts at `offset`. The places of an array have to lie
inside the data, and its sequence starts behind its length. -/
def read? (data : Bytes) : (kind : Kind) → Nat → Option kind.Value
  | .word, offset => readWord? data offset
  | .bytes, offset => readBytes? data offset
  | .array element, offset =>
      match readSize? data offset with
      | none => none
      | some count =>
          if offset + 32 + 32 * count ≤ data.length then
            (List.range count).mapM (readMember? element (read? data element) data (offset + 32))
          else
            none

end Countersign.Abi
