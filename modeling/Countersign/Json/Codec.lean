import Countersign.Error
import Countersign.Json.Document

/-!
Records, numbers and byte strings in JSON documents: how they are written and what is accepted for
them.
-/

namespace Countersign.Json

/-- A text of characters that need no escape. -/
def writeText (text : String) : String :=
  "\"" ++ text ++ "\""

def writeBytes (bytes : Bytes) : String :=
  writeText (Hex.encode bytes)

def writeWord (word : Word) : String :=
  writeText (Hex.quantity word.toNat)

def writeNat (value : Nat) : String :=
  toString value

def writeBool (value : Bool) : String :=
  if value then "true" else "false"

/-- A record without blanks, its fields in the order given. -/
def writeRecord (fields : List (String × String)) : String :=
  "\x7b" ++ String.intercalate "," (fields.map fun field => writeText field.1 ++ ":" ++ field.2) ++
    "\x7d"

/-- The value of a named field. -/
def lookup? (name : String) (fields : List (Option String × Value)) : Option Value :=
  (fields.find? fun field => field.1 = some name).map Prod.snd

/-- The record has every key readable and no known one twice. -/
def isUnambiguous (names : List String) (fields : List (Option String × Value)) : Bool :=
  fields.all (fun field => field.1.isSome) &&
    names.all fun name => (fields.filter fun field => field.1 = some name).length ≤ 1

/-- The values given for the fields of a record. An object gives them by name and may hold other
fields; an array gives them in order and may be shorter, but not longer. -/
def fields? (names : List String) : Value → Option (List (Option Value))
  | .object fields =>
      if isUnambiguous names fields then some (names.map fun name => lookup? name fields) else none
  | .array members =>
      if members.length ≤ names.length then
        some (members.map some ++ List.replicate (names.length - members.length) none)
      else
        none
  | _ => none

/-- Reads a field that must be given. -/
def required {α : Type} (read : Value → Option α) : Option Value → Option α
  | some value => read value
  | none => none

/-- Reads a field that may be left out. -/
def optional {α : Type} (absent : α) (read : Value → Option α) : Option Value → Option α
  | some value => read value
  | none => some absent

def bool? : Value → Option Bool
  | .bool value => some value
  | _ => none

/-- A plain number below a bound. -/
def natBelow? (bound : Nat) : Value → Option Nat
  | .natural value => if value < bound then some value else none
  | _ => none

def uint64? (value : Value) : Option UInt64 :=
  (natBelow? UInt64.size value).map UInt64.ofNat

def uint128? (value : Value) : Option (BitVec 128) :=
  (natBelow? (1 <<< 128) value).map (BitVec.ofNat 128)

def text? : Value → Option String
  | .text content => content
  | _ => none

def octet? (value : Value) : Option UInt8 :=
  (natBelow? 256 value).map UInt8.ofNat

/-- A byte string: hexadecimal text, or an array of numbers below 256. -/
def bytes? : Value → Option Bytes
  | .text (some content) => (Hex.decode content).toOption
  | .array members => members.mapM octet?
  | _ => none

/-- The members of an array that has to hold `n` octets: a single one after these does not count
unless it is an octet as well. -/
def octetMembers (n : Nat) (members : List Value) : List Value :=
  match members.drop n with
  | [extra] => if (octet? extra).isSome then members else members.take n
  | _ => members

/-- A byte string of a known length. -/
def octets? (n : Nat) (value : Value) : Option (Octets n) :=
  let counted :=
    match value with
    | .array members => .array (octetMembers n members)
    | other => other
  match bytes? counted with
  | some bytes => Octets.ofBytes? n bytes
  | none => none

/-- The value of a digit in a base of at most sixteen. -/
def digitBelow? (base : Nat) (character : Char) : Option Nat :=
  match hexDigit? character with
  | some value => if value < base then some value else none
  | none => none

/-- The number that digits denote after a number already read. Underscores among them do not
count. -/
def numberFrom? (base before : Nat) : List Char → Option Nat
  | [] => some before
  | character :: rest =>
      if character = '_' then
        numberFrom? base before rest
      else
        match digitBelow? base character with
        | some value => numberFrom? base (base * before + value) rest
        | none => none

/-- The number that a text denotes: in base sixteen, eight or two after the mark of that base, in
base ten without a mark. No digits denote zero. -/
def number? (text : List Char) : Option Nat :=
  match text with
  | '0' :: 'x' :: digits => numberFrom? 16 0 digits
  | '0' :: 'X' :: digits => numberFrom? 16 0 digits
  | '0' :: 'o' :: digits => numberFrom? 8 0 digits
  | '0' :: 'O' :: digits => numberFrom? 8 0 digits
  | '0' :: 'b' :: digits => numberFrom? 2 0 digits
  | '0' :: 'B' :: digits => numberFrom? 2 0 digits
  | digits => numberFrom? 10 0 digits

/-- A word: a plain number below `2 ^ 64`, or a text that denotes a number below `2 ^ 256`. -/
def word? : Value → Option Word
  | .natural value => if value < UInt64.size then some (BitVec.ofNat 256 value) else none
  | .text (some content) =>
      match number? content.toList with
      | some value => if value < 1 <<< 256 then some (BitVec.ofNat 256 value) else none
      | none => none
  | _ => none

/-- What a value stands for, which has to be something. -/
def decode {α : Type} (read : Value → Option α) (value : Value) : Except Error α :=
  match read value with
  | some result => .ok result
  | none => .error (.json .malformed)

/-- Reads a document whose value has to be of a certain form. -/
def readDocument {α : Type} (form : Form) (read : Value → Option α) (document : String) :
    Except Error α :=
  match parse? form document with
  | some value => decode read value
  | none => .error (.json .malformed)

end Countersign.Json
