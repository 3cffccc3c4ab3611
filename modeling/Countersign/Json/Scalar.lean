/-!
Values of JSON documents, as far as anything here depends on them, and their simplest parts: blanks,
words, numbers and texts. The rules are the strict ones of the format, except that an escape in a
text may name half a surrogate pair.
-/

namespace Countersign.Json

/-- A value. Of the numbers only the plain ones are kept, those without sign, fraction and
exponent. A text whose escapes name half a surrogate pair has no content. -/
inductive Value
  | null
  | bool (value : Bool)
  | natural (value : Nat)
  | otherNumber
  | text (content : Option String)
  | array (members : List Value)
  | object (fields : List (Option String × Value))

/-- What a value is wanted for. It matters only where an array has to hold a fixed number of
octets, and in records that have such fields. -/
inductive Form
  | any
  | octets (count : Nat)
  | record (fields : List (String × Form))

namespace Form

/-- The form of the value that has a key. -/
def field : Form → Option String → Form
  | .record fields, some name => (fields.lookup name).getD .any
  | _, _ => .any

/-- The forms of the members of an array, as far as they are known. -/
def members : Form → List Form
  | .record fields => fields.map Prod.snd
  | _ => []

end Form

def isBlank (character : Char) : Bool :=
  character = ' ' || character = '\t' || character = '\n' || character = '\r'

def skipBlanks (text : List Char) : List Char :=
  text.dropWhile isBlank

/-- What follows a word that the text has to start with. -/
def dropWord? : List Char → List Char → Option (List Char)
  | [], text => some text
  | _ :: _, [] => none
  | expected :: word, character :: text =>
      if character = expected then dropWord? word text else none

def isDigit (character : Char) : Bool :=
  '0' ≤ character && character ≤ '9'

/-- The value of a run of digits. -/
def digitsValue (digits : List Char) : Nat :=
  digits.foldl (fun value digit => 10 * value + (digit.toNat - 48)) 0

/-- A run of digits that may not be empty, left out. -/
def skipDigits? (text : List Char) : Option (List Char) :=
  if (text.takeWhile isDigit).isEmpty then none else some (text.dropWhile isDigit)

/-- The text after a fraction, and whether there is one. -/
def skipFraction? : List Char → Option (Bool × List Char)
  | '.' :: rest => (skipDigits? rest).map (true, ·)
  | text => some (false, text)

def skipSign : List Char → List Char
  | '+' :: rest => rest
  | '-' :: rest => rest
  | text => text

/-- The text after an exponent, and whether there is one. -/
def skipExponent? : List Char → Option (Bool × List Char)
  | 'e' :: rest => (skipDigits? (skipSign rest)).map (true, ·)
  | 'E' :: rest => (skipDigits? (skipSign rest)).map (true, ·)
  | text => some (false, text)

/-- Reads a number without its sign. No digit may follow a leading zero. -/
def readNumber? (negative : Bool) (text : List Char) : Option (Value × List Char) :=
  let whole := text.takeWhile isDigit
  let afterWhole := text.dropWhile isDigit
  if whole.isEmpty || (whole.head? = some '0' && 1 < whole.length) then
    none
  else
    match skipFraction? afterWhole with
    | none => none
    | some (hasFraction, afterFraction) =>
        match skipExponent? afterFraction with
        | none => none
        | some (hasExponent, rest) =>
            if negative || hasFraction || hasExponent then some (.otherNumber, rest)
            else some (.natural (digitsValue whole), rest)

/-- The value of a hexadecimal digit. -/
def hexDigit? (character : Char) : Option Nat :=
  let code := character.toNat
  if 48 ≤ code ∧ code ≤ 57 then some (code - 48)
  else if 97 ≤ code ∧ code ≤ 102 then some (code - 87)
  else if 65 ≤ code ∧ code ≤ 70 then some (code - 55)
  else none

/-- The number that four hexadecimal digits denote. -/
def unit? (a b c d : Char) : Option Nat := do
  return 4096 * (← hexDigit? a) + 256 * (← hexDigit? b) + 16 * (← hexDigit? c) + (← hexDigit? d)

/-- The character that a short escape names. -/
def shortEscape? (character : Char) : Option Nat :=
  if character = '"' || character = '\\' || character = '/' then some character.toNat
  else if character = 'b' then some 8
  else if character = 'f' then some 12
  else if character = 'n' then some 10
  else if character = 'r' then some 13
  else if character = 't' then some 9
  else none

/-- Reads up to the closing quote. A character counts by its code point, an escape by the number
it names. -/
def readUnits? : List Char → Option (List Nat × List Char)
  | [] => none
  | '"' :: rest => some ([], rest)
  | '\\' :: 'u' :: a :: b :: c :: d :: rest =>
      match unit? a b c d, readUnits? rest with
      | some unit, some (units, rest) => some (unit :: units, rest)
      | _, _ => none
  | '\\' :: escape :: rest =>
      match shortEscape? escape, readUnits? rest with
      | some unit, some (units, rest) => some (unit :: units, rest)
      | _, _ => none
  | character :: rest =>
      if character = '\\' || character.toNat < 32 then
        none
      else
        match readUnits? rest with
        | some (units, rest) => some (character.toNat :: units, rest)
        | none => none

/-- Whether a unit is the first of a surrogate pair. -/
def isLeading (unit : Nat) : Bool :=
  0xD800 ≤ unit && unit ≤ 0xDBFF

/-- Whether a unit is the second of a surrogate pair. -/
def isTrailing (unit : Nat) : Bool :=
  0xDC00 ≤ unit && unit ≤ 0xDFFF

/-- The characters of a text, if its surrogates come in pairs. -/
def joinSurrogates? : List Nat → Option (List Char)
  | [] => some []
  | [unit] => if isLeading unit || isTrailing unit then none else some [Char.ofNat unit]
  | unit :: next :: rest =>
      if isLeading unit then
        if isTrailing next then
          (joinSurrogates? rest).map
            (Char.ofNat (0x10000 + (unit - 0xD800) * 0x400 + (next - 0xDC00)) :: ·)
        else
          none
      else if isTrailing unit then
        none
      else
        (joinSurrogates? (next :: rest)).map (Char.ofNat unit :: ·)

/-- Reads a text after its opening quote. -/
def readText? (text : List Char) : Option (Option String × List Char) :=
  match readUnits? text with
  | some (units, rest) => some ((joinSurrogates? units).map String.ofList, rest)
  | none => none

end Countersign.Json
