/-!
Characters and texts: the blank characters, cutting a text at them and at separators, runs of
decimal digits, and single bytes shown between quotes.
-/

namespace Countersign.Text

/-- The characters with the property `White_Space`. -/
def isBlank (character : Char) : Bool :=
  let code := character.toNat
  (9 ≤ code && code ≤ 13) || code = 0x20 || code = 0x85 || code = 0xA0 || code = 0x1680 ||
    (0x2000 ≤ code && code ≤ 0x200A) || code = 0x2028 || code = 0x2029 || code = 0x202F ||
    code = 0x205F || code = 0x3000

/-- Takes the blanks off both ends. -/
def trim (text : List Char) : List Char :=
  ((text.dropWhile isBlank).reverse.dropWhile isBlank).reverse

/-- The parts of a text between its separators; one more than there are separators. -/
def splitOn (separator : Char) : List Char → List (List Char)
  | [] => [[]]
  | character :: rest =>
      if character = separator then
        [] :: splitOn separator rest
      else
        match splitOn separator rest with
        | [] => [[character]]
        | part :: parts => (character :: part) :: parts

/-- The value of an ASCII digit. -/
def decimalDigit? (character : Char) : Option Nat :=
  let code := character.toNat
  if 48 ≤ code ∧ code ≤ 57 then some (code - 48) else none

/-- The number that a run of ASCII digits denotes after a number already read. -/
def decimalFrom (before : Nat) : List Char → Option Nat
  | [] => some before
  | character :: rest =>
      match decimalDigit? character with
      | some value => decimalFrom (10 * before + value) rest
      | none => none

/-- The number that a non-empty run of ASCII digits denotes. -/
def decimal? : List Char → Option Nat
  | [] => none
  | digits => decimalFrom 0 digits

private def escaped (body : String) : String :=
  "\\" ++ body

/-- The byte is a blank or an unprintable character when it is taken as a code point. -/
def isUnprintable (byte : UInt8) : Bool :=
  byte < 0x20 || (0x7F ≤ byte && byte ≤ 0xA0) || byte = 0xAD

/-- The byte, taken as a code point, between single quotes; a character that would not show as
itself is escaped. -/
def quotedByte (byte : UInt8) : String :=
  let body :=
    if byte = 0x00 then escaped "0"
    else if byte = 0x09 then escaped "t"
    else if byte = 0x0A then escaped "n"
    else if byte = 0x0D then escaped "r"
    else if byte = 0x27 then escaped "'"
    else if byte = 0x5C then escaped "\\"
    else if isUnprintable byte then
      escaped "u\x7b" ++ String.ofList (Nat.toDigits 16 byte.toNat) ++ "\x7d"
    else String.ofList [Char.ofNat byte.toNat]
  "'" ++ body ++ "'"

end Countersign.Text
