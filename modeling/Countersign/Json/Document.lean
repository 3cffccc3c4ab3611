import Countersign.Bytes
import Countersign.Json.Scalar

/-!
The reading of a whole document. Nothing but blanks may follow its value, and no rule is relaxed for
values that nobody looks at; only an array of a fixed number of octets may end in a fault. After its
octets a further member is looked for once. If it is an octet as well, the array is too long. If it
is not, it does not count, however wrong it may be: what was read of it until it turned out to be no
octet is passed over, and there the array has to end.
-/

namespace Countersign.Json

/-- The text after a number of bytes of its encoding, which may not end inside a character. -/
def dropWidth? : Nat → List Char → Option (List Char)
  | 0, text => some text
  | _ + 1, [] => some []
  | width + 1, character :: text =>
      if character.utf8Size ≤ width + 1 then
        dropWidth? (width + 1 - character.utf8Size) text
      else
        none

/-- Passes over a word, as far as the first byte that does not belong to it and over that too. Like
the functions below it returns the text from where reading stops, and none where no bracket can
follow: inside a character or before a digit. -/
def passWord? : List Char → List Char → Option (List Char)
  | [], text => some text
  | _ :: _, [] => some []
  | expected :: word, character :: text =>
      if character = expected then passWord? word text else dropWidth? 1 (character :: text)

/-- Passes over an exponent, which may be missing. The byte after its mark and sign goes with them,
digit or not. Digits that make the number too large are read only until they denote `2 ^ 31` or
more. -/
def passExponent? (isZero : Bool) : List Char → Option (List Char)
  | [] => some []
  | mark :: rest =>
      if mark = 'e' || mark = 'E' then
        let digits := (skipSign rest).takeWhile isDigit
        if digits.isEmpty then
          dropWidth? 1 (skipSign rest)
        else if !isZero && rest.head? ≠ some '-' && 1 <<< 31 ≤ digitsValue digits.dropLast then
          none
        else
          some ((skipSign rest).dropWhile isDigit)
      else
        some (mark :: rest)

/-- Passes over what may follow the whole part of a number. -/
def passFraction? (whole : List Char) : List Char → Option (List Char)
  | '.' :: rest =>
      let digits := rest.takeWhile isDigit
      if digits.isEmpty then some rest
      else passExponent? ((whole ++ digits).all (· = '0')) (rest.dropWhile isDigit)
  | text => passExponent? (whole.all (· = '0')) text

/-- Passes over a number without its sign. -/
def passNumber? : List Char → Option (List Char)
  | '0' :: rest => passFraction? ['0'] rest
  | text =>
      let whole := text.takeWhile isDigit
      if whole.isEmpty then dropWidth? 1 text
      else passFraction? whole (text.dropWhile isDigit)

/-- Passes over a text after its opening quote, up to the closing one or to the first fault.
`halved` says that the second half of a surrogate pair is due. -/
def passText? (halved : Bool) : List Char → Option (List Char)
  | [] => some []
  | '"' :: rest => some rest
  | '\\' :: 'u' :: a :: b :: c :: d :: rest =>
      match unit? a b c d with
      | some unit =>
          if isTrailing unit = halved then passText? (isLeading unit) rest else some rest
      | none => dropWidth? 4 (a :: b :: c :: d :: rest)
  | '\\' :: 'u' :: rest => dropWidth? 4 rest
  | '\\' :: escape :: rest =>
      if !halved && (shortEscape? escape).isSome then passText? false rest
      else dropWidth? 1 (escape :: rest)
  | character :: rest =>
      if halved || character = '\\' || character.toNat < 32 then dropWidth? 1 (character :: rest)
      else passText? false rest

/-- Passes over a member that is no octet. Of an array or object nothing is read. -/
def passMember? : List Char → Option (List Char)
  | '"' :: rest => passText? false rest
  | 'n' :: rest => passWord? ['u', 'l', 'l'] rest
  | 't' :: rest => passWord? ['r', 'u', 'e'] rest
  | 'f' :: rest => passWord? ['a', 'l', 's', 'e'] rest
  | '-' :: rest => passNumber? rest
  | text => if text.head?.any isDigit then passNumber? text else some text

/-- Reads a plain number below 256. -/
def readOctet? (text : List Char) : Option (UInt8 × List Char) :=
  match readNumber? false (skipBlanks text) with
  | some (.natural value, rest) => if value < 256 then some (UInt8.ofNat value, rest) else none
  | _ => none

/-- The text after the comma that every member but the first needs before it. -/
def afterComma? (first : Bool) (text : List Char) : Option (List Char) :=
  if first then
    some text
  else
    match skipBlanks text with
    | ',' :: rest => some rest
    | _ => none

/-- The text at which an array has to end whose octets have all been read. -/
def passRest? (first : Bool) (text : List Char) : Option (List Char) :=
  match afterComma? first text with
  | none => some text
  | some rest => if (readOctet? rest).isSome then none else passMember? (skipBlanks rest)

/-- Reads octets up to the closing bracket of their array; `first` says that none came before. -/
def readOctets? (first : Bool) : Nat → List Char → Option (Bytes × List Char)
  | 0, text =>
      match (passRest? first text).map skipBlanks with
      | some (']' :: rest) => some ([], rest)
      | _ => none
  | count + 1, text =>
      match (afterComma? first text).bind readOctet? with
      | none => none
      | some (octet, rest) =>
          (readOctets? false count rest).map fun (octets, rest) => (octet :: octets, rest)

mutual

/-- Reads a value; `fuel` bounds the depth and the number of the values inside. -/
def readValue? : Nat → Form → List Char → Option (Value × List Char)
  | 0, _, _ => none
  | fuel + 1, form, text =>
      match skipBlanks text with
      | '"' :: rest => (readText? rest).map fun (content, rest) => (.text content, rest)
      | '[' :: rest =>
          match form with
          | .octets count =>
              (readOctets? true count rest).map fun (octets, rest) =>
                (.array (octets.map fun octet => .natural octet.toNat), rest)
          | _ =>
              match skipBlanks rest with
              | ']' :: rest => some (.array [], rest)
              | _ =>
                  (readMembers? fuel form.members rest).map fun (members, rest) =>
                    (.array members, rest)
      | '{' :: rest =>
          match skipBlanks rest with
          | '}' :: rest => some (.object [], rest)
          | _ => (readFields? fuel form rest).map fun (fields, rest) => (.object fields, rest)
      | 'n' :: rest => (dropWord? ['u', 'l', 'l'] rest).map (.null, ·)
      | 't' :: rest => (dropWord? ['r', 'u', 'e'] rest).map (.bool true, ·)
      | 'f' :: rest => (dropWord? ['a', 'l', 's', 'e'] rest).map (.bool false, ·)
      | '-' :: rest => readNumber? true rest
      | text => readNumber? false text

/-- Reads the members of an array up to its closing bracket. -/
def readMembers? : Nat → List Form → List Char → Option (List Value × List Char)
  | 0, _, _ => none
  | fuel + 1, forms, text =>
      match readValue? fuel (forms.headD .any) text with
      | none => none
      | some (value, rest) =>
          match skipBlanks rest with
          | ',' :: rest =>
              (readMembers? fuel forms.tail rest).map fun (values, rest) => (value :: values, rest)
          | ']' :: rest => some ([value], rest)
          | _ => none

/-- Reads the fields of an object up to its closing bracket. -/
def readFields? : Nat → Form → List Char → Option (List (Option String × Value) × List Char)
  | 0, _, _ => none
  | fuel + 1, form, text =>
      match skipBlanks text with
      | '"' :: rest =>
          match readText? rest with
          | none => none
          | some (key, rest) =>
              match skipBlanks rest with
              | ':' :: rest =>
                  match readValue? fuel (form.field key) rest with
                  | none => none
                  | some (value, rest) =>
                      match skipBlanks rest with
                      | ',' :: rest =>
                          (readFields? fuel form rest).map fun (fields, rest) =>
                            ((key, value) :: fields, rest)
                      | '}' :: rest => some ([(key, value)], rest)
                      | _ => none
              | _ => none
      | _ => none

end

/-- The value of a document that is wanted in a form. -/
def parse? (form : Form) (document : String) : Option Value :=
  let text := document.toList
  match readValue? (2 * text.length + 2) form text with
  | some (value, rest) => if (skipBlanks rest).isEmpty then some value else none
  | none => none

end Countersign.Json
