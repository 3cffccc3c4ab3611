import Countersign.Json.Codec
import Countersign.Path

/-!
Derivation paths in text, `m` and then each component after a slash, with a mark after the hardened
ones, and in documents, where they stand as their text.
-/

namespace Countersign.Path

def componentText (component : UInt32) : List Char :=
  if component &&& hardened ≠ 0 then
    '/' :: Nat.toDigits 10 (component &&& ~~~hardened).toNat ++ ['\x27']
  else
    '/' :: Nat.toDigits 10 component.toNat

/-- The text of a path. -/
def text (path : Path) : String :=
  String.ofList ('m' :: path.components.flatMap componentText)

/-- A component without its mark, and whether it had one. Either mark counts, once. -/
def splitMark (part : List Char) : List Char × Bool :=
  match part.getLast? with
  | some '\x27' => (part.dropLast, true)
  | some 'h' => (part.dropLast, true)
  | _ => (part, false)

/-- The number of a component: digits, after one plus sign at most, for a number below `2 ^ 32`. -/
def index? (digits : List Char) : Option Nat :=
  let unsigned :=
    match digits with
    | '+' :: rest => rest
    | _ => digits
  match Text.decimal? unsigned with
  | some index => if index < UInt32.size then some index else none
  | none => none

def readComponentText (text : String) (part : List Char) : Except Error UInt32 :=
  let (digits, marked) := splitMark part
  match index? digits with
  | none => .error (.path (.invalidComponent (String.ofList part) text))
  | some index =>
      if hardened.toNat ≤ index then .error (.path (.outOfRange index))
      else .ok (UInt32.ofNat index ||| if marked then hardened else 0)

/-- Reads a path; blanks around it are taken off first. -/
def parse (text : String) : Except Error Path :=
  match Text.splitOn '/' (Text.trim text.toList) with
  | ['m'] :: parts => do
      ofComponents (← parts.mapM (readComponentText text))
  | _ => .error (.path (.rootMissing text))

def json (path : Path) : String :=
  Json.writeText path.text

def ofValue? (value : Json.Value) : Option Path :=
  match Json.text? value with
  | some text => (parse text).toOption
  | none => none

def ofJson (document : String) : Except Error Path :=
  Json.readDocument .any ofValue? document

end Countersign.Path
