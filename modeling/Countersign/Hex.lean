import Countersign.Digest.Sponge

/-!
Hexadecimal text. Writing uses lowercase digits after `0x`, and for addresses also mixed case where
the case of the letters is a checksum; reading takes digits of either case, after one prefix at
most, and names the first byte that is no digit.
-/

namespace Countersign.Hex

/-- Why a text is not hexadecimal. -/
inductive Fault
  | oddLength (digits : Nat)
  | badDigit (byte : UInt8) (index : Nat)
  | stated (text : String)
deriving DecidableEq

/-- The lowercase digit of a number below sixteen. -/
def digit (value : Nat) : Char :=
  Char.ofNat (if value < 10 then 48 + value else 87 + value)

/-- The two digits of a byte, the high one first. -/
def digitsOfByte (byte : UInt8) : List Char :=
  [digit (byte.toNat / 16), digit (byte.toNat % 16)]

/-- The digits of a byte string. -/
def digits (bytes : Bytes) : List Char :=
  bytes.flatMap digitsOfByte

/-- The digits of a byte string as a text. -/
def text (bytes : Bytes) : String :=
  String.ofList (digits bytes)

/-- The digits of a byte string after the prefix. -/
def encode (bytes : Bytes) : String :=
  String.ofList ('0' :: 'x' :: digits bytes)

/-- The digits of a number with no leading zero, except for zero itself. -/
def minimalDigits (value : Nat) : List Char :=
  Nat.toDigits 16 value

/-- A number with the prefix and no leading zero. -/
def quantity (value : Nat) : String :=
  String.ofList ('0' :: 'x' :: minimalDigits value)

/-- The value of a digit, given by its byte. -/
def value? (byte : UInt8) : Option Nat :=
  let code := byte.toNat
  if 48 ≤ code ∧ code ≤ 57 then some (code - 48)
  else if 97 ≤ code ∧ code ≤ 102 then some (code - 87)
  else if 65 ≤ code ∧ code ≤ 70 then some (code - 55)
  else none

/-- The bytes that pairs of digits denote; `index` counts the digits before. -/
def decodePairs (index : Nat) : Bytes → Except Fault Bytes
  | [] => .ok []
  | [_] => .ok []
  | high :: low :: rest =>
      match value? high, value? low with
      | some h, some l => (decodePairs (index + 2) rest).map (UInt8.ofNat (16 * h + l) :: ·)
      | none, _ => .error (.badDigit high index)
      | some _, none => .error (.badDigit low (index + 1))

/-- The bytes that a run of digits denotes. A run of odd length is refused before its digits are
looked at. -/
def decodeDigits (digits : Bytes) : Except Fault Bytes :=
  if digits.length % 2 = 1 then
    .error (.oddLength digits.length)
  else
    decodePairs 0 digits

/-- Takes one prefix off, `0x` or `0X`. -/
def dropMark : Bytes → Bytes
  | 0x30 :: 0x78 :: rest => rest
  | 0x30 :: 0x58 :: rest => rest
  | digits => digits

/-- The bytes that a text denotes, counted and indexed in UTF-8. -/
def decode (text : String) : Except Fault Bytes :=
  decodeDigits (dropMark text.toUTF8.data.toList)

end Countersign.Hex

namespace Countersign.Address

/-- The address in lowercase digits. -/
def plain (address : Address) : String :=
  Hex.encode address.bytes

private def raise (character : Char) (check : UInt8) : Char :=
  if 8 ≤ check then character.toUpper else character

/-- The digits of an address, each letter in upper case when the matching half byte of the digest
of the lowercase digits is eight or more. -/
def checksumDigits (address : Address) : List Char :=
  let digits := Hex.digits address.bytes
  let digest := keccak256 (digits.map fun character => UInt8.ofNat character.toNat)
  let halves := digest.bytes.flatMap fun (byte : UInt8) => [byte >>> 4, byte &&& 0x0F]
  List.zipWith raise digits halves

/-- The address with its checksum. -/
def checksummed (address : Address) : String :=
  String.ofList ('0' :: 'x' :: checksumDigits address)

end Countersign.Address
