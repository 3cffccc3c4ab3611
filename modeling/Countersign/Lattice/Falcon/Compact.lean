import Countersign.Lattice.Packing

/-!
Falcon-512 signatures as the verifying contract reads them: the salt, and 512 field elements packed
sixteen to a word. They are cut out of a signed message, which holds the length of the signature,
the salt, the message and then the signature, whose coefficients may be compressed: a sign bit, the
seven low bits of the magnitude, and the rest of it in unary. Zero has no minus sign, and everything
after the last coefficient is zero.
-/

namespace Countersign.Lattice.Falcon

/-- The number of coefficients of a polynomial. -/
def degree : Nat := 512

/-- The bits of a byte, the highest first. -/
def bitsOfByte (byte : UInt8) : List Bool :=
  let value := byte.toNat
  [value.testBit 7, value.testBit 6, value.testBit 5, value.testBit 4,
    value.testBit 3, value.testBit 2, value.testBit 1, value.testBit 0]

/-- The bits of a byte string. -/
def bits (bytes : Bytes) : List Bool :=
  bytes.flatMap bitsOfByte

/-- The number that bits denote, the highest first. -/
def ofBits (bits : List Bool) : Nat :=
  bits.foldl (fun value bit => 2 * value + bit.toNat) 0

/-- The bits of one coefficient. -/
def encodeCoefficient (coefficient : Int) : List Bool :=
  let magnitude := coefficient.natAbs
  decide (coefficient < 0) ::
    (bitsOfByte (UInt8.ofNat (magnitude % 128))).drop 1 ++
    List.replicate (magnitude / 128) false ++ [true]

/-- The bits of a sequence of coefficients. -/
def encodeCoefficients (coefficients : List Int) : List Bool :=
  coefficients.flatMap encodeCoefficient

/-- The bits completed by zero bits to whole bytes. -/
def bytesOfBits (bits : List Bool) : Bytes :=
  (Bytes.pieces 8 bits).map fun piece =>
    UInt8.ofNat (ofBits (piece ++ List.replicate (8 - piece.length) false))

/-- The compressed form of a polynomial. -/
def compress (coefficients : List Int) : Bytes :=
  bytesOfBits (encodeCoefficients coefficients)

/-- Reads the unary part of a magnitude whose low part is known. -/
def readHigh (magnitude : Nat) : List Bool → Except CompressionFault (Nat × List Bool)
  | [] => .error .truncated
  | true :: rest => .ok (magnitude, rest)
  | false :: rest =>
      if 2047 < magnitude + 128 then .error .outOfRange else readHigh (magnitude + 128) rest

/-- Reads one coefficient and returns the bits after it. -/
def readCoefficient : List Bool → Except CompressionFault (Int × List Bool)
  | negative :: b₆ :: b₅ :: b₄ :: b₃ :: b₂ :: b₁ :: b₀ :: rest => do
      let (magnitude, rest) ← readHigh (ofBits [b₆, b₅, b₄, b₃, b₂, b₁, b₀]) rest
      if negative && magnitude = 0 then
        throw .negativeZero
      return (if negative then -(magnitude : Int) else magnitude, rest)
  | _ => .error .truncated

/-- Reads a number of coefficients and returns the bits after them. -/
def readCoefficients : Nat → List Bool → Except CompressionFault (List Int × List Bool)
  | 0, bits => .ok ([], bits)
  | count + 1, bits => do
      let (coefficient, bits) ← readCoefficient bits
      let (coefficients, bits) ← readCoefficients count bits
      return (coefficient :: coefficients, bits)

/-- The coefficients of a compressed polynomial. -/
def decompress (body : Bytes) : Except CompressionFault (List Int) := do
  let (coefficients, rest) ← readCoefficients degree (bits body)
  let spare := rest.length % 8
  if (rest.take spare).any id then
    throw .trailingBits
  if (rest.drop spare).any id then
    throw .padding
  return coefficients

/-- The size of the field. -/
def modulus : Nat := 12289

/-- The length of the part of a signed message that precedes the message. -/
def headLength : Nat := 42

/-- The first byte of a signature. -/
def signatureMark : UInt8 := 0x29

/-- A body of this length holds its coefficients uncompressed. -/
def plainLength : Nat := 1024

/-- A signed coefficient as a field element. -/
def toField (coefficient : Int) : UInt32 :=
  UInt32.ofNat (coefficient % modulus).toNat

/-- The coefficients of a body: two bytes each, most significant first, in a body of the plain
length, and compressed in any other. -/
def bodyCoefficients (body : Bytes) : Except Error (List UInt32) :=
  if body.length = plainLength then
    .ok ((Bytes.pieces 2 body).map fun pair => UInt32.ofNat (Bytes.toNatBE pair))
  else
    match decompress body with
    | .ok coefficients => .ok (coefficients.map toField)
    | .error fault => .error (.protocol (.compression fault))

/-- Cuts a signed message of a known message length. The place where the signature starts has to fit
64 bits; for an absurd message length it does not, which is a crash. -/
def compact (signedMessage : Bytes) (messageLength : UInt64) : Except Halt Bytes :=
  let refuse (violation : Violation) : Except Halt Bytes :=
    .error (.failure (.protocol violation))
  let start := headLength + messageLength.toNat
  if UInt64.size ≤ start then
    .error .crash
  else
    match signedMessage.drop start with
    | [] => refuse (.signedMessageTooShort signedMessage.length messageLength.toNat)
    | mark :: body =>
        let declared := Bytes.toNatBE (signedMessage.take 2)
        if body.length + 1 ≠ declared then
          refuse (.declaredLength declared (body.length + 1))
        else if mark ≠ signatureMark then
          refuse (.falconHeader mark)
        else
          match bodyCoefficients body >>= pack 16 with
          | .error error => .error (.failure error)
          | .ok words => .ok ((signedMessage.take headLength).drop 2 ++ wordBytes words)

end Countersign.Lattice.Falcon
