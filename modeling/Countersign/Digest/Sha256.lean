import Countersign.Bytes

/-!
The 256-bit hash of the SHA-2 family and the keyed hash built on it.
-/

namespace Countersign.Digest

namespace Sha256

/-- The eight words that a block changes. -/
structure Chain where
  a : UInt32
  b : UInt32
  c : UInt32
  d : UInt32
  e : UInt32
  f : UInt32
  g : UInt32
  h : UInt32

private def start : Chain :=
  ⟨0x6A09E667, 0xBB67AE85, 0x3C6EF372, 0xA54FF53A, 0x510E527F, 0x9B05688C, 0x1F83D9AB, 0x5BE0CD19⟩

private def roundConstants : List UInt32 :=
  [0x428A2F98, 0x71374491, 0xB5C0FBCF, 0xE9B5DBA5, 0x3956C25B, 0x59F111F1, 0x923F82A4, 0xAB1C5ED5,
    0xD807AA98, 0x12835B01, 0x243185BE, 0x550C7DC3, 0x72BE5D74, 0x80DEB1FE, 0x9BDC06A7, 0xC19BF174,
    0xE49B69C1, 0xEFBE4786, 0x0FC19DC6, 0x240CA1CC, 0x2DE92C6F, 0x4A7484AA, 0x5CB0A9DC, 0x76F988DA,
    0x983E5152, 0xA831C66D, 0xB00327C8, 0xBF597FC7, 0xC6E00BF3, 0xD5A79147, 0x06CA6351, 0x14292967,
    0x27B70A85, 0x2E1B2138, 0x4D2C6DFC, 0x53380D13, 0x650A7354, 0x766A0ABB, 0x81C2C92E, 0x92722C85,
    0xA2BFE8A1, 0xA81A664B, 0xC24B8B70, 0xC76C51A3, 0xD192E819, 0xD6990624, 0xF40E3585, 0x106AA070,
    0x19A4C116, 0x1E376C08, 0x2748774C, 0x34B0BCB5, 0x391C0CB3, 0x4ED8AA4A, 0x5B9CCA4F, 0x682E6FF3,
    0x748F82EE, 0x78A5636F, 0x84C87814, 0x8CC70208, 0x90BEFFFA, 0xA4506CEB, 0xBEF9A3F7, 0xC67178F2]

private def rotate (amount word : UInt32) : UInt32 :=
  (word >>> amount) ||| (word <<< (32 - amount))

private def wordOfBytes (bytes : Bytes) : UInt32 :=
  bytes.foldl (fun word byte => (word <<< 8) ||| byte.toUInt32) 0

private def bytesOfWord (word : UInt32) : Bytes :=
  [(word >>> 24).toUInt8, (word >>> 16).toUInt8, (word >>> 8).toUInt8, word.toUInt8]

/-- The next `count` scheduled words, from the sixteen latest ones, the latest first. -/
private def extend : Nat → List UInt32 → List UInt32
  | 0, _ => []
  | count + 1, latest =>
      let two := latest.getD 1 0
      let fifteen := latest.getD 14 0
      let small := rotate 7 fifteen ^^^ rotate 18 fifteen ^^^ (fifteen >>> 3)
      let large := rotate 17 two ^^^ rotate 19 two ^^^ (two >>> 10)
      let word := latest.getD 15 0 + small + latest.getD 6 0 + large
      word :: extend count (word :: latest.take 15)

private def step (s : Chain) (word constant : UInt32) : Chain :=
  let sum1 := rotate 6 s.e ^^^ rotate 11 s.e ^^^ rotate 25 s.e
  let choice := (s.e &&& s.f) ^^^ (~~~s.e &&& s.g)
  let first := s.h + sum1 + choice + constant + word
  let sum0 := rotate 2 s.a ^^^ rotate 13 s.a ^^^ rotate 22 s.a
  let majority := (s.a &&& s.b) ^^^ (s.a &&& s.c) ^^^ (s.b &&& s.c)
  ⟨first + (sum0 + majority), s.a, s.b, s.c, s.d + first, s.e, s.f, s.g⟩

private def block (s : Chain) (bytes : Bytes) : Chain :=
  let words := (Bytes.pieces 4 bytes).map wordOfBytes
  let schedule := words ++ extend 48 words.reverse
  let t := (schedule.zip roundConstants).foldl (fun chain pair => step chain pair.1 pair.2) s
  ⟨s.a + t.a, s.b + t.b, s.c + t.c, s.d + t.d, s.e + t.e, s.f + t.f, s.g + t.g, s.h + t.h⟩

private def pad (message : Bytes) : Bytes :=
  message ++ 0x80 :: Bytes.zeros ((119 - message.length % 64) % 64) ++
    Bytes.ofNatBE 8 (8 * message.length)

end Sha256

/-- The thirty-two bytes of the digest. -/
def sha256 (message : Bytes) : Bytes :=
  let s := (Bytes.pieces 64 (Sha256.pad message)).foldl Sha256.block Sha256.start
  [s.a, s.b, s.c, s.d, s.e, s.f, s.g, s.h].flatMap Sha256.bytesOfWord

/-- The keyed hash over `sha256`, for keys of at most 64 bytes. -/
def hmacSha256 (key message : Bytes) : Bytes :=
  let block := key ++ Bytes.zeros (64 - key.length)
  let inner := sha256 (block.map (fun byte => byte ^^^ 0x36) ++ message)
  sha256 (block.map (fun byte => byte ^^^ 0x5C) ++ inner)

end Countersign.Digest
