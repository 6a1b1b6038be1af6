-- SUMMARY: `hashlib.sha256`: padding, message schedule, compression, and the digest in hexadecimal.
import DealScreening.Python.Text

/-- A file as its bytes. -/
abbrev Bytes := List UInt8

namespace Python.Hashlib

abbrev Word := BitVec 32

def roundConstants : List Word :=
  [0x428a2f98, 0x71374491, 0xb5c0fbcf, 0xe9b5dba5, 0x3956c25b, 0x59f111f1, 0x923f82a4, 0xab1c5ed5,
   0xd807aa98, 0x12835b01, 0x243185be, 0x550c7dc3, 0x72be5d74, 0x80deb1fe, 0x9bdc06a7, 0xc19bf174,
   0xe49b69c1, 0xefbe4786, 0x0fc19dc6, 0x240ca1cc, 0x2de92c6f, 0x4a7484aa, 0x5cb0a9dc, 0x76f988da,
   0x983e5152, 0xa831c66d, 0xb00327c8, 0xbf597fc7, 0xc6e00bf3, 0xd5a79147, 0x06ca6351, 0x14292967,
   0x27b70a85, 0x2e1b2138, 0x4d2c6dfc, 0x53380d13, 0x650a7354, 0x766a0abb, 0x81c2c92e, 0x92722c85,
   0xa2bfe8a1, 0xa81a664b, 0xc24b8b70, 0xc76c51a3, 0xd192e819, 0xd6990624, 0xf40e3585, 0x106aa070,
   0x19a4c116, 0x1e376c08, 0x2748774c, 0x34b0bcb5, 0x391c0cb3, 0x4ed8aa4a, 0x5b9cca4f, 0x682e6ff3,
   0x748f82ee, 0x78a5636f, 0x84c87814, 0x8cc70208, 0x90befffa, 0xa4506ceb, 0xbef9a3f7, 0xc67178f2]

/-- The working variables of the compression. -/
structure Digest where
  a : Word
  b : Word
  c : Word
  d : Word
  e : Word
  f : Word
  g : Word
  h : Word
  deriving DecidableEq

def initial : Digest :=
  ⟨0x6a09e667, 0xbb67ae85, 0x3c6ef372, 0xa54ff53a, 0x510e527f, 0x9b05688c, 0x1f83d9ab, 0x5be0cd19⟩

/-- The message, a one bit, zeros, and the length in bits, up to a multiple of 64 bytes. -/
def pad (message : Bytes) : Bytes :=
  let zeros := (119 - message.length % 64) % 64
  let length := (List.range 8).map fun i => UInt8.ofNat (8 * message.length / 256 ^ (7 - i))
  message ++ 0x80 :: List.replicate zeros 0 ++ length

/-- The words of a block, big-endian. -/
def words : Bytes → List Word
  | a :: b :: c :: d :: rest =>
    (a.toBitVec ++ b.toBitVec ++ c.toBitVec ++ d.toBitVec) :: words rest
  | _ => []

/-- The message schedule, the newest word first. -/
def schedule : Nat → List Word → List Word
  | 0, ws => ws
  | n + 1, ws =>
    let at' (i : Nat) : Word := ws.getD i 0
    let s0 := (at' 14).rotateRight 7 ^^^ (at' 14).rotateRight 18 ^^^ (at' 14) >>> 3
    let s1 := (at' 1).rotateRight 17 ^^^ (at' 1).rotateRight 19 ^^^ (at' 1) >>> 10
    schedule n ((at' 15 + s0 + at' 6 + s1) :: ws)

def round (s : Digest) (k w : Word) : Digest :=
  let s1 := s.e.rotateRight 6 ^^^ s.e.rotateRight 11 ^^^ s.e.rotateRight 25
  let ch := (s.e &&& s.f) ^^^ (~~~s.e &&& s.g)
  let t1 := s.h + s1 + ch + k + w
  let s0 := s.a.rotateRight 2 ^^^ s.a.rotateRight 13 ^^^ s.a.rotateRight 22
  let maj := (s.a &&& s.b) ^^^ (s.a &&& s.c) ^^^ (s.b &&& s.c)
  ⟨t1 + (s0 + maj), s.a, s.b, s.c, s.d + t1, s.e, s.f, s.g⟩

/-- A block of 64 bytes is mixed into the digest. -/
def compress (s : Digest) (block : Bytes) : Digest :=
  let ws := (schedule 48 (words block).reverse).reverse
  let t := (roundConstants.zip ws).foldl (fun t kw => round t kw.1 kw.2) s
  ⟨s.a + t.a, s.b + t.b, s.c + t.c, s.d + t.d, s.e + t.e, s.f + t.f, s.g + t.g, s.h + t.h⟩

/-- The digest of so many blocks. -/
def digest : Nat → Digest → Bytes → Digest
  | 0, s, _ => s
  | n + 1, s, bytes => digest n (compress s (bytes.take 64)) (bytes.drop 64)

/-- `hashlib.sha256(message).hexdigest()`. -/
def sha256 (message : Bytes) : String :=
  let padded := pad message
  let s := digest (padded.length / 64) initial padded
  String.ofList (([s.a, s.b, s.c, s.d, s.e, s.f, s.g, s.h].flatMap fun word =>
    Str.hex 8 word.toNat).map Char.ofNat)

/-- `b"abc"`. -/
example : sha256 [0x61, 0x62, 0x63] =
    "ba7816bf8f01cfea414140de5dae2223b00361a396177a9cb410ff61f20015ad" := by
  decide +kernel

end Python.Hashlib
