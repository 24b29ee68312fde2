import LiveComponent.Text.Utf8

namespace LiveComponent

/-!
# SHA-256

The secure hash with 32-bit words, over the UTF-8 bytes of a text, written as 64 hexadecimal digits.
-/

namespace Sha256

/-- The initial hash value. -/
def initial : List UInt32 :=
  [
    0x6a09e667, 0xbb67ae85, 0x3c6ef372, 0xa54ff53a, 0x510e527f, 0x9b05688c, 0x1f83d9ab, 0x5be0cd19
  ]

/-- The round constants. -/
def roundConstants : List UInt32 :=
  [
    0x428a2f98, 0x71374491, 0xb5c0fbcf, 0xe9b5dba5, 0x3956c25b, 0x59f111f1, 0x923f82a4, 0xab1c5ed5,
    0xd807aa98, 0x12835b01, 0x243185be, 0x550c7dc3, 0x72be5d74, 0x80deb1fe, 0x9bdc06a7, 0xc19bf174,
    0xe49b69c1, 0xefbe4786, 0x0fc19dc6, 0x240ca1cc, 0x2de92c6f, 0x4a7484aa, 0x5cb0a9dc, 0x76f988da,
    0x983e5152, 0xa831c66d, 0xb00327c8, 0xbf597fc7, 0xc6e00bf3, 0xd5a79147, 0x06ca6351, 0x14292967,
    0x27b70a85, 0x2e1b2138, 0x4d2c6dfc, 0x53380d13, 0x650a7354, 0x766a0abb, 0x81c2c92e, 0x92722c85,
    0xa2bfe8a1, 0xa81a664b, 0xc24b8b70, 0xc76c51a3, 0xd192e819, 0xd6990624, 0xf40e3585, 0x106aa070,
    0x19a4c116, 0x1e376c08, 0x2748774c, 0x34b0bcb5, 0x391c0cb3, 0x4ed8aa4a, 0x5b9cca4f, 0x682e6ff3,
    0x748f82ee, 0x78a5636f, 0x84c87814, 0x8cc70208, 0x90befffa, 0xa4506ceb, 0xbef9a3f7, 0xc67178f2
  ]

/-- Rotate a word to the right. -/
def rotate (word : UInt32) (amount : UInt32) : UInt32 :=
  (word >>> amount) ||| (word <<< (32 - amount))

/-- The function on message words 15 steps back. -/
def mixEarly (word : UInt32) : UInt32 :=
  rotate word 7 ^^^ rotate word 18 ^^^ (word >>> 3)

/-- The function on message words 2 steps back. -/
def mixLate (word : UInt32) : UInt32 :=
  rotate word 17 ^^^ rotate word 19 ^^^ (word >>> 10)

/-- Extend the last 16 message words, latest first, by `count` words. -/
def extend : Nat → List UInt32 → List UInt32
  | 0, schedule => schedule
  | count + 1, schedule =>
    let word :=
      mixLate (schedule.getD 1 0) + schedule.getD 6 0 + mixEarly (schedule.getD 14 0) +
        schedule.getD 15 0
    extend count (word :: schedule)

/-- The eight working variables. -/
structure Working where
  a : UInt32
  b : UInt32
  c : UInt32
  d : UInt32
  e : UInt32
  f : UInt32
  g : UInt32
  h : UInt32

/-- One round. -/
def round (w : Working) (constant message : UInt32) : Working :=
  let choose := (w.e &&& w.f) ^^^ ((w.e ^^^ 0xffffffff) &&& w.g)
  let sumE := rotate w.e 6 ^^^ rotate w.e 11 ^^^ rotate w.e 25
  let first := w.h + sumE + choose + constant + message
  let majority := (w.a &&& w.b) ^^^ (w.a &&& w.c) ^^^ (w.b &&& w.c)
  let sumA := rotate w.a 2 ^^^ rotate w.a 13 ^^^ rotate w.a 22
  ⟨first + (sumA + majority), w.a, w.b, w.c, w.d + first, w.e, w.f, w.g⟩

/-- All rounds over the constants and the message schedule. -/
def rounds : List UInt32 → List UInt32 → Working → Working
  | constant :: constants, message :: messages, working =>
    rounds constants messages (round working constant message)
  | _, _, working => working

/-- The words of the hash as working variables. -/
def Working.ofWords (words : List UInt32) : Working :=
  ⟨words.getD 0 0, words.getD 1 0, words.getD 2 0, words.getD 3 0, words.getD 4 0,
    words.getD 5 0, words.getD 6 0, words.getD 7 0⟩

/-- The working variables in order. -/
def Working.toWords (w : Working) : List UInt32 :=
  [w.a, w.b, w.c, w.d, w.e, w.f, w.g, w.h]

/-- Take a block of 16 words into the hash. -/
def compress (hash block : List UInt32) : List UInt32 :=
  let schedule := (extend 48 block.reverse).reverse
  let mixed := rounds roundConstants schedule (Working.ofWords hash)
  List.zipWith (· + ·) hash mixed.toWords

/-- Big-endian words of four bytes each. -/
def wordsOfBytes : List UInt8 → List UInt32
  | a :: b :: c :: d :: rest =>
    ((a.toUInt32 <<< 24) ||| (b.toUInt32 <<< 16) ||| (c.toUInt32 <<< 8) ||| d.toUInt32) ::
      wordsOfBytes rest
  | _ => []

/-- The bytes of a length in bits, most significant first. -/
def lengthBytes (bits : Nat) : List UInt8 :=
  [56, 48, 40, 32, 24, 16, 8, 0].map fun shift => UInt8.ofNat (bits >>> shift)

/-- The message with its closing bit, zeros and length: whole blocks of 64 bytes. -/
def padded (bytes : List UInt8) : List UInt8 :=
  let size := bytes.length
  bytes ++ 0x80 :: List.replicate ((119 - size % 64) % 64) 0 ++ lengthBytes (8 * size)

/-- Take up to `count` blocks of 16 words into the hash. -/
def absorb : Nat → List UInt32 → List UInt32 → List UInt32
  | 0, hash, _ => hash
  | count + 1, hash, words => absorb count (compress hash (words.take 16)) (words.drop 16)

/-- The hash of a message. -/
def digest (bytes : List UInt8) : List UInt32 :=
  let words := wordsOfBytes (padded bytes)
  absorb (words.length / 16) initial words

/-- A word as eight hexadecimal digits. -/
def hexWord (word : UInt32) : Text :=
  [28, 24, 20, 16, 12, 8, 4, 0].map fun shift => Nat.digitChar ((word.toNat >>> shift) % 16)

end Sha256

/-- The SHA-256 hash of a text in hexadecimal digits. -/
def sha256Hex (text : Text) : Text :=
  (Sha256.digest (Text.bytes text)).flatMap Sha256.hexWord

end LiveComponent
