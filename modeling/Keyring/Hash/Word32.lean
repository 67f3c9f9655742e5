import Keyring.Hash.MerkleDamgard

/-!
# Hash functions on 32-bit words: MD5, SHA-1, SHA-224 and SHA-256

MD5 reads and writes its words least significant byte first, the others most
significant byte first.  A chaining value is a structure of words, so the length
of a digest can be read off its type.
-/

namespace Keyring

/-- The four bytes of a word, most significant first. -/
def word32Bytes (w : UInt32) : Bytes :=
  [(w >>> 24).toUInt8, (w >>> 16).toUInt8, (w >>> 8).toUInt8, w.toUInt8]

/-- The word of four bytes, most significant first. -/
def word32 (a b c d : UInt8) : UInt32 :=
  a.toUInt32 <<< 24 ||| b.toUInt32 <<< 16 ||| c.toUInt32 <<< 8 ||| d.toUInt32

/-- The words of a byte string, most significant byte first; an incomplete last
word is dropped. -/
def words32 : Bytes → List UInt32
  | a :: b :: c :: d :: rest => word32 a b c d :: words32 rest
  | _ => []

/-- The words of a byte string, least significant byte first. -/
def words32LittleEndian : Bytes → List UInt32
  | a :: b :: c :: d :: rest => word32 d c b a :: words32LittleEndian rest
  | _ => []

/-- Rotation of a word to the left by fewer than 32 places. -/
def rotateLeft32 (w n : UInt32) : UInt32 := w <<< n ||| w >>> (32 - n)

/-- Rotation of a word to the right by fewer than 32 places. -/
def rotateRight32 (w n : UInt32) : UInt32 := w >>> n ||| w <<< (32 - n)

/-! ### MD5 -/

namespace Md5

/-- The chaining value of MD5. -/
structure State where
  a : UInt32
  b : UInt32
  c : UInt32
  d : UInt32

/-- The steps of MD5: the index of the message word, the rotation and the sine
constant, four rounds of sixteen. -/
def steps : List (Nat × UInt32 × UInt32) :=
  [(0, 7, 0xd76aa478), (1, 12, 0xe8c7b756), (2, 17, 0x242070db), (3, 22, 0xc1bdceee),
   (4, 7, 0xf57c0faf), (5, 12, 0x4787c62a), (6, 17, 0xa8304613), (7, 22, 0xfd469501),
   (8, 7, 0x698098d8), (9, 12, 0x8b44f7af), (10, 17, 0xffff5bb1), (11, 22, 0x895cd7be),
   (12, 7, 0x6b901122), (13, 12, 0xfd987193), (14, 17, 0xa679438e), (15, 22, 0x49b40821),
   (1, 5, 0xf61e2562), (6, 9, 0xc040b340), (11, 14, 0x265e5a51), (0, 20, 0xe9b6c7aa),
   (5, 5, 0xd62f105d), (10, 9, 0x02441453), (15, 14, 0xd8a1e681), (4, 20, 0xe7d3fbc8),
   (9, 5, 0x21e1cde6), (14, 9, 0xc33707d6), (3, 14, 0xf4d50d87), (8, 20, 0x455a14ed),
   (13, 5, 0xa9e3e905), (2, 9, 0xfcefa3f8), (7, 14, 0x676f02d9), (12, 20, 0x8d2a4c8a),
   (5, 4, 0xfffa3942), (8, 11, 0x8771f681), (11, 16, 0x6d9d6122), (14, 23, 0xfde5380c),
   (1, 4, 0xa4beea44), (4, 11, 0x4bdecfa9), (7, 16, 0xf6bb4b60), (10, 23, 0xbebfbc70),
   (13, 4, 0x289b7ec6), (0, 11, 0xeaa127fa), (3, 16, 0xd4ef3085), (6, 23, 0x04881d05),
   (9, 4, 0xd9d4d039), (12, 11, 0xe6db99e5), (15, 16, 0x1fa27cf8), (2, 23, 0xc4ac5665),
   (0, 6, 0xf4292244), (7, 10, 0x432aff97), (14, 15, 0xab9423a7), (5, 21, 0xfc93a039),
   (12, 6, 0x655b59c3), (3, 10, 0x8f0ccc92), (10, 15, 0xffeff47d), (1, 21, 0x85845dd1),
   (8, 6, 0x6fa87e4f), (15, 10, 0xfe2ce6e0), (6, 15, 0xa3014314), (13, 21, 0x4e0811a1),
   (4, 6, 0xf7537e82), (11, 10, 0xbd3af235), (2, 15, 0x2ad7d2bb), (9, 21, 0xeb86d391)]

/-- The boolean function of each round. -/
def mix (round : Nat) (b c d : UInt32) : UInt32 :=
  match round with
  | 0 => (b &&& c) ||| (~~~b &&& d)
  | 1 => (d &&& b) ||| (~~~d &&& c)
  | 2 => b ^^^ c ^^^ d
  | _ => c ^^^ (b ||| ~~~d)

/-- Runs the steps from step number `i` on. -/
def run (words : Array UInt32) : Nat → List (Nat × UInt32 × UInt32) → State → State
  | _, [], s => s
  | i, (g, r, k) :: rest, s =>
    let f := mix (i / 16) s.b s.c s.d + s.a + k + words.getD g 0
    run words (i + 1) rest ⟨s.d, s.b + rotateLeft32 f r, s.b, s.c⟩

/-- The compression function of MD5. -/
def compress (s : State) (block : Bytes) : State :=
  let t := run (words32LittleEndian block).toArray 0 steps s
  ⟨s.a + t.a, s.b + t.b, s.c + t.c, s.d + t.d⟩

/-- The sixteen bytes of a chaining value. -/
def output (s : State) : Bytes :=
  [s.a, s.b, s.c, s.d].flatMap fun w => (word32Bytes w).reverse

theorem length_output (s : State) : (output s).length = 16 := rfl

end Md5

/-- MD5. -/
def md5 : MerkleDamgard where
  State := Md5.State
  blockSize := 64
  lengthSize := 8
  bigEndian := false
  init := ⟨0x67452301, 0xefcdab89, 0x98badcfe, 0x10325476⟩
  compress := Md5.compress
  output := Md5.output

/-! ### SHA-1 -/

namespace Sha1

/-- The chaining value of SHA-1. -/
structure State where
  a : UInt32
  b : UInt32
  c : UInt32
  d : UInt32
  e : UInt32

/-- Extends the message schedule by `n` words. -/
def expand : Nat → Array UInt32 → Array UInt32
  | 0, w => w
  | n + 1, w =>
    let i := w.size
    let x := w.getD (i - 3) 0 ^^^ w.getD (i - 8) 0 ^^^ w.getD (i - 14) 0 ^^^ w.getD (i - 16) 0
    expand n (w.push (rotateLeft32 x 1))

/-- The boolean function of a round with its constant. -/
def mix (round : Nat) (b c d : UInt32) : UInt32 :=
  match round with
  | 0 => ((b &&& c) ||| (~~~b &&& d)) + 0x5a827999
  | 1 => (b ^^^ c ^^^ d) + 0x6ed9eba1
  | 2 => ((b &&& c) ||| (b &&& d) ||| (c &&& d)) + 0x8f1bbcdc
  | _ => (b ^^^ c ^^^ d) + 0xca62c1d6

/-- Runs the steps from step number `i` on. -/
def run : Nat → List UInt32 → State → State
  | _, [], s => s
  | i, w :: rest, s =>
    let t := rotateLeft32 s.a 5 + mix (i / 20) s.b s.c s.d + s.e + w
    run (i + 1) rest ⟨t, s.a, rotateLeft32 s.b 30, s.c, s.d⟩

/-- The compression function of SHA-1. -/
def compress (s : State) (block : Bytes) : State :=
  let t := run 0 (expand 64 (words32 block).toArray).toList s
  ⟨s.a + t.a, s.b + t.b, s.c + t.c, s.d + t.d, s.e + t.e⟩

/-- The twenty bytes of a chaining value. -/
def output (s : State) : Bytes := [s.a, s.b, s.c, s.d, s.e].flatMap word32Bytes

theorem length_output (s : State) : (output s).length = 20 := rfl

end Sha1

/-- SHA-1. -/
def sha1 : MerkleDamgard where
  State := Sha1.State
  blockSize := 64
  lengthSize := 8
  bigEndian := true
  init := ⟨0x67452301, 0xefcdab89, 0x98badcfe, 0x10325476, 0xc3d2e1f0⟩
  compress := Sha1.compress
  output := Sha1.output

/-! ### SHA-224 and SHA-256 -/

namespace Sha256

/-- The chaining value of SHA-256. -/
structure State where
  a : UInt32
  b : UInt32
  c : UInt32
  d : UInt32
  e : UInt32
  f : UInt32
  g : UInt32
  h : UInt32

/-- The round constants: the first 32 bits of the fractional parts of the cube
roots of the first 64 primes. -/
def constants : List UInt32 :=
  [ 0x428a2f98, 0x71374491, 0xb5c0fbcf, 0xe9b5dba5, 0x3956c25b, 0x59f111f1,
    0x923f82a4, 0xab1c5ed5, 0xd807aa98, 0x12835b01, 0x243185be, 0x550c7dc3,
    0x72be5d74, 0x80deb1fe, 0x9bdc06a7, 0xc19bf174, 0xe49b69c1, 0xefbe4786,
    0x0fc19dc6, 0x240ca1cc, 0x2de92c6f, 0x4a7484aa, 0x5cb0a9dc, 0x76f988da,
    0x983e5152, 0xa831c66d, 0xb00327c8, 0xbf597fc7, 0xc6e00bf3, 0xd5a79147,
    0x06ca6351, 0x14292967, 0x27b70a85, 0x2e1b2138, 0x4d2c6dfc, 0x53380d13,
    0x650a7354, 0x766a0abb, 0x81c2c92e, 0x92722c85, 0xa2bfe8a1, 0xa81a664b,
    0xc24b8b70, 0xc76c51a3, 0xd192e819, 0xd6990624, 0xf40e3585, 0x106aa070,
    0x19a4c116, 0x1e376c08, 0x2748774c, 0x34b0bcb5, 0x391c0cb3, 0x4ed8aa4a,
    0x5b9cca4f, 0x682e6ff3, 0x748f82ee, 0x78a5636f, 0x84c87814, 0x8cc70208,
    0x90befffa, 0xa4506ceb, 0xbef9a3f7, 0xc67178f2 ]

/-- Extends the message schedule by `n` words. -/
def expand : Nat → Array UInt32 → Array UInt32
  | 0, w => w
  | n + 1, w =>
    let i := w.size
    let x := w.getD (i - 15) 0
    let y := w.getD (i - 2) 0
    let s0 := rotateRight32 x 7 ^^^ rotateRight32 x 18 ^^^ x >>> 3
    let s1 := rotateRight32 y 17 ^^^ rotateRight32 y 19 ^^^ y >>> 10
    expand n (w.push (w.getD (i - 16) 0 + s0 + w.getD (i - 7) 0 + s1))

/-- Runs one step for each pair of a round constant and a schedule word. -/
def run : List UInt32 → List UInt32 → State → State
  | k :: ks, w :: ws, s =>
    let s1 := rotateRight32 s.e 6 ^^^ rotateRight32 s.e 11 ^^^ rotateRight32 s.e 25
    let choose := (s.e &&& s.f) ^^^ (~~~s.e &&& s.g)
    let t1 := s.h + s1 + choose + k + w
    let s0 := rotateRight32 s.a 2 ^^^ rotateRight32 s.a 13 ^^^ rotateRight32 s.a 22
    let majority := (s.a &&& s.b) ^^^ (s.a &&& s.c) ^^^ (s.b &&& s.c)
    run ks ws ⟨t1 + s0 + majority, s.a, s.b, s.c, s.d + t1, s.e, s.f, s.g⟩
  | _, _, s => s

/-- The compression function of SHA-256. -/
def compress (s : State) (block : Bytes) : State :=
  let t := run constants (expand 48 (words32 block).toArray).toList s
  ⟨s.a + t.a, s.b + t.b, s.c + t.c, s.d + t.d, s.e + t.e, s.f + t.f, s.g + t.g, s.h + t.h⟩

/-- The thirty-two bytes of a chaining value. -/
def output (s : State) : Bytes :=
  [s.a, s.b, s.c, s.d, s.e, s.f, s.g, s.h].flatMap word32Bytes

/-- The first twenty-eight bytes of a chaining value. -/
def output224 (s : State) : Bytes :=
  [s.a, s.b, s.c, s.d, s.e, s.f, s.g].flatMap word32Bytes

theorem length_output (s : State) : (output s).length = 32 := rfl

theorem length_output224 (s : State) : (output224 s).length = 28 := rfl

end Sha256

/-- SHA-256. -/
def sha256 : MerkleDamgard where
  State := Sha256.State
  blockSize := 64
  lengthSize := 8
  bigEndian := true
  init :=
    ⟨0x6a09e667, 0xbb67ae85, 0x3c6ef372, 0xa54ff53a,
    0x510e527f, 0x9b05688c, 0x1f83d9ab, 0x5be0cd19⟩
  compress := Sha256.compress
  output := Sha256.output

/-- SHA-224: SHA-256 from another start, cut to 28 bytes. -/
def sha224 : MerkleDamgard where
  State := Sha256.State
  blockSize := 64
  lengthSize := 8
  bigEndian := true
  init :=
    ⟨0xc1059ed8, 0x367cd507, 0x3070dd17, 0xf70e5939,
    0xffc00b31, 0x68581511, 0x64f98fa7, 0xbefa4fa4⟩
  compress := Sha256.compress
  output := Sha256.output224

end Keyring
