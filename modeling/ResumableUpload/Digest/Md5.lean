import ResumableUpload.Text.Hex

/-!
# The MD5 digest

The digest of a row of bytes that arrive piece by piece. Bytes are taken in blocks of 64; what does
not fill a block waits for more. At the end a bit, zeros and the length in bits fill the last
blocks.
-/

namespace ResumableUpload.Digest

/-- The four words that a digest is made of. -/
structure Words where
  a : UInt32
  b : UInt32
  c : UInt32
  d : UInt32
  deriving DecidableEq

namespace Words

def start : Words := ⟨0x67452301, 0xefcdab89, 0x98badcfe, 0x10325476⟩

def add (x y : Words) : Words := ⟨x.a + y.a, x.b + y.b, x.c + y.c, x.d + y.d⟩

end Words

/-- The number added in each of the sixty-four steps. -/
def stepConstants : Array UInt32 := #[
  0xd76aa478, 0xe8c7b756, 0x242070db, 0xc1bdceee, 0xf57c0faf, 0x4787c62a, 0xa8304613, 0xfd469501,
  0x698098d8, 0x8b44f7af, 0xffff5bb1, 0x895cd7be, 0x6b901122, 0xfd987193, 0xa679438e, 0x49b40821,
  0xf61e2562, 0xc040b340, 0x265e5a51, 0xe9b6c7aa, 0xd62f105d, 0x02441453, 0xd8a1e681, 0xe7d3fbc8,
  0x21e1cde6, 0xc33707d6, 0xf4d50d87, 0x455a14ed, 0xa9e3e905, 0xfcefa3f8, 0x676f02d9, 0x8d2a4c8a,
  0xfffa3942, 0x8771f681, 0x6d9d6122, 0xfde5380c, 0xa4beea44, 0x4bdecfa9, 0xf6bb4b60, 0xbebfbc70,
  0x289b7ec6, 0xeaa127fa, 0xd4ef3085, 0x04881d05, 0xd9d4d039, 0xe6db99e5, 0x1fa27cf8, 0xc4ac5665,
  0xf4292244, 0x432aff97, 0xab9423a7, 0xfc93a039, 0x655b59c3, 0x8f0ccc92, 0xffeff47d, 0x85845dd1,
  0x6fa87e4f, 0xfe2ce6e0, 0xa3014314, 0x4e0811a1, 0xf7537e82, 0xbd3af235, 0x2ad7d2bb, 0xeb86d391]

/-- How far each step turns its word, four amounts for each group of sixteen steps. -/
def turns : Array UInt32 := #[7, 12, 17, 22, 5, 9, 14, 20, 4, 11, 16, 23, 6, 10, 15, 21]

/-- A word turned to the left by fewer than 32 bits and at least one. -/
def turnLeft (x amount : UInt32) : UInt32 := (x <<< amount) ||| (x >>> (32 - amount))

/-- Four bytes as a word, the lowest first. -/
def wordAt (data : ByteArray) (start : Nat) : UInt32 :=
  (data.get! start).toUInt32 ||| ((data.get! (start + 1)).toUInt32 <<< 8)
    ||| ((data.get! (start + 2)).toUInt32 <<< 16) ||| ((data.get! (start + 3)).toUInt32 <<< 24)

/-- What step `i` mixes the words with, and which word of the block it takes. -/
def mix (w : Words) (i : Nat) : UInt32 × Nat :=
  if i < 16 then ((w.b &&& w.c) ||| (~~~w.b &&& w.d), i)
  else if i < 32 then ((w.d &&& w.b) ||| (~~~w.d &&& w.c), (5 * i + 1) % 16)
  else if i < 48 then (w.b ^^^ w.c ^^^ w.d, (3 * i + 5) % 16)
  else (w.c ^^^ (w.b ||| ~~~w.d), 7 * i % 16)

/-- One of the sixty-four steps on the block that starts at `start`. -/
def step (data : ByteArray) (start : Nat) (w : Words) (i : Nat) : Words :=
  let (f, k) := mix w i
  let sum := w.a + f + stepConstants[i]! + wordAt data (start + 4 * k)
  ⟨w.d, w.b + turnLeft sum turns[i / 16 * 4 + i % 4]!, w.b, w.c⟩

def stepNumbers : List Nat := List.range 64

/-- Takes the block that starts at `start`. -/
def block (data : ByteArray) (start : Nat) (w : Words) : Words :=
  w.add (stepNumbers.foldl (step data start) w)

def blocks (data : ByteArray) : Nat → Nat → Words → Words
  | _, 0, w => w
  | start, n + 1, w => blocks data (start + 64) n (block data start w)

/-- A digest under way. -/
structure Md5 where
  words : Words := .start
  size : Nat := 0
  waiting : ByteArray := .empty

namespace Md5

def update (m : Md5) (bytes : ByteArray) : Md5 :=
  let data := m.waiting ++ bytes
  let full := data.size / 64
  { words := blocks data 0 full m.words
    size := m.size + bytes.size
    waiting := data.extract (64 * full) data.size }

/-- A number as eight bytes, the lowest first. -/
def eightBytes (n : Nat) : ByteArray :=
  ⟨((List.range 8).map fun i => UInt8.ofNat (n >>> (8 * i))).toArray⟩

/-- What fills the last blocks after `size` bytes: a bit, zeros, and the length in bits. -/
def padding (size : Nat) : ByteArray :=
  let zeros := (119 - size % 64) % 64
  ⟨(0x80 :: List.replicate zeros 0).toArray⟩ ++ eightBytes (8 * size)

def finish (m : Md5) : Words := (m.update (padding m.size)).words

/-- A word as bytes, the lowest first. -/
def wordBytes (w : UInt32) : List UInt8 :=
  [w.toUInt8, (w >>> 8).toUInt8, (w >>> 16).toUInt8, (w >>> 24).toUInt8]

def text (m : Md5) : String :=
  let w := m.finish
  Text.Hex.ofBytes
    ⟨(wordBytes w.a ++ wordBytes w.b ++ wordBytes w.c ++ wordBytes w.d).toArray⟩

end Md5

def md5 (bytes : ByteArray) : String := (({} : Md5).update bytes).text

end ResumableUpload.Digest
