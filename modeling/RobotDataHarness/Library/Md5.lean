import Mathlib.Algebra.Group.Nat.Defs
import Mathlib.Tactic.Common

/-!
# MD5

The message digest of a text, as the 32 hexadecimal digits that database functions and
hash libraries return.  Words of 32 bits are natural numbers below `2 ^ 32`.
-/

namespace RobotDataHarness.Library

namespace Md5

/-- The number of values of a word. -/
def wordSize : ℕ := 2 ^ 32

/-- The complement of a word. -/
def complement (x : ℕ) : ℕ := wordSize - 1 - x

/-- A word rotated left by `s` bits. -/
def rotateLeft (x s : ℕ) : ℕ := (x <<< s ||| x >>> (32 - s)) % wordSize

/-- The constants of the 64 operations: `⌊2 ^ 32 * |sin (i + 1)|⌋`. -/
def sines : List ℕ :=
  [0xd76aa478, 0xe8c7b756, 0x242070db, 0xc1bdceee, 0xf57c0faf, 0x4787c62a, 0xa8304613, 0xfd469501,
   0x698098d8, 0x8b44f7af, 0xffff5bb1, 0x895cd7be, 0x6b901122, 0xfd987193, 0xa679438e, 0x49b40821,
   0xf61e2562, 0xc040b340, 0x265e5a51, 0xe9b6c7aa, 0xd62f105d, 0x02441453, 0xd8a1e681, 0xe7d3fbc8,
   0x21e1cde6, 0xc33707d6, 0xf4d50d87, 0x455a14ed, 0xa9e3e905, 0xfcefa3f8, 0x676f02d9, 0x8d2a4c8a,
   0xfffa3942, 0x8771f681, 0x6d9d6122, 0xfde5380c, 0xa4beea44, 0x4bdecfa9, 0xf6bb4b60, 0xbebfbc70,
   0x289b7ec6, 0xeaa127fa, 0xd4ef3085, 0x04881d05, 0xd9d4d039, 0xe6db99e5, 0x1fa27cf8, 0xc4ac5665,
   0xf4292244, 0x432aff97, 0xab9423a7, 0xfc93a039, 0x655b59c3, 0x8f0ccc92, 0xffeff47d, 0x85845dd1,
   0x6fa87e4f, 0xfe2ce6e0, 0xa3014314, 0x4e0811a1, 0xf7537e82, 0xbd3af235, 0x2ad7d2bb, 0xeb86d391]

/-- The rotations of the 64 operations. -/
def shifts : List ℕ :=
  (List.replicate 4 [7, 12, 17, 22] ++ List.replicate 4 [5, 9, 14, 20] ++
    List.replicate 4 [4, 11, 16, 23] ++ List.replicate 4 [6, 10, 15, 21]).flatten

/-- The chaining value. -/
structure Chain where
  a : ℕ
  b : ℕ
  c : ℕ
  d : ℕ

/-- Operation `i` on a block of 16 words. -/
def operation (block : List ℕ) (s : Chain) (i : ℕ) : Chain :=
  let (mixed, word) :=
    if i < 16 then ((s.b &&& s.c) ||| (complement s.b &&& s.d), i)
    else if i < 32 then ((s.d &&& s.b) ||| (complement s.d &&& s.c), (5 * i + 1) % 16)
    else if i < 48 then (s.b ^^^ s.c ^^^ s.d, (3 * i + 5) % 16)
    else (s.c ^^^ (s.b ||| complement s.d), 7 * i % 16)
  let sum := (mixed + s.a + sines.getD i 0 + block.getD word 0) % wordSize
  ⟨s.d, (s.b + rotateLeft sum (shifts.getD i 0)) % wordSize, s.b, s.c⟩

/-- One block added to the chaining value. -/
def compress (s : Chain) (block : List ℕ) : Chain :=
  let t := (List.range 64).foldl (operation block) s
  ⟨(s.a + t.a) % wordSize, (s.b + t.b) % wordSize, (s.c + t.c) % wordSize, (s.d + t.d) % wordSize⟩

/-- Bytes read as one number, the lowest first. -/
def ofLittleEndian (bytes : List ℕ) : ℕ := bytes.foldr (fun b acc => b + 256 * acc) 0

/-- The lowest `k` bytes of a number, the lowest first. -/
def toLittleEndian (n : ℕ) : ℕ → List ℕ
  | 0 => []
  | k + 1 => n % 256 :: toLittleEndian (n / 256) k

/-- The first `k` pieces of `n` elements. -/
def pieces (n : ℕ) : ℕ → List ℕ → List (List ℕ)
  | 0, _ => []
  | k + 1, xs => xs.take n :: pieces n k (xs.drop n)

/-- A message filled up to whole blocks of 64 bytes, its length in bits at the end. -/
def pad (bytes : List ℕ) : List ℕ :=
  bytes ++ 0x80 :: List.replicate ((119 - bytes.length % 64) % 64) 0 ++
    toLittleEndian (8 * bytes.length) 8

/-- The sixteen bytes of the digest. -/
def digest (bytes : List ℕ) : List ℕ :=
  let padded := pad bytes
  let s := (pieces 64 (padded.length / 64) padded).foldl
    (fun s block => compress s ((pieces 4 16 block).map ofLittleEndian))
    ⟨0x67452301, 0xefcdab89, 0x98badcfe, 0x10325476⟩
  toLittleEndian s.a 4 ++ toLittleEndian s.b 4 ++ toLittleEndian s.c 4 ++ toLittleEndian s.d 4

/-- The two hexadecimal digits of a byte. -/
def hexByte (b : ℕ) : List Char := [Nat.digitChar (b / 16), Nat.digitChar (b % 16)]

end Md5

/-- The hexadecimal MD5 digest of the UTF-8 encoding of a text. -/
def md5 (text : String) : String :=
  let bytes := (text.toList.flatMap String.utf8EncodeChar).map UInt8.toNat
  String.ofList ((Md5.digest bytes).flatMap Md5.hexByte)

set_option maxRecDepth 4000 in
example : md5 "" = "d41d8cd98f00b204e9800998ecf8427e" := by decide +kernel

set_option maxRecDepth 4000 in
example : md5 "The quick brown fox jumps over the lazy dog" =
    "9e107d9d372bb6826bd81d3542a419d6" := by
  decide +kernel

end RobotDataHarness.Library
