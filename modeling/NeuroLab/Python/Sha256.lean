import NeuroLab.Python.Text

/-!
# SHA-256

`hashlib.sha256`, as FIPS 180-4 describes it: padding to blocks of sixty-four bytes, the
message schedule, and sixty-four rounds a block on eight words of 32 bits.
-/

namespace NeuroLab.Python

namespace Sha256

/-- The constants of the rounds. -/
def roundConstants : List (BitVec 32) :=
  [0x428A2F98, 0x71374491, 0xB5C0FBCF, 0xE9B5DBA5, 0x3956C25B, 0x59F111F1, 0x923F82A4, 0xAB1C5ED5,
    0xD807AA98, 0x12835B01, 0x243185BE, 0x550C7DC3, 0x72BE5D74, 0x80DEB1FE, 0x9BDC06A7, 0xC19BF174,
    0xE49B69C1, 0xEFBE4786, 0x0FC19DC6, 0x240CA1CC, 0x2DE92C6F, 0x4A7484AA, 0x5CB0A9DC, 0x76F988DA,
    0x983E5152, 0xA831C66D, 0xB00327C8, 0xBF597FC7, 0xC6E00BF3, 0xD5A79147, 0x06CA6351, 0x14292967,
    0x27B70A85, 0x2E1B2138, 0x4D2C6DFC, 0x53380D13, 0x650A7354, 0x766A0ABB, 0x81C2C92E, 0x92722C85,
    0xA2BFE8A1, 0xA81A664B, 0xC24B8B70, 0xC76C51A3, 0xD192E819, 0xD6990624, 0xF40E3585, 0x106AA070,
    0x19A4C116, 0x1E376C08, 0x2748774C, 0x34B0BCB5, 0x391C0CB3, 0x4ED8AA4A, 0x5B9CCA4F, 0x682E6FF3,
    0x748F82EE, 0x78A5636F, 0x84C87814, 0x8CC70208, 0x90BEFFFA, 0xA4506CEB, 0xBEF9A3F7, 0xC67178F2]

/-- The eight words of a state. -/
structure Words where
  a : BitVec 32
  b : BitVec 32
  c : BitVec 32
  d : BitVec 32
  e : BitVec 32
  f : BitVec 32
  g : BitVec 32
  h : BitVec 32

/-- The initial state. -/
def initial : Words :=
  ⟨0x6A09E667, 0xBB67AE85, 0x3C6EF372, 0xA54FF53A, 0x510E527F, 0x9B05688C, 0x1F83D9AB, 0x5BE0CD19⟩

/-- One round, with its constant and its word of the schedule. -/
def round (s : Words) (constant word : BitVec 32) : Words :=
  let sum1 := s.e.rotateRight 6 ^^^ s.e.rotateRight 11 ^^^ s.e.rotateRight 25
  let choice := (s.e &&& s.f) ^^^ (~~~s.e &&& s.g)
  let t1 := s.h + sum1 + choice + constant + word
  let sum0 := s.a.rotateRight 2 ^^^ s.a.rotateRight 13 ^^^ s.a.rotateRight 22
  let majority := (s.a &&& s.b) ^^^ (s.a &&& s.c) ^^^ (s.b &&& s.c)
  ⟨t1 + (sum0 + majority), s.a, s.b, s.c, s.d + t1, s.e, s.f, s.g⟩

/-- The next word of the schedule, from the words before it, most recent first. -/
def nextWord (words : List (BitVec 32)) : BitVec 32 :=
  let w2 := words.getD 1 0
  let w15 := words.getD 14 0
  let sigma1 := w2.rotateRight 17 ^^^ w2.rotateRight 19 ^^^ (w2 >>> 10)
  let sigma0 := w15.rotateRight 7 ^^^ w15.rotateRight 18 ^^^ (w15 >>> 3)
  sigma1 + words.getD 6 0 + sigma0 + words.getD 15 0

/-- The schedule, most recent word first, after so many extensions. -/
def extend : ℕ → List (BitVec 32) → List (BitVec 32)
  | 0, words => words
  | n + 1, words => extend n (nextWord words :: words)

/-- Big-endian words of a list of bytes. -/
def readWords : List ℕ → List (BitVec 32)
  | x :: y :: z :: w :: rest => BitVec.ofNat 32 (0x1000000 * x + 0x10000 * y + 0x100 * z + w) :: readWords rest
  | _ => []

/-- The state after a block of sixty-four bytes. -/
def compress (s : Words) (block : List ℕ) : Words :=
  let schedule := (extend 48 (readWords block).reverse).reverse
  let t := (roundConstants.zip schedule).foldl (fun t x => round t x.1 x.2) s
  ⟨s.a + t.a, s.b + t.b, s.c + t.c, s.d + t.d, s.e + t.e, s.f + t.f, s.g + t.g, s.h + t.h⟩

/-- So many bytes of a number, the highest first. -/
def bigEndian : ℕ → ℕ → List ℕ
  | 0, _ => []
  | k + 1, n => bigEndian k (n / 0x100) ++ [n % 0x100]

/-- The padded message. -/
def pad (message : List ℕ) : List ℕ :=
  message ++ 0x80 :: List.replicate ((119 - message.length % 64) % 64) 0 ++ bigEndian 8 (8 * message.length)

/-- Fold so many blocks into a state. -/
def absorb : ℕ → Words → List ℕ → Words
  | 0, s, _ => s
  | n + 1, s, bytes => absorb n (compress s (bytes.take 64)) (bytes.drop 64)

end Sha256

open Sha256 in
/-- `hashlib.sha256(message).hexdigest()`. -/
def sha256 (message : List ℕ) : Str :=
  let padded := pad message
  let s := absorb (padded.length / 64) initial padded
  [s.a, s.b, s.c, s.d, s.e, s.f, s.g, s.h].flatMap fun word => hexDigits 8 word.toNat

/-- A digest has sixty-four lower-case hexadecimal digits. -/
theorem isDigest_sha256 (message : List ℕ) : isDigest (sha256 message) = true := by
  have hlength : (sha256 message).length = 64 := by
    simp [sha256, hexDigits_length]
  have hdigits : (sha256 message).all isLowerHex = true := by
    refine List.all_eq_true.mpr fun c hc => ?_
    obtain ⟨word, -, hword⟩ := List.mem_flatMap.mp hc
    exact isLowerHex_of_mem_hexDigits hword
  simp [isDigest, spans, hlength, hdigits]

example : sha256 (lit "abc") = lit "ba7816bf8f01cfea414140de5dae2223b00361a396177a9cb410ff61f20015ad" := by
  decide +kernel

end NeuroLab.Python
