import NeuroLab.Python.Sha256

/-!
# HMAC, SHA-1 and named UUIDs

`hmac.new(key, message, "sha256")` over SHA-256, and `uuid.uuid5`, which takes its bits from
the SHA-1 of a namespace and a name.
-/

namespace NeuroLab.Python

open Sha256

/-- `bytes.fromhex`, for the digits of a digest. -/
def unhex : Str → List ℕ
  | c :: d :: s => ((hexValue c).getD 0 * 16 + (hexValue d).getD 0) :: unhex s
  | _ => []

/-- `hmac.new(key, message, "sha256").hexdigest()`. -/
def hmacSha256 (key message : List ℕ) : Str :=
  let key := if 64 < key.length then unhex (sha256 key) else key
  let block := key ++ List.replicate (64 - key.length) 0
  sha256 (block.map (0x5C ^^^ ·) ++ unhex (sha256 (block.map (0x36 ^^^ ·) ++ message)))

example : hmacSha256 (lit "Jefe") (lit "what do ya want for nothing?") =
    lit "5bdcc146bf60754e6a042426089575c75a003f089d2739839dec58b964ec3843" := by
  decide +kernel

theorem isDigest_hmacSha256 (key message : List ℕ) : isDigest (hmacSha256 key message) = true := isDigest_sha256 _

namespace Sha1

/-- The five words of a state. -/
structure Words where
  a : BitVec 32
  b : BitVec 32
  c : BitVec 32
  d : BitVec 32
  e : BitVec 32

/-- The initial state. -/
def initial : Words := ⟨0x67452301, 0xEFCDAB89, 0x98BADCFE, 0x10325476, 0xC3D2E1F0⟩

/-- The function and the constant of a round. -/
def mix (t : ℕ) (b c d : BitVec 32) : BitVec 32 :=
  if t < 20 then ((b &&& c) ||| (~~~b &&& d)) + 0x5A827999
  else if t < 40 then (b ^^^ c ^^^ d) + 0x6ED9EBA1
  else if t < 60 then ((b &&& c) ||| (b &&& d) ||| (c &&& d)) + 0x8F1BBCDC
  else (b ^^^ c ^^^ d) + 0xCA62C1D6

/-- One round, with its number and its word of the schedule. -/
def round (s : Words) (word : BitVec 32 × ℕ) : Words :=
  ⟨s.a.rotateLeft 5 + mix word.2 s.b s.c s.d + s.e + word.1, s.a, s.b.rotateLeft 30, s.c, s.d⟩

/-- The schedule, most recent word first, after so many extensions. -/
def extend : ℕ → List (BitVec 32) → List (BitVec 32)
  | 0, words => words
  | n + 1, words =>
    extend n ((words.getD 2 0 ^^^ words.getD 7 0 ^^^ words.getD 13 0 ^^^ words.getD 15 0).rotateLeft 1 :: words)

/-- The state after a block of sixty-four bytes. -/
def compress (s : Words) (block : List ℕ) : Words :=
  let schedule := (extend 64 (readWords block).reverse).reverse
  let t := schedule.zipIdx.foldl round s
  ⟨s.a + t.a, s.b + t.b, s.c + t.c, s.d + t.d, s.e + t.e⟩

/-- Fold so many blocks into a state. -/
def absorb : ℕ → Words → List ℕ → Words
  | 0, s, _ => s
  | n + 1, s, bytes => absorb n (compress s (bytes.take 64)) (bytes.drop 64)

end Sha1

/-- `hashlib.sha1(message).digest()`. -/
def sha1 (message : List ℕ) : List ℕ :=
  let padded := pad message
  let s := Sha1.absorb (padded.length / 64) Sha1.initial padded
  [s.a, s.b, s.c, s.d, s.e].flatMap fun word => bigEndian 4 word.toNat

/-- `uuid.NAMESPACE_URL`. -/
def namespaceUrl : Uuid := 0x6BA7B8119DAD11D180B400C04FD430C8

/-- `uuid.uuid5`, of a name in its bytes. -/
def uuid5 (space : Uuid) (name : List ℕ) : Uuid :=
  let bits := ((sha1 (bigEndian 16 space.toNat ++ name)).take 16).foldl (fun n byte => n * 0x100 + byte) 0
  (BitVec.ofNat 128 bits &&& 0xFFFFFFFFFFFF0FFF3FFFFFFFFFFFFFFF) ||| 0x00000000000050008000000000000000

example : uuidText (uuid5 namespaceUrl (lit "neurolab")) = lit "3926f9d7-c4e6-5dcf-a255-2f037d654514" := by
  decide +kernel

end NeuroLab.Python
