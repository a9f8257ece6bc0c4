import Mathlib.Data.List.Basic
import NeuroLab.Python.Uuid

/-!
# Strings

The string methods of the standard library that the program's text rules are made of:
whitespace and `split`, case folding, UTF-8, and the bounded patterns of its regular
expressions. The folding of characters outside ASCII is the interpreter's Unicode
database, which is taken as given.
-/

namespace NeuroLab.Python

/-! ## Whitespace -/

/-- `str.isspace` of one character. -/
def isSpace (c : ℕ) : Bool := isAsciiSpace c || (0x1C ≤ c && c ≤ 0x1F) || isWideSpace c

/-- `text.split()`. -/
def splitSpace (s : Str) : List Str := (s.splitOnP isSpace).filter fun word => !word.isEmpty

/-- `" ".join(words)`. -/
def joinSpace (words : List Str) : Str := [0x20].intercalate words

theorem joinSpace_singleton (s : Str) : joinSpace [s] = s := by
  simp [joinSpace, List.intercalate]

/-! ## Case -/

/-- `str.lower` of an ASCII character; others are left alone. -/
def asciiLower (c : ℕ) : ℕ := if 0x41 ≤ c ∧ c ≤ 0x5A then c + 0x20 else c

/-- The case folding of single characters, which in ASCII lowers the capitals. -/
structure CaseFolding where
  fold : ℕ → Str
  fold_ascii : ∀ c, c < 0x80 → fold c = [asciiLower c]

/-- Case folding in ASCII only. -/
def CaseFolding.ascii : CaseFolding where
  fold c := [asciiLower c]
  fold_ascii _ _ := rfl

/-- `text.casefold()`. -/
def CaseFolding.casefold (folding : CaseFolding) (s : Str) : Str := s.flatMap folding.fold

theorem asciiLower_lt {c : ℕ} (h : c < 0x80) : asciiLower c < 0x80 := by
  unfold asciiLower
  split
  · omega
  · exact h

/-! ## UTF-8 -/

/-- The bytes of one character; a surrogate has none. -/
def utf8Char (c : ℕ) : Option (List ℕ) :=
  if c < 0x80 then some [c]
  else if c < 0x800 then some [0xC0 + c / 0x40, 0x80 + c % 0x40]
  else if 0xD800 ≤ c ∧ c ≤ 0xDFFF then none
  else if c < 0x10000 then some [0xE0 + c / 0x1000, 0x80 + c / 0x40 % 0x40, 0x80 + c % 0x40]
  else if c < 0x110000 then
    some [0xF0 + c / 0x40000, 0x80 + c / 0x1000 % 0x40, 0x80 + c / 0x40 % 0x40, 0x80 + c % 0x40]
  else none

/-- `text.encode("utf-8")`, or the `UnicodeEncodeError` of a surrogate. -/
def utf8 (s : Str) : Option (List ℕ) := (s.mapM utf8Char).map List.flatten

/-! ## Patterns -/

/-- One or more characters of a class, as many as there are. -/
def dropPlus (p : ℕ → Bool) (s : Str) : Option Str :=
  if (s.takeWhile p).isEmpty then none else some (s.dropWhile p)

/-- Whether a text has between so many characters, all of a class. -/
def spans (least most : ℕ) (p : ℕ → Bool) (s : Str) : Bool :=
  decide (least ≤ s.length) && decide (s.length ≤ most) && s.all p

/-- Neither a carriage return nor a line feed. -/
def isInline (c : ℕ) : Bool := c ≠ 0x0D && c ≠ 0x0A

/-- `[0-9a-f]{64}`. -/
def isDigest (s : Str) : Bool := spans 64 64 isLowerHex s

/-- A digest has sixty-four characters, all of them digits. -/
theorem isDigest_iff {s : Str} : isDigest s = true ↔ s.length = 64 ∧ ∀ c ∈ s, isLowerHex c = true := by
  rw [isDigest, spans, Bool.and_eq_true, Bool.and_eq_true, decide_eq_true_eq, decide_eq_true_eq, List.all_eq_true,
    and_comm (a := 64 ≤ s.length), ← le_antisymm_iff]

/-- An ASCII letter. -/
def isLetter (c : ℕ) : Bool := (0x41 ≤ c && c ≤ 0x5A) || (0x61 ≤ c && c ≤ 0x7A)

/-- Whether the text starts with a word. -/
def startsWith (word s : Str) : Bool := (after? word s).isSome

end NeuroLab.Python
