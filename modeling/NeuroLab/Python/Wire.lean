import NeuroLab.Python.Interpreter
import NeuroLab.Python.Text

/-!
# Texts on the wire

`bytes.decode("utf-8")`, which accepts what `str.encode` writes and nothing else, and
`urllib.parse.urlencode`.
-/

namespace NeuroLab.Python

/-! ## Decoding -/

/-- How many bytes follow the first byte of a character, and the bits it gives. -/
def utf8Lead (a : ℕ) : ℕ × ℕ :=
  if a < 0x80 then (0, a)
  else if a < 0xE0 then (1, a - 0xC0)
  else if a < 0xF0 then (2, a - 0xE0)
  else (3, a - 0xF0)

/-- The character whose encoding starts with a byte, and how many bytes follow it. -/
def utf8Head (a : ℕ) (s : List ℕ) : Option (ℕ × ℕ) :=
  let (n, top) := utf8Lead a
  let c := (s.take n).foldl (fun c b => c * 0x40 + (b - 0x80)) top
  if utf8Char c = some (a :: s.take n) then some (c, n) else none

/-- `bytes.decode("utf-8")`, or its `UnicodeDecodeError`, with a count of the bytes still to drop. -/
def decodeUtf8 : ℕ → List ℕ → Option Str
  | _, [] => some []
  | skip + 1, _ :: s => decodeUtf8 skip s
  | 0, a :: s => do
    let (c, n) ← utf8Head a s
    let rest ← decodeUtf8 n s
    some (c :: rest)

/-- A character is read from its own bytes. -/
theorem utf8Head_of_utf8Char {c a : ℕ} {t : List ℕ} (h : utf8Char c = some (a :: t)) (s : List ℕ) :
    utf8Head a (t ++ s) = some (c, t.length) := by
  have hchar := h
  unfold utf8Char at h
  split at h
  · next hc =>
    cases h
    simp [utf8Head, utf8Lead, hc, hchar]
  split at h
  · cases h
    have hlow : ¬0xC0 + c / 0x40 < 0x80 := by omega
    have hhigh : 0xC0 + c / 0x40 < 0xE0 := by omega
    have hc : c / 0x40 * 0x40 + c % 0x40 = c := by omega
    simp [utf8Head, utf8Lead, hlow, hhigh, hc, hchar]
  split at h
  · cases h
  split at h
  · cases h
    have hlow : ¬0xE0 + c / 0x1000 < 0x80 := by omega
    have hmiddle : ¬0xE0 + c / 0x1000 < 0xE0 := by omega
    have hhigh : 0xE0 + c / 0x1000 < 0xF0 := by omega
    have hc : (c / 0x1000 * 0x40 + c / 0x40 % 0x40) * 0x40 + c % 0x40 = c := by omega
    simp [utf8Head, utf8Lead, hlow, hmiddle, hhigh, hc, hchar]
  split at h
  · cases h
    have hlow : ¬0xF0 + c / 0x40000 < 0x80 := by omega
    have hmiddle : ¬0xF0 + c / 0x40000 < 0xE0 := by omega
    have hhigh : ¬0xF0 + c / 0x40000 < 0xF0 := by omega
    have hc : ((c / 0x40000 * 0x40 + c / 0x1000 % 0x40) * 0x40 + c / 0x40 % 0x40) * 0x40 + c % 0x40 = c := by omega
    simp [utf8Head, utf8Lead, hlow, hmiddle, hhigh, hc, hchar]
  · cases h

/-- A character that was read is the one its bytes encode. -/
theorem utf8Char_of_utf8Head {c a n : ℕ} {s : List ℕ} (h : utf8Head a s = some (c, n)) :
    utf8Char c = some (a :: s.take n) := by
  unfold utf8Head at h
  generalize utf8Lead a = lead at h
  obtain ⟨n', top⟩ := lead
  dsimp only at h
  split at h
  · next hchar =>
    cases h
    exact hchar
  · cases h

/-- Dropped bytes are not decoded. -/
theorem decodeUtf8_skip (n : ℕ) (s : List ℕ) : decodeUtf8 n s = decodeUtf8 0 (s.drop n) := by
  induction s generalizing n with
  | nil => cases n <;> rfl
  | cons a s ih =>
    cases n with
    | zero => rfl
    | succ n => exact ih n

/-- The bytes of a text, character by character. -/
theorem utf8_cons_eq (c : ℕ) (s : Str) :
    utf8 (c :: s) = (utf8Char c).bind fun bytes => (utf8 s).map (bytes ++ ·) := by
  unfold utf8
  rw [List.mapM_cons]
  cases utf8Char c with
  | none => rfl
  | some bytes => cases s.mapM utf8Char <;> rfl

/-- A character has at least one byte. -/
theorem exists_of_utf8Char {c : ℕ} {bytes : List ℕ} (h : utf8Char c = some bytes) : ∃ a t, bytes = a :: t := by
  unfold utf8Char at h
  split at h
  · cases h; exact ⟨_, _, rfl⟩
  split at h
  · cases h; exact ⟨_, _, rfl⟩
  split at h
  · cases h
  split at h
  · cases h; exact ⟨_, _, rfl⟩
  split at h
  · cases h; exact ⟨_, _, rfl⟩
  · cases h

/-- Decoding accepts exactly what encoding writes. -/
theorem decodeUtf8_eq_some_iff {bytes : List ℕ} {s : Str} : decodeUtf8 0 bytes = some s ↔ utf8 s = some bytes := by
  constructor
  · intro h
    induction hlength : bytes.length using Nat.strong_induction_on generalizing bytes s with
    | _ length ih =>
    cases bytes with
    | nil =>
      cases h
      rfl
    | cons a rest =>
      simp only [decodeUtf8, Option.bind_eq_bind, Option.bind_eq_some_iff] at h
      obtain ⟨⟨c, n⟩, hhead, text, htext, heq⟩ := h
      cases heq
      rw [decodeUtf8_skip] at htext
      have hrest := ih (rest.drop n).length (by simp [← hlength]) htext rfl
      rw [utf8_cons_eq, utf8Char_of_utf8Head hhead, hrest]
      simp
  · intro h
    induction s generalizing bytes with
    | nil =>
      cases h
      rfl
    | cons c s ih =>
      rw [utf8_cons_eq] at h
      obtain ⟨head, hhead, h⟩ := Option.bind_eq_some_iff.mp h
      obtain ⟨rest, hrest, rfl⟩ := Option.map_eq_some_iff.mp h
      obtain ⟨a, t, rfl⟩ := exists_of_utf8Char hhead
      have htext : decodeUtf8 t.length (t ++ rest) = some s := by
        rw [decodeUtf8_skip, List.drop_left]
        exact ih hrest
      rw [List.cons_append, decodeUtf8, utf8Head_of_utf8Char hhead rest]
      simp [htext]

/-! ## Query strings -/

/-- A hexadecimal digit as `quote` writes it. -/
def upperHexDigit (n : ℕ) : ℕ := if n < 10 then n + 0x30 else n - 10 + 0x41

/-- One byte of `quote_plus`. -/
def quoteByte (b : ℕ) : Str :=
  if b = 0x20 then [0x2B]
  else if isLetter b || isDigit b || b ∈ lit "_.-~" then [b]
  else [0x25, upperHexDigit (b / 16), upperHexDigit (b % 16)]

/-- `quote_plus(text)`, or its `UnicodeEncodeError`. -/
def quotePlus (s : Str) : Option Str := (utf8 s).map fun bytes => bytes.flatMap quoteByte

/-- One parameter of a query string. -/
def quoteParam (param : Str × Str) : Option Str := do
  let name ← quotePlus param.1
  let value ← quotePlus param.2
  some (name ++ 0x3D :: value)

/-- `urlencode(params)`. -/
def urlencode (params : List (Str × Str)) : Option Str := (params.mapM quoteParam).map [0x26].intercalate

/-- Parameters are encoded exactly if their texts are. -/
theorem isSome_urlencode_iff {params : List (Str × Str)} :
    (urlencode params).isSome ↔ ∀ param ∈ params, (utf8 param.1).isSome ∧ (utf8 param.2).isSome := by
  have hparam : ∀ param, (quoteParam param).isSome ↔ (utf8 param.1).isSome ∧ (utf8 param.2).isSome := by
    intro param
    unfold quoteParam quotePlus
    cases utf8 param.1 <;> cases utf8 param.2 <;> simp
  simp only [urlencode, Option.isSome_map, isSome_mapM_iff, hparam]

end NeuroLab.Python
