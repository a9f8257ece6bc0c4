import NeuroLab.Python.FlatJson
import NeuroLab.Python.Interpreter
import NeuroLab.Python.Text
import NeuroLab.Python.Uuid

/-!
# Texts in ASCII

`json.dumps` escapes what is not in ASCII unless it is told otherwise. A text in ASCII is
left as it is, and it is its own encoding in UTF-8.
-/

namespace NeuroLab.Python

/-- The `\u` escape of sixteen bits. -/
def unicodeEscape (n : ℕ) : Str := 0x5C :: 0x75 :: hexDigits 4 n

/-- `ensure_ascii`, on a text that is escaped otherwise. -/
def ensureAscii (s : Str) : Str :=
  s.flatMap fun c =>
    if c < 0x7F then [c]
    else if c < 0x10000 then unicodeEscape c
    else unicodeEscape (0xD800 + (c - 0x10000) / 0x400) ++ unicodeEscape (0xDC00 + (c - 0x10000) % 0x400)

theorem ensureAscii_of_ascii {s : Str} (h : Ascii s) : ensureAscii s = s := by
  induction s with
  | nil => rfl
  | cons c s ih =>
    obtain ⟨hc, hs⟩ := List.forall_mem_cons.mp h
    have hrest : ensureAscii s = s := ih hs
    rw [ensureAscii] at hrest ⊢
    rw [List.flatMap_cons, if_pos hc, hrest]
    rfl

theorem ascii_ensureAscii (s : Str) : Ascii (ensureAscii s) := by
  have hhex : ∀ n, Ascii (hexDigits 4 n) := fun n c hc => by
    have hdigit := isLowerHex_of_mem_hexDigits hc
    simp only [isLowerHex, Bool.or_eq_true, Bool.and_eq_true, decide_eq_true_eq] at hdigit
    omega
  have hescape : ∀ n, Ascii (unicodeEscape n) := fun n => .cons (by decide) (.cons (by decide) (hhex n))
  intro c hc
  obtain ⟨d, -, hd⟩ := List.mem_flatMap.mp hc
  split at hd
  next hlow => exact List.mem_singleton.mp hd ▸ hlow
  next =>
    split at hd
    · exact hescape d c hd
    · exact ((hescape _).append (hescape _)) c hd

theorem utf8_of_ascii {s : Str} (h : Ascii s) : utf8 s = some s := by
  have hchars : s.mapM utf8Char = some (s.map fun c => [c]) := by
    refine mapM_eq_some_iff.mpr ?_
    rw [List.map_map]
    refine List.map_congr_left fun c hc => if_pos ?_
    have hc := h c hc
    omega
  rw [utf8, hchars, Option.map_some, ← List.flatMap_def, List.flatMap_singleton']

theorem ascii_uuidText (u : Uuid) : Ascii (uuidText u) := by
  intro c hc
  rcases mem_uuidText hc with hhex | rfl
  · simp only [isLowerHex, Bool.or_eq_true, Bool.and_eq_true, decide_eq_true_eq] at hhex
    omega
  · decide

/-- A literal is in ASCII if its characters are. -/
theorem Ascii.of_chars {text : String} {chars : List Char} (htext : String.ofList chars = text)
    (h : (chars.all fun c => decide (c.toNat < 0x7F)) = true) : Ascii (lit text) := by
  subst htext
  unfold lit Ascii
  rw [String.toList_ofList]
  exact List.forall_mem_map.mpr fun c hc => of_decide_eq_true (List.all_eq_true.mp h c hc)

theorem Ascii.intercalate {separator : Str} (hseparator : Ascii separator) {pieces : List Str} (h : ∀ s ∈ pieces, Ascii s) :
    Ascii (separator.intercalate pieces) := by
  induction pieces with
  | nil => exact nofun
  | cons s pieces ih =>
    obtain ⟨hs, hpieces⟩ := List.forall_mem_cons.mp h
    cases pieces with
    | nil => simpa [List.intercalate] using hs
    | cons t pieces =>
      rw [List.intercalate_cons_cons]
      exact (hs.append hseparator).append (ih hpieces)

end NeuroLab.Python
