import NeuroLab.Python.Dates
import NeuroLab.Python.LetterCase
import NeuroLab.Research.Items
import NeuroLab.Research.Schema

/-!
# The address of a publisher's file, in Python and in SQL

`_STATIC_PATH` ignores case and takes digits of any script; the CHECK of `documents.document_url`
is for lower-case ASCII. A path that the first accepts passes the second exactly if it is made of
ASCII characters without capital letters.
-/

namespace NeuroLab.Research

open Python

/-! ## Patterns -/

/-- A character under `re.IGNORECASE` stands for a letter of a pattern in lower case: what it is lowered to is the
letter, or Unicode takes the two for cases of one letter. -/
def ignoresCase (letter c : ℕ) : Bool :=
  asciiLower c = letter || (letter = 0x69 && (c = 0x130 || c = 0x131)) || (letter = 0x73 && c = 0x17F) ||
    (letter = 0x6B && c = 0x212A)

/-- The rest of a text behind a word, under `re.IGNORECASE`. -/
def afterIgnoringCase? : Str → Str → Option Str
  | [], s => some s
  | _ :: _, [] => none
  | letter :: word, c :: s => if ignoresCase letter c then afterIgnoringCase? word s else none

/-- `[0-9a-f]` under `re.IGNORECASE`. -/
def isHexIgnoringCase (c : ℕ) : Bool := isLowerHex (asciiLower c)

/-- `[0-9a-f]{8}(?:-[0-9a-f]{4}){3}-[0-9a-f]{12}` under `re.IGNORECASE`, and the rest. -/
def dropUuidIgnoringCase (s : Str) : Option Str := do
  let s ← dropRun 8 8 isHexIgnoringCase s
  let s ← after? (lit "-") s
  let s ← dropRun 4 4 isHexIgnoringCase s
  let s ← after? (lit "-") s
  let s ← dropRun 4 4 isHexIgnoringCase s
  let s ← after? (lit "-") s
  let s ← dropRun 4 4 isHexIgnoringCase s
  let s ← after? (lit "-") s
  dropRun 12 12 isHexIgnoringCase s

/-- `_STATIC_PATH`, over the whole text. -/
def isStaticPath (s : Str) : Bool :=
  let rest := do
    let s ← afterIgnoringCase? (lit "/manuscripts/") s
    let s ← dropRun 1 12 isDecimal s
    let s ← after? (lit "/") s
    let s ← dropUuidIgnoringCase s
    let s ← afterIgnoringCase? (lit "_f1000res") s
    let s ← dropRun 1 12 isDecimal s
    afterIgnoringCase? (lit ".pdf") s
  rest = some []

/-- ASCII characters, none of them a capital letter. -/
def LowerAscii (s : Str) : Prop := ∀ c ∈ s, c < 0x80 ∧ asciiLower c = c

instance (s : Str) : Decidable (LowerAscii s) := inferInstanceAs (Decidable (∀ c ∈ s, c < 0x80 ∧ asciiLower c = c))

namespace LowerAscii

@[simp] theorem append_iff {s t : Str} : LowerAscii (s ++ t) ↔ LowerAscii s ∧ LowerAscii t := List.forall_mem_append

end LowerAscii

variable {p : ℕ → Bool} {s rest : Str}

/-- A run up to a character outside the class. -/
theorem dropPlus_append {run : Str} (hne : run ≠ []) (hrun : ∀ c ∈ run, p c = true)
    (hrest : ∀ c ∈ rest.head?, p c = false) : dropPlus p (run ++ rest) = some rest := by
  have htake : (run ++ rest).takeWhile p = run := by
    rw [List.takeWhile_append_of_pos hrun]
    cases rest with
    | nil => exact List.append_nil _
    | cons c rest => rw [List.takeWhile_cons_of_neg (by simp [hrest c rfl]), List.append_nil]
  have hdrop : (run ++ rest).dropWhile p = rest := by
    have happend := List.takeWhile_append_dropWhile (p := p) (l := run ++ rest)
    rw [htake] at happend
    exact List.append_cancel_left happend
  rw [dropPlus, htake, hdrop, if_neg (by simpa using hne)]

/-- What was dropped is a run. -/
theorem exists_of_dropPlus (h : dropPlus p s = some rest) : ∃ run, s = run ++ rest ∧ ∀ c ∈ run, p c = true := by
  unfold dropPlus at h
  split at h
  · cases h
  · cases h
    exact ⟨s.takeWhile p, List.takeWhile_append_dropWhile.symm, fun c hc => List.mem_takeWhile_imp hc⟩

/-- What was dropped is a run of a length within the bounds. -/
theorem exists_of_dropRun {least most : ℕ} (h : dropRun least most p s = some rest) :
    ∃ run, s = run ++ rest ∧ least ≤ run.length ∧ ∀ c ∈ run, p c = true := by
  unfold dropRun at h
  simp only at h
  split at h
  · next hlength =>
    cases h
    exact ⟨s.takeWhile p, List.takeWhile_append_dropWhile.symm, hlength.1, fun c hc => List.mem_takeWhile_imp hc⟩
  · cases h

/-- What was read stands for the word, and is the word where no capital letter is. -/
theorem exists_of_afterIgnoringCase? {word : Str} (h : afterIgnoringCase? word s = some rest) :
    ∃ read, s = read ++ rest ∧ (LowerAscii read → read = word) := by
  induction word generalizing s with
  | nil =>
    cases h
    exact ⟨[], rfl, fun _ => rfl⟩
  | cons letter word ih =>
    cases s with
    | nil => cases h
    | cons c s =>
      rw [afterIgnoringCase?] at h
      split at h
      · next hc =>
        obtain ⟨read, rfl, hread⟩ := ih h
        refine ⟨c :: read, rfl, fun hlower => ?_⟩
        obtain ⟨⟨hascii, hcapital⟩, hlower⟩ := List.forall_mem_cons.mp hlower
        rw [hread hlower]
        simp only [ignoresCase, hcapital, Bool.or_eq_true, Bool.and_eq_true, decide_eq_true_eq] at hc
        have hletter : c = letter := by omega
        rw [hletter]
      · cases h

/-! ## The two patterns -/

/-- A character of a file's name. -/
def isNamePart (c : ℕ) : Bool := isLowerHex c || c = 0x2D

/-- A digit of any script in ASCII is a digit. -/
theorem isDigit_of_isDecimal {c : ℕ} (h : isDecimal c = true) (hascii : c < 0x80) : isDigit c = true := by
  have hzeros : ∀ z ∈ decimalZeros, 0x80 ≤ z := by decide
  rw [isDecimal, Bool.or_eq_true] at h
  refine h.resolve_right fun hother => ?_
  obtain ⟨z, hz, hc⟩ := List.any_eq_true.mp hother
  rw [Bool.and_eq_true, decide_eq_true_eq, decide_eq_true_eq] at hc
  have hlow := hzeros z hz
  omega

/-- What stands for an identifier is made of characters of a name where no capital letter is. -/
theorem exists_of_dropUuidIgnoringCase (h : dropUuidIgnoringCase s = some rest) :
    ∃ name, s = name ++ rest ∧ name ≠ [] ∧ (LowerAscii name → ∀ c ∈ name, isNamePart c = true) := by
  have hgroup : ∀ {n s rest}, dropRun n n isHexIgnoringCase s = some rest →
      ∃ run, s = run ++ rest ∧ n ≤ run.length ∧ (LowerAscii run → ∀ c ∈ run, isNamePart c = true) := by
    intro n s rest h
    obtain ⟨run, hrun, hlength, hhex⟩ := exists_of_dropRun h
    refine ⟨run, hrun, hlength, fun hlower c hc => ?_⟩
    have hlow := hhex c hc
    rw [isHexIgnoringCase, (hlower c hc).2] at hlow
    rw [isNamePart, hlow, Bool.true_or]
  simp only [dropUuidIgnoringCase, Option.bind_eq_bind, Option.bind_eq_some_iff, after?_eq_some_iff] at h
  obtain ⟨_, h₁, _, rfl, _, h₂, _, rfl, _, h₃, _, rfl, _, h₄, _, rfl, h₅⟩ := h
  obtain ⟨g₁, rfl, hlength, hg₁⟩ := hgroup h₁
  obtain ⟨g₂, hs₂, -, hg₂⟩ := hgroup h₂
  obtain ⟨g₃, hs₃, -, hg₃⟩ := hgroup h₃
  obtain ⟨g₄, hs₄, -, hg₄⟩ := hgroup h₄
  obtain ⟨g₅, hs₅, -, hg₅⟩ := hgroup h₅
  refine ⟨g₁ ++ lit "-" ++ g₂ ++ lit "-" ++ g₃ ++ lit "-" ++ g₄ ++ lit "-" ++ g₅, ?_, ?_, fun hlower => ?_⟩
  · simp only [hs₂, hs₃, hs₄, hs₅, List.append_assoc]
  · rintro hnil
    simp only [List.append_eq_nil_iff] at hnil
    simp [hnil] at hlength
  · have hdash : ∀ c ∈ lit "-", isNamePart c = true := by decide
    simp only [LowerAscii.append_iff] at hlower
    obtain ⟨⟨⟨⟨⟨⟨⟨⟨hlower₁, -⟩, hlower₂⟩, -⟩, hlower₃⟩, -⟩, hlower₄⟩, -⟩, hlower₅⟩ := hlower
    simp only [List.forall_mem_append]
    exact ⟨⟨⟨⟨⟨⟨⟨⟨hg₁ hlower₁, hdash⟩, hg₂ hlower₂⟩, hdash⟩, hg₃ hlower₃⟩, hdash⟩, hg₄ hlower₄⟩, hdash⟩, hg₅ hlower₅⟩

/-- An address that the CHECK takes is made of printed ASCII characters without capital letters. -/
theorem forall_mem_of_isF1000Pdf (h : isF1000Pdf s = true) : ∀ c ∈ s, 0x20 < c ∧ c < 0x80 ∧ asciiLower c = c := by
  have hdigits : ∀ {run : Str}, (∀ c ∈ run, isDigit c = true) → ∀ c ∈ run, 0x20 < c ∧ c < 0x80 ∧ asciiLower c = c := by
    intro run hrun c hc
    have hdigit := hrun c hc
    simp only [isDigit, Bool.and_eq_true, decide_eq_true_eq] at hdigit
    exact ⟨by omega, by omega, if_neg (by omega)⟩
  have hname : ∀ {run : Str}, (∀ c ∈ run, isNamePart c = true) → ∀ c ∈ run, 0x20 < c ∧ c < 0x80 ∧ asciiLower c = c := by
    intro run hrun c hc
    have hpart := hrun c hc
    simp only [isNamePart, isLowerHex, Bool.or_eq_true, Bool.and_eq_true, decide_eq_true_eq] at hpart
    exact ⟨by omega, by omega, if_neg (by omega)⟩
  rw [isF1000Pdf, decide_eq_true_eq] at h
  simp only [Option.bind_eq_bind, Option.bind_eq_some_iff, after?_eq_some_iff] at h
  obtain ⟨_, rfl, _, h₁, _, rfl, _, h₂, _, rfl, h₃⟩ := h
  obtain ⟨d₁, rfl, hd₁⟩ := exists_of_dropPlus h₁
  obtain ⟨name, rfl, hpart⟩ := exists_of_dropPlus h₂
  obtain ⟨d₂, rfl, hd₂⟩ := exists_of_dropPlus h₃
  simp only [List.forall_mem_append]
  exact ⟨by decide +kernel, hdigits hd₁, by decide +kernel, hname hpart, by decide +kernel, hdigits hd₂,
    by decide +kernel⟩

/-- A path that the program accepts is an address that the CHECK takes, exactly if it is made of ASCII characters
without capital letters. -/
theorem isF1000Pdf_static_iff (h : isStaticPath s = true) :
    isF1000Pdf (lit "https://f1000research-files.f1000.com" ++ s) = true ↔ LowerAscii s := by
  constructor
  · exact fun hurl c hc => (forall_mem_of_isF1000Pdf hurl c (List.mem_append_right _ hc)).2
  intro hlower
  rw [isStaticPath, decide_eq_true_eq] at h
  simp only [Option.bind_eq_bind, Option.bind_eq_some_iff, after?_eq_some_iff] at h
  obtain ⟨_, h₁, _, h₂, _, rfl, _, h₃, _, h₄, _, h₅, h₆⟩ := h
  obtain ⟨word₁, rfl, hword₁⟩ := exists_of_afterIgnoringCase? h₁
  obtain ⟨d₁, rfl, hlength₁, hd₁⟩ := exists_of_dropRun h₂
  obtain ⟨name, rfl, hne, hname⟩ := exists_of_dropUuidIgnoringCase h₃
  obtain ⟨word₂, rfl, hword₂⟩ := exists_of_afterIgnoringCase? h₄
  obtain ⟨d₂, rfl, hlength₂, hd₂⟩ := exists_of_dropRun h₅
  obtain ⟨word₃, rfl, hword₃⟩ := exists_of_afterIgnoringCase? h₆
  simp only [LowerAscii.append_iff] at hlower
  obtain ⟨hlower₁, hdigits₁, -, hlowerName, hlower₂, hdigits₂, hlower₃, -⟩ := hlower
  obtain rfl := hword₁ hlower₁
  obtain rfl := hword₂ hlower₂
  obtain rfl := hword₃ hlower₃
  have hfront : after? (lit "https://f1000research-files.f1000.com/manuscripts/")
      (lit "https://f1000research-files.f1000.com" ++ (lit "/manuscripts/" ++ (d₁ ++ (lit "/" ++ (name ++
        (lit "_f1000res" ++ (d₂ ++ (lit ".pdf" ++ [])))))))) =
      some (d₁ ++ (lit "/" ++ (name ++ (lit "_f1000res" ++ (d₂ ++ (lit ".pdf" ++ [])))))) := by
    rw [after?_eq_some_iff, ← List.append_assoc]
    rfl
  have hrun₁ : ∀ c ∈ d₁, isDigit c = true := fun c hc => isDigit_of_isDecimal (hd₁ c hc) (hdigits₁ c hc).1
  have hrun₂ : ∀ c ∈ d₂, isDigit c = true := fun c hc => isDigit_of_isDecimal (hd₂ c hc) (hdigits₂ c hc).1
  have hdrop₁ : ∀ t, dropPlus isDigit (d₁ ++ (lit "/" ++ t)) = some (lit "/" ++ t) := fun t =>
    dropPlus_append (List.ne_nil_of_length_pos hlength₁) hrun₁ fun c hc => by
      cases hc
      rfl
  have hdropName : ∀ t, dropPlus (fun c => isLowerHex c || decide (c = 0x2D)) (name ++ (lit "_f1000res" ++ t)) =
      some (lit "_f1000res" ++ t) := fun t =>
    dropPlus_append hne (hname hlowerName) fun c hc => by
      cases hc
      rfl
  have hdrop₂ : ∀ t, dropPlus isDigit (d₂ ++ (lit ".pdf" ++ t)) = some (lit ".pdf" ++ t) := fun t =>
    dropPlus_append (List.ne_nil_of_length_pos hlength₂) hrun₂ fun c hc => by
      cases hc
      rfl
  have hafter : ∀ word t, after? word (word ++ t) = some t := fun word t => after?_eq_some_iff.mpr rfl
  rw [isF1000Pdf, decide_eq_true_eq, hfront]
  simp only [Option.bind_eq_bind, Option.bind_some, hdrop₁, hafter, hdropName, hdrop₂]
  rw [List.append_nil]

end NeuroLab.Research
