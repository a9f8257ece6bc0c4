import NeuroLab.Postgres.Columns

/-!
# `datetime.date.fromisoformat`

A calendar day is its proleptic Gregorian ordinal, by which `date` compares. Besides
`YYYY-MM-DD` the constructor reads the basic format and ISO weeks.
-/

namespace NeuroLab.Python

open Postgres (isoDate isDay daysIn)

/-- The days before the first of January of a year. -/
def daysBeforeYear (year : ℕ) : ℕ :=
  let y := year - 1
  y * 365 + y / 4 - y / 100 + y / 400

/-- `date(year, month, day).toordinal()`. -/
def ordinal (year month day : ℕ) : ℕ :=
  daysBeforeYear year + ((List.range (month - 1)).map fun m => daysIn year (m + 1)).sum + day

/-- The ordinal of the last day there is. -/
def maxOrdinal : ℕ := 3652059

/-- The day of an ISO week, the first week being that of the first Thursday. -/
def weekDate (year week day : ℕ) : Option ℕ :=
  let first := ordinal year 1 1
  let weekday := (first + 6) % 7
  let weeks := if weekday = 3 || (weekday = 2 && daysIn year 2 = 29) then 53 else 52
  let date := first - weekday + (if 3 < weekday then 7 else 0) + (week - 1) * 7 + (day - 1)
  if 0 < year && (1 ≤ week && week ≤ weeks) && (1 ≤ day && day ≤ 7) && date ≤ maxOrdinal then some date else none

/-- A number of so many digits, and the rest. -/
def parseDigits (n : ℕ) (s : Str) : Option (ℕ × Str) :=
  if (s.take n).length = n && (s.take n).all isDigit then some (digitsValue (s.take n), s.drop n) else none

/-- The dash of the extended format. -/
def parseDash (separated : Bool) (s : Str) : Option Str := if separated then after? [0x2D] s else some s

/-- `date.fromisoformat(text)`, or its `ValueError`. -/
def fromisoformat (s : Str) : Option ℕ :=
  if s.length ∈ [7, 8, 10] then do
    let (year, rest) ← parseDigits 4 s
    let separated := decide (rest.head? = some 0x2D)
    let rest ← parseDash separated rest
    if rest.head? = some 0x57 then
      let (week, rest) ← parseDigits 2 rest.tail
      if rest.isEmpty then weekDate year week 1
      else
        let rest ← parseDash separated rest
        let (day, rest) ← parseDigits 1 rest
        if rest.isEmpty then weekDate year week day else none
    else
      let (month, rest) ← parseDigits 2 rest
      let rest ← parseDash separated rest
      let (day, rest) ← parseDigits 2 rest
      if rest.isEmpty && isDay year month day then some (ordinal year month day) else none
  else none

example : fromisoformat (lit "2024-02-29") = fromisoformat (lit "2024-W09-4") := by decide

/-- A number is digits in front of the rest. -/
theorem parseDigits_eq_some {n m : ℕ} {s rest : Str} (h : parseDigits n s = some (m, rest)) :
    ∃ digits, s = digits ++ rest ∧ digits.length = n ∧ digits.all isDigit = true ∧ digitsValue digits = m := by
  unfold parseDigits at h
  split at h
  · next hdigits =>
    cases h
    rw [Bool.and_eq_true, decide_eq_true_eq] at hdigits
    exact ⟨s.take n, (List.take_append_drop n s).symm, hdigits.1, hdigits.2, rfl⟩
  · cases h

/-- The rest of a text after a word. -/
theorem after?_eq_some_iff {word s rest : Str} : after? word s = some rest ↔ s = word ++ rest := by
  unfold after?
  constructor
  · intro h
    split at h
    · next hprefix =>
      obtain ⟨t, rfl⟩ := List.isPrefixOf_iff_prefix.mp hprefix
      rw [List.drop_left] at h
      rw [Option.some.inj h]
    · cases h
  · rintro rfl
    rw [if_pos (List.isPrefixOf_iff_prefix.mpr (List.prefix_append word rest)), List.drop_left]

/-- A dash is in front of the rest. -/
theorem parseDash_eq_some {separated : Bool} {s rest : Str} (h : parseDash separated s = some rest) :
    s = (if separated then [0x2D] else []) ++ rest := by
  cases separated with
  | false =>
    cases h
    rfl
  | true => exact after?_eq_some_iff.mp h

/-- A text with dashes and without a week is read as `YYYY-MM-DD`. -/
theorem isoDate_of_fromisoformat {s : Str} {date : ℕ} (h : fromisoformat s = some date) (hdash : 0x2D ∈ s)
    (hweek : 0x57 ∉ s) : ∃ year month day, isoDate s = some (year, month, day) ∧ isDay year month day = true := by
  unfold fromisoformat at h
  split at h
  · simp only [Option.bind_eq_bind, Option.bind_eq_some_iff] at h
    obtain ⟨⟨year, rest⟩, hyear, rest₁, hdash₁, h⟩ := h
    obtain ⟨digits, rfl, hlength, hdigits, rfl⟩ := parseDigits_eq_some hyear
    have hrest := parseDash_eq_some hdash₁
    generalize decide (rest.head? = some 0x2D) = separated at hrest h
    subst hrest
    split at h
    · next hhead =>
      exact absurd (by simp [List.mem_of_mem_head? hhead]) hweek
    · simp only [Option.bind_eq_some_iff] at h
      obtain ⟨⟨month, rest₂⟩, hmonth, rest₃, hdash₂, ⟨day, rest₄⟩, hday, h⟩ := h
      obtain ⟨digits₁, rfl, hlength₁, hdigits₁, rfl⟩ := parseDigits_eq_some hmonth
      have hrest := parseDash_eq_some hdash₂
      subst hrest
      obtain ⟨digits₂, rfl, hlength₂, hdigits₂, rfl⟩ := parseDigits_eq_some hday
      dsimp only at h
      split at h
      · next hvalid =>
        rw [Bool.and_eq_true, List.isEmpty_iff] at hvalid
        obtain ⟨rfl, hvalid⟩ := hvalid
        refine ⟨_, _, _, ?_, hvalid⟩
        cases separated with
        | false =>
          have hall : (digits ++ (digits₁ ++ digits₂)).all isDigit = true := by simp [hdigits, hdigits₁, hdigits₂]
          have hdigit := List.all_eq_true.mp hall 0x2D (by simpa using hdash)
          exact absurd hdigit (by decide)
        | true =>
          obtain ⟨y₁, y₂, y₃, y₄, rfl⟩ := List.length_eq_four.mp hlength
          obtain ⟨m₁, m₂, rfl⟩ := List.length_eq_two.mp hlength₁
          obtain ⟨d₁, d₂, rfl⟩ := List.length_eq_two.mp hlength₂
          have hall : ([y₁, y₂, y₃, y₄] ++ ([m₁, m₂] ++ [d₁, d₂])).all isDigit = true := by
            rw [List.all_append, List.all_append, hdigits, hdigits₁, hdigits₂]
            rfl
          simp only [isoDate]
          rw [if_pos]
          · rfl
          · simpa using hall
      · cases h
  · cases h

end NeuroLab.Python
