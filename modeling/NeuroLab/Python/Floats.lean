import NeuroLab.Python.JsonRoundTrip

/-!
# Doubles and their texts

A finite `float` is a double: a sign, a mantissa of at most 53 bits and an exponent, and a
literal denotes the nearest one, ties to even. `float.__repr__` prints the shortest decimal
that reads as the double, the nearest of these, and reading the text gives the double back.
-/

namespace NeuroLab.Python

/-- A finite double, whose magnitude is `mantissa * 2 ^ exponent` in units of `2 ^ -1074`. -/
structure Double where
  negative : Bool
  mantissa : ℕ
  exponent : ℕ
  bounded : mantissa < 2 ^ 53 ∧ exponent ≤ 2045
  normal : exponent = 0 ∨ 2 ^ 52 ≤ mantissa
deriving DecidableEq

namespace Double

/-! ## Reading -/

/-- A double of these parts, unless it is too large. -/
def make (negative : Bool) (mantissa exponent : ℕ) : Option Double :=
  if h : (mantissa < 2 ^ 53 ∧ exponent ≤ 2045) ∧ (exponent = 0 ∨ 2 ^ 52 ≤ mantissa) then
    some ⟨negative, mantissa, exponent, h.1, h.2⟩
  else none

/-- The natural number nearest to a fraction, the even one of two. -/
def nearestNat (p q : ℕ) : ℕ :=
  if 2 * (p % q) < q then p / q
  else if q < 2 * (p % q) then p / q + 1
  else p / q + p / q % 2

/-- The double nearest to a fraction, unless it is too large. -/
def nearest (negative : Bool) (p q : ℕ) : Option Double :=
  let exponent := (p * 2 ^ 1074 / q).log2 - 52
  let mantissa := nearestNat (p * 2 ^ 1074) (q * 2 ^ exponent)
  if mantissa = 2 ^ 53 then make negative (2 ^ 52) (exponent + 1) else make negative mantissa exponent

/-- The double that a decimal denotes, unless it is too large. -/
def ofDecimal (negative : Bool) (digits : ℕ) (exponent : ℤ) : Option Double :=
  nearest negative (digits * 10 ^ exponent.toNat) (10 ^ (-exponent).toNat)

/-! ## Printing -/

/-- The digits of a double behind 1074 places. -/
def exact (d : Double) : ℕ := d.mantissa * 2 ^ d.exponent * 5 ^ 1074

/-- The decimals of so many digits around a double, the nearer one first. -/
def candidates (d : Double) (digits : ℕ) : List (ℕ × ℤ) :=
  let dropped := (decimal d.exact).length - digits
  let below := d.exact / 10 ^ dropped
  let rest := 2 * (d.exact % 10 ^ dropped)
  let exponent : ℤ := dropped - 1074
  if rest < 10 ^ dropped ∨ (rest = 10 ^ dropped ∧ below % 2 = 0) then [(below, exponent), (below + 1, exponent)]
  else [(below + 1, exponent), (below, exponent)]

/-- Whether a decimal reads as the double. -/
def isDecimal (d : Double) (decimal : ℕ × ℤ) : Bool := decide (ofDecimal d.negative decimal.1 decimal.2 = some d)

/-- Leave out the zeros at the end of the digits. -/
def dropZeros : ℕ → ℕ × ℤ → ℕ × ℤ
  | 0, decimal => decimal
  | fuel + 1, (digits, exponent) =>
    if digits % 10 = 0 then dropZeros fuel (digits / 10, exponent + 1) else (digits, exponent)

/-- A decimal of the fewest digits that reads as the double. Seventeen are always enough. -/
def fewest (d : Double) : ℕ × ℤ :=
  ((List.range 17).findSome? fun n => (d.candidates (n + 1)).find? d.isDecimal).getD (d.exact, -1074)

/-- The shortest decimal that reads as the double. -/
def shortest (d : Double) : ℕ × ℤ :=
  if d.mantissa = 0 then (0, 0) else dropZeros (decimal d.fewest.1).length d.fewest

/-- An exponent of at least two digits behind its sign. -/
def exponentText (exponent : ℤ) : Str :=
  0x65 :: (if exponent < 0 then 0x2D else 0x2B) ::
    (if exponent.natAbs < 10 then 0x30 :: decimal exponent.natAbs else decimal exponent.natAbs)

/-- Digits around a point at the given place, or in scientific notation. -/
def pointed (digits : Str) (point : ℤ) : Str :=
  if -4 < point ∧ point ≤ 16 then
    if point ≤ 0 then 0x30 :: 0x2E :: (List.replicate (-point).toNat 0x30 ++ digits)
    else if point < digits.length then digits.take point.toNat ++ 0x2E :: digits.drop point.toNat
    else digits ++ List.replicate (point.toNat - digits.length) 0x30 ++ [0x2E, 0x30]
  else
    digits.take 1 ++ (if digits.length = 1 then [] else 0x2E :: digits.drop 1) ++ exponentText (point - 1)

/-- The text of a magnitude. -/
def text (d : Double) : Str :=
  pointed (decimal d.shortest.1) ((decimal d.shortest.1).length + d.shortest.2)

/-- `float.__repr__`. -/
def repr (d : Double) : Str := if d.negative then 0x2D :: d.text else d.text

/-- The number a double is. -/
def value (d : Double) : ℚ := (if d.negative then -1 else 1) * (d.mantissa * 2 ^ d.exponent / 2 ^ 1074)

/-- The literal that writes a double out. -/
def literal (d : Double) : PyFloat := .finite d.negative d.exact (-1074)

end Double

/-- The double that a literal denotes, unless it is not finite. -/
def PyFloat.double : PyFloat → Option Double
  | finite negative mantissa exponent => Double.ofDecimal negative mantissa exponent
  | _ => none

/-- The text that `json.dumps` has for a float without a finite double. -/
def PyFloat.constant : PyFloat → Str
  | nan => lit "NaN"
  | infinite negative | finite negative _ _ => if negative then lit "-Infinity" else lit "Infinity"

/-- The text that `json.dumps` has for a float. -/
def PyFloat.text (x : PyFloat) : Str := (x.double.map Double.repr).getD x.constant

namespace Double

variable {negative : Bool}

/-! ## What a printed double denotes -/

/-- A fraction in other terms denotes the same double. -/
theorem nearest_mul (negative : Bool) (p q : ℕ) {c : ℕ} (hc : 0 < c) : nearest negative (p * c) (q * c) = nearest negative p q := by
  have hdiv : p * c * 2 ^ 1074 / (q * c) = p * 2 ^ 1074 / q := by
    rw [Nat.mul_right_comm, Nat.mul_div_mul_right _ _ hc]
  have hnat : ∀ x y, nearestNat (x * c) (y * c) = nearestNat x y := by
    intro x y
    have hlt : ∀ u v, u * c < v * c ↔ u < v := fun u v => Nat.mul_lt_mul_right hc
    simp only [nearestNat, Nat.mul_div_mul_right _ _ hc, Nat.mul_mod_mul_right, ← Nat.mul_assoc, hlt]
  simp only [nearest, hdiv]
  rw [Nat.mul_right_comm p c, Nat.mul_right_comm q c, hnat]

/-- A fraction that is a whole number of the units of a double is denoted by it. -/
theorem nearest_exact (d : Double) {q : ℕ} (hq : 0 < q) (p : ℕ) (hp : p * 2 ^ 1074 = d.mantissa * 2 ^ d.exponent * q) :
    nearest d.negative p q = some d := by
  have hunits : p * 2 ^ 1074 / q = d.mantissa * 2 ^ d.exponent := by rw [hp, Nat.mul_div_cancel _ hq]
  have hexponent : (d.mantissa * 2 ^ d.exponent).log2 - 52 = d.exponent := by
    rcases d.normal with hzero | hnormal
    · rw [hzero, pow_zero, mul_one]
      by_cases hm : d.mantissa = 0
      · rw [hm]
        rfl
      · have hlog := (Nat.log2_lt hm).mpr d.bounded.1
        omega
    · have hne : d.mantissa * 2 ^ d.exponent ≠ 0 :=
        Nat.mul_ne_zero (Nat.ne_of_gt (Nat.lt_of_lt_of_le (Nat.two_pow_pos 52) hnormal)) (Nat.two_pow_pos _).ne'
      have hle : 52 + d.exponent ≤ (d.mantissa * 2 ^ d.exponent).log2 :=
        (Nat.le_log2 hne).mpr (pow_add 2 52 d.exponent ▸ Nat.mul_le_mul_right _ hnormal)
      have hlt : (d.mantissa * 2 ^ d.exponent).log2 < 53 + d.exponent :=
        (Nat.log2_lt hne).mpr (pow_add 2 53 d.exponent ▸ Nat.mul_lt_mul_of_pos_right d.bounded.1 (Nat.two_pow_pos _))
      omega
  have hmantissa : nearestNat (p * 2 ^ 1074) (q * 2 ^ d.exponent) = d.mantissa := by
    have hpos : 0 < q * 2 ^ d.exponent := Nat.mul_pos hq (Nat.two_pow_pos _)
    have heq : p * 2 ^ 1074 = d.mantissa * (q * 2 ^ d.exponent) := by
      rw [hp]
      ring
    rw [nearestNat, heq, Nat.mul_mod_left, if_pos (by omega), Nat.mul_div_cancel _ hpos]
  simp only [nearest, hunits, hexponent, hmantissa]
  rw [if_neg (Nat.ne_of_lt d.bounded.1), make, dif_pos ⟨d.bounded, d.normal⟩]

/-- Zeros behind the digits are taken back by the exponent. -/
theorem ofDecimal_shift (negative : Bool) (digits zeros : ℕ) (exponent : ℤ) :
    ofDecimal negative (digits * 10 ^ zeros) (exponent - zeros) = ofDecimal negative digits exponent := by
  have hten : ∀ n, 0 < 10 ^ n := fun n => Nat.pow_pos (by decide)
  -- both fractions in the terms that do not cancel
  have hleft := nearest_mul negative (digits * 10 ^ zeros * 10 ^ (exponent - zeros).toNat)
    (10 ^ (-(exponent - zeros)).toNat) (hten (-exponent).toNat)
  have hright := nearest_mul negative (digits * 10 ^ exponent.toNat) (10 ^ (-exponent).toNat)
    (hten (-(exponent - zeros)).toNat)
  rw [ofDecimal, ofDecimal, ← hleft, ← hright, Nat.mul_comm (10 ^ (-exponent).toNat)]
  congr 1
  rw [Nat.mul_assoc, Nat.mul_assoc, Nat.mul_assoc, ← pow_add, ← pow_add, ← pow_add]
  congr 2
  omega

/-- No digits denote zero. -/
theorem mantissa_of_ofDecimal_zero {d : Double} {exponent : ℤ} (h : ofDecimal negative 0 exponent = some d) :
    d.mantissa = 0 := by
  have hpos : 0 < 10 ^ (-exponent).toNat := Nat.pow_pos (by decide)
  have hzero : nearest negative 0 (10 ^ (-exponent).toNat) = make negative 0 0 := by
    simp only [nearest, nearestNat, Nat.zero_mul, Nat.zero_div, Nat.zero_mod, Nat.mul_zero, Nat.log2_zero, Nat.zero_sub,
      pow_zero, Nat.mul_one, if_pos hpos]
    exact if_neg (by decide)
  rw [ofDecimal, Nat.zero_mul, hzero] at h
  cases h
  rfl

theorem ofDecimal_dropZeros (fuel : ℕ) (decimal : ℕ × ℤ) :
    ofDecimal negative (dropZeros fuel decimal).1 (dropZeros fuel decimal).2 = ofDecimal negative decimal.1 decimal.2 := by
  induction fuel generalizing decimal with
  | zero => rfl
  | succ fuel ih =>
    obtain ⟨digits, exponent⟩ := decimal
    rw [dropZeros]
    split
    next hzero =>
      have hdigits : digits / 10 * 10 ^ 1 = digits := by omega
      have hshift := ofDecimal_shift negative (digits / 10) 1 (exponent + 1)
      rw [hdigits, Nat.cast_one, add_sub_cancel_right] at hshift
      exact (ih _).trans hshift.symm
    · rfl

theorem isDecimal_iff {d : Double} {decimal : ℕ × ℤ} :
    d.isDecimal decimal = true ↔ ofDecimal d.negative decimal.1 decimal.2 = some d :=
  decide_eq_true_iff

/-- A double is written out behind 1074 places. -/
theorem isDecimal_exact (d : Double) : d.isDecimal (d.exact, -1074) = true := by
  have hpos : ∀ n, 0 < 10 ^ n := fun n => Nat.pow_pos (by decide)
  have hten : ∀ n, 10 ^ n = 5 ^ n * 2 ^ n := fun n => by rw [← Nat.mul_pow]
  have hplaces : (-1074 : ℤ).toNat = 0 ∧ (- -1074 : ℤ).toNat = 1074 := by decide
  rw [isDecimal_iff, ofDecimal, hplaces.1, hplaces.2, pow_zero, Nat.mul_one]
  refine nearest_exact d (hpos 1074) _ ?_
  rw [hten, exact, Nat.mul_assoc]

@[simp] theorem double_literal (d : Double) : d.literal.double = some d := by
  have hexact := isDecimal_iff.mp d.isDecimal_exact
  rw [literal, PyFloat.double]
  exact hexact

theorem isDecimal_fewest (d : Double) : d.isDecimal d.fewest = true := by
  unfold fewest
  cases hfound : (List.range 17).findSome? fun n => (d.candidates (n + 1)).find? d.isDecimal with
  | none => exact d.isDecimal_exact
  | some decimal =>
    obtain ⟨n, -, hdecimal⟩ := List.exists_of_findSome?_eq_some hfound
    exact List.find?_some hdecimal

/-- The shortest decimal reads as the double. -/
theorem ofDecimal_shortest (d : Double) : ofDecimal d.negative d.shortest.1 d.shortest.2 = some d := by
  unfold shortest
  split
  next hzero =>
    rw [ofDecimal, neg_zero, Int.toNat_zero, pow_zero, Nat.mul_one]
    refine nearest_exact d Nat.one_pos 0 ?_
    rw [hzero, Nat.zero_mul, Nat.zero_mul, Nat.zero_mul]
  · rw [ofDecimal_dropZeros]
    exact isDecimal_iff.mp d.isDecimal_fewest

/-- Only zero is printed without digits, and then as they are. -/
theorem shortest_zero {d : Double} (h : d.shortest.1 = 0) : d.shortest.2 = 0 := by
  have hreads := d.ofDecimal_shortest
  rw [h] at hreads
  rw [shortest, if_pos (mantissa_of_ofDecimal_zero hreads)]

/-! ## Reading the text of a double -/

/-- Digits up to a character that is none. -/
theorem span_digits {ds s : Str} (hds : ∀ c ∈ ds, isDigit c = true) (hs : ∀ c t, s = c :: t → isDigit c = false) :
    (ds ++ s).takeWhile isDigit = ds ∧ (ds ++ s).dropWhile isDigit = s := by
  rw [List.takeWhile_append_of_pos hds, List.dropWhile_append_of_pos hds]
  cases s with
  | nil => simp
  | cons c t => simp [hs c t rfl]

theorem exponentText_digits (exponent : ℤ) : ∃ ds, ds ≠ [] ∧ (∀ c ∈ ds, isDigit c = true) ∧
    digitsValue ds = exponent.natAbs ∧ exponentText exponent = 0x65 :: (if exponent < 0 then 0x2D else 0x2B) :: ds := by
  by_cases hshort : exponent.natAbs < 10
  · refine ⟨0x30 :: decimal exponent.natAbs, List.cons_ne_nil _ _,
      List.forall_mem_cons.mpr ⟨rfl, fun c => isDigit_of_mem_decimal⟩, ?_, by rw [exponentText, if_pos hshort]⟩
    have hvalue := digitsValue_decimal exponent.natAbs
    rw [digitsValue] at hvalue ⊢
    rw [List.map_cons, List.reverse_cons, Nat.ofDigits_append, hvalue]
    simp
  · exact ⟨decimal exponent.natAbs, decimal_ne_nil _, fun c => isDigit_of_mem_decimal, digitsValue_decimal _,
      by rw [exponentText, if_neg hshort]⟩

theorem scanExponent_exponentText (exponent : ℤ) {s : Str} (hs : Delimited s) :
    scanExponent (exponentText exponent ++ s) = (some exponent, s) := by
  obtain ⟨ds, hne, hdigits, hvalue, htext⟩ := exponentText_digits exponent
  have hspan := span_digits hdigits (hs.head (p := fun c => isDigit c = false) (by decide))
  have hnonempty : ds.isEmpty = false := by simpa using hne
  rw [htext]
  by_cases hneg : exponent < 0
  · simp [scanExponent, hneg, hspan.1, hspan.2, hnonempty, hvalue, abs_of_neg hneg]
  · simp [scanExponent, hneg, hspan.1, hspan.2, hnonempty, hvalue, abs_of_nonneg (not_lt.mp hneg)]

/-- The digits behind a point, if there are any. -/
def fractionText : Str → Str
  | [] => []
  | d :: ds => 0x2E :: d :: ds

theorem scanFraction_fractionText {fraction s : Str} (hdigits : ∀ c ∈ fraction, isDigit c = true)
    (hs : ∀ c t, s = c :: t → isDigit c = false ∧ c ≠ 0x2E) : scanFraction (fractionText fraction ++ s) = (fraction, s) := by
  cases fraction with
  | nil =>
    cases s with
    | nil => rfl
    | cons c t =>
      change scanFraction (c :: t) = _
      unfold scanFraction
      split
      next heq => exact absurd (List.cons.inj heq).1 (hs c t rfl).2
      · rfl
  | cons d ds =>
    have hspan := span_digits hdigits fun c t h => (hs c t h).1
    change (if ((d :: ds ++ s).takeWhile isDigit).isEmpty then _
      else ((d :: ds ++ s).takeWhile isDigit, (d :: ds ++ s).dropWhile isDigit)) = _
    rw [hspan.1, hspan.2]
    rfl

/-- A number with a point or an exponent is read as a float of all its digits. -/
theorem scanNumber_float {whole fraction s : Str} {exponent : Option ℤ} (hne : whole ≠ [])
    (hdigits : ∀ c ∈ whole ++ fraction, isDigit c = true) (hzero : ∀ ds, whole = 0x30 :: ds → ds = [])
    (hfloat : fraction ≠ [] ∨ exponent ≠ none) (hs : Delimited s) :
    scanNumber negative (whole ++ (fractionText fraction ++ (exponent.elim [] exponentText ++ s))) =
      .ok (.float (.finite negative (digitsValue (whole ++ fraction)) (exponent.getD 0 - fraction.length)), s) := by
  have hexponent : scanExponent (exponent.elim [] exponentText ++ s) = (exponent, s) := by
    cases exponent with
    | none => exact scanExponent_delimited hs
    | some e => exact scanExponent_exponentText e hs
  have htail : ∀ c t, exponent.elim [] exponentText ++ s = c :: t → isDigit c = false ∧ c ≠ 0x2E := by
    intro c t h
    cases exponent with
    | none => exact hs.head (p := fun c => isDigit c = false ∧ c ≠ 0x2E) (by decide) c t h
    | some e =>
      obtain rfl : 0x65 = c := (List.cons.inj h).1
      decide
  have hfraction := scanFraction_fractionText (fun c hc => hdigits c (List.mem_append_right _ hc)) htail
  have hhead : ∀ c t, fractionText fraction ++ (exponent.elim [] exponentText ++ s) = c :: t → isDigit c = false := by
    intro c t h
    cases fraction with
    | nil => exact (htail c t h).1
    | cons d ds =>
      obtain rfl : 0x2E = c := (List.cons.inj h).1
      rfl
  have hspan := (span_digits (fun c hc => hdigits c (List.mem_append_left _ hc)) hhead).1
  obtain ⟨d, ds, rfl⟩ := List.exists_cons_of_ne_nil hne
  have hwhole : (if d = 0x30 then [d] else d :: ds) = d :: ds := by
    split
    next hd => rw [hzero ds (by rw [hd])]
    · rfl
  have hnone : ¬(fraction.isEmpty = true ∧ exponent = none) := by
    rintro ⟨hempty, hnone⟩
    rcases hfloat with hfraction | hexponent
    · exact hfraction (List.isEmpty_iff.mp hempty)
    · exact hexponent hnone
  unfold scanNumber
  rw [hspan]
  simp only [hwhole, List.drop_left, hfraction, hexponent, if_neg hnone]

theorem digitsValue_append (ds es : Str) : digitsValue (ds ++ es) = digitsValue ds * 10 ^ es.length + digitsValue es := by
  simp only [digitsValue, List.map_append, List.reverse_append, Nat.ofDigits_append, List.length_reverse, List.length_map]
  ring

theorem digitsValue_zeros (n : ℕ) : digitsValue (List.replicate n 0x30) = 0 := by
  induction n with
  | zero => rfl
  | succ n ih => rw [List.replicate_succ, ← List.singleton_append, digitsValue_append, ih]; simp [digitsValue]

theorem fractionText_of_ne_nil {fraction : Str} (h : fraction ≠ []) : fractionText fraction = 0x2E :: fraction := by
  obtain ⟨d, ds, rfl⟩ := List.exists_cons_of_ne_nil h
  rfl

/-- A printed number in its parts, which read as the decimal it was printed for. -/
structure Parts (negative : Bool) (digits : ℕ) (exponent : ℤ) (text : Str) where
  whole : Str
  fraction : Str
  power : Option ℤ
  whole_ne : whole ≠ []
  digits_only : ∀ c ∈ whole ++ fraction, isDigit c = true
  leading : ∀ ds, whole = 0x30 :: ds → ds = []
  float : fraction ≠ [] ∨ power ≠ none
  text_eq : text = whole ++ (fractionText fraction ++ power.elim [] exponentText)
  value : ofDecimal negative (digitsValue (whole ++ fraction)) (power.getD 0 - fraction.length) =
    ofDecimal negative digits exponent

/-- Digits around a point are read as the decimal they were printed for. -/
theorem exists_parts (negative : Bool) {digits : ℕ} {exponent : ℤ} (hzero : digits = 0 → exponent = 0) :
    Nonempty (Parts negative digits exponent (pointed (decimal digits) ((decimal digits).length + exponent))) := by
  have hdigits : ∀ c ∈ decimal digits, isDigit c = true := fun c => isDigit_of_mem_decimal
  have hvalue := digitsValue_decimal digits
  have hne := decimal_ne_nil digits
  have hlead : ∀ ds, decimal digits = 0x30 :: ds → ds = [] := fun ds => decimal_leading_zero
  have hzeros : ∀ n, ∀ c ∈ List.replicate n 0x30, isDigit c = true := by
    intro n c hc
    rw [List.eq_of_mem_replicate hc]
    rfl
  generalize hpoint : ((decimal digits).length + exponent : ℤ) = point
  generalize decimal digits = text at *
  have hlength := List.length_pos_iff.mpr hne
  rw [pointed]
  split
  next hfixed =>
    split
    next hbefore =>
      -- the point stands before the digits
      have hfraction : List.replicate (-point).toNat 0x30 ++ text ≠ [] := List.append_ne_nil_of_right_ne_nil _ hne
      refine ⟨⟨[0x30], _, none, List.cons_ne_nil _ _, ?_, fun ds h => (List.cons.inj h).2.symm, .inl hfraction, ?_, ?_⟩⟩
      · exact List.forall_mem_append.mpr ⟨by decide, List.forall_mem_append.mpr ⟨hzeros _, hdigits⟩⟩
      · rw [fractionText_of_ne_nil hfraction]
        simp
      · rw [digitsValue_append, digitsValue_append, digitsValue_zeros, hvalue]
        congr 1
        · simp [digitsValue]
        · simp only [Option.getD_none, List.length_append, List.length_replicate]
          omega
    split
    next hbefore hamong =>
      -- the point stands among the digits
      have htake : (text.take point.toNat).length = point.toNat := by
        rw [List.length_take]
        omega
      have hfraction : text.drop point.toNat ≠ [] := by
        rw [ne_eq, List.drop_eq_nil_iff]
        omega
      refine ⟨⟨text.take point.toNat, _, none, ?_, ?_, fun ds h => ?_, .inl hfraction, ?_, ?_⟩⟩
      · exact List.ne_nil_of_length_pos (by omega)
      · rw [List.take_append_drop]
        exact hdigits
      · have htext : text = 0x30 :: (ds ++ text.drop point.toNat) := by
          rw [← List.cons_append, ← h, List.take_append_drop]
        exact (List.append_eq_nil_iff.mp (hlead _ htext)).1
      · rw [fractionText_of_ne_nil hfraction]
        simp
      · rw [List.take_append_drop, hvalue, Option.getD_none, List.length_drop]
        congr 1
        omega
    next hbefore hamong =>
      -- the point stands behind the digits and so many zeros
      refine ⟨⟨text ++ List.replicate (point.toNat - text.length) 0x30, [0x30], none, ?_, ?_, fun ds h => ?_,
        .inl (List.cons_ne_nil _ _), ?_, ?_⟩⟩
      · exact List.append_ne_nil_of_left_ne_nil hne _
      · rw [List.append_assoc]
        exact List.forall_mem_append.mpr ⟨hdigits, List.forall_mem_append.mpr ⟨hzeros _, by decide⟩⟩
      · obtain ⟨d, rest, rfl⟩ := List.exists_cons_of_ne_nil hne
        obtain ⟨rfl, hrest⟩ := List.cons.inj h
        obtain rfl := hlead rest rfl
        -- a zero is printed without further zeros
        have hexponent := hzero hvalue.symm
        have hpoint : point.toNat - [0x30].length = 0 := by
          simp only [List.length_singleton] at hpoint ⊢
          omega
        rw [← hrest, hpoint]
        rfl
      · simp [fractionText]
      · have hpower : exponent = ((point.toNat - text.length : ℕ) : ℤ) := by omega
        have hshift := ofDecimal_shift negative digits (point.toNat - text.length + 1) exponent
        rw [digitsValue_append, digitsValue_append, digitsValue_zeros, hvalue, ← hshift]
        congr 1
        · simp [digitsValue, pow_succ, Nat.mul_assoc]
        · simp only [Option.getD_none, List.length_singleton]
          omega
  next hscientific =>
    have htake : (text.take 1).length = 1 := by
      rw [List.length_take]
      omega
    refine ⟨⟨text.take 1, text.drop 1, some (point - 1), ?_, ?_, fun ds h => ?_, .inr (Option.some_ne_none _), ?_, ?_⟩⟩
    · exact List.ne_nil_of_length_pos (by omega)
    · rw [List.take_append_drop]
      exact hdigits
    · rw [h] at htake
      exact List.eq_nil_of_length_eq_zero (Nat.succ.inj htake)
    · rw [List.append_assoc]
      congr 2
      split
      next hone => rw [List.drop_eq_nil_of_le (by omega), fractionText]
      next hmany =>
        refine (fractionText_of_ne_nil ?_).symm
        rw [ne_eq, List.drop_eq_nil_iff]
        omega
    · rw [List.take_append_drop, hvalue, Option.getD_some, List.length_drop]
      congr 1
      omega

/-- The text of a double is read as a float that denotes it. -/
theorem scanNumber_text (d : Double) {s : Str} (hs : Delimited s) :
    ∃ x : PyFloat, scanNumber d.negative (d.text ++ s) = .ok (.float x, s) ∧ x.double = some d := by
  obtain ⟨parts⟩ := exists_parts d.negative (shortest_zero (d := d))
  refine ⟨.finite d.negative (digitsValue (parts.whole ++ parts.fraction)) (parts.power.getD 0 - parts.fraction.length), ?_,
    parts.value.trans d.ofDecimal_shortest⟩
  have htext : d.text = parts.whole ++ (fractionText parts.fraction ++ parts.power.elim [] exponentText) := parts.text_eq
  rw [htext, List.append_assoc, List.append_assoc]
  exact scanNumber_float parts.whole_ne parts.digits_only parts.leading parts.float hs

/-- The text of a double starts with a digit. -/
theorem text_head (d : Double) : ∃ c t, d.text = c :: t ∧ isDigit c = true := by
  obtain ⟨parts⟩ := exists_parts d.negative (shortest_zero (d := d))
  obtain ⟨c, t, hc⟩ := List.exists_cons_of_ne_nil parts.whole_ne
  refine ⟨c, _, parts.text_eq.trans (congrArg (· ++ _) hc), parts.digits_only c ?_⟩
  rw [hc]
  exact List.mem_append_left _ List.mem_cons_self

/-- A printed double is read as a float that denotes it. -/
theorem scanValue_repr (d : Double) (fuel depth : ℕ) {s : Str} (hs : Delimited s) :
    ∃ x : PyFloat, scanValue (fuel + 1) depth (d.repr ++ s) = .ok (.float x, s) ∧ x.double = some d := by
  obtain ⟨x, hscan, hx⟩ := d.scanNumber_text hs
  obtain ⟨c, t, htext, hdigit⟩ := d.text_head
  refine ⟨x, ?_, hx⟩
  rw [htext, List.cons_append] at hscan
  cases hsign : d.negative with
  | false =>
    rw [repr, hsign, if_neg Bool.false_ne_true, htext, List.cons_append, scanValue_digit hdigit, ← hscan, hsign]
  | true =>
    rw [repr, hsign, if_pos rfl, htext, List.cons_append, List.cons_append, scanValue_minus hdigit, ← hscan, hsign]

/-- A literal has the text of the double it denotes. -/
theorem text_of_double {x : PyFloat} {d : Double} (h : x.double = some d) : x.text = d.repr := by
  rw [PyFloat.text, h, Option.map_some, Option.getD_some]

end Double

end NeuroLab.Python
