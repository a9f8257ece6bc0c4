import NeuroLab.Python.Conversions

/-!
# Rounding to doubles

The double nearest to a number does not pass a double that is no less, so that the numbers up
to a double are rounded to numbers up to it.
-/

namespace NeuroLab.Python

namespace Double

theorem nearestNat_le {p q k : ℕ} (hq : 0 < q) (h : p ≤ k * q) : nearestNat p q ≤ k := by
  have hle : p / q ≤ k := Nat.div_le_of_le_mul (Nat.mul_comm k q ▸ h)
  have hlt : 0 < p % q → p / q < k := by
    intro hrest
    apply Nat.lt_of_mul_lt_mul_left (a := q)
    have hdiv := Nat.div_add_mod p q
    rw [Nat.mul_comm q k]
    omega
  unfold nearestNat
  split
  · exact hle
  · have hlt := hlt (by omega)
    split <;> omega

theorem le_nearestNat {p q k : ℕ} (hq : 0 < q) (h : k * q ≤ p) : k ≤ nearestNat p q := by
  have hle : k ≤ p / q := (Nat.le_div_iff_mul_le hq).mpr h
  unfold nearestNat
  split
  · exact hle
  · split <;> omega

/-- The exponent of a fraction, its mantissa being of 53 bits. -/
theorem mantissa_bounds {u q : ℕ} (hq : 0 < q) :
    u ≤ 2 ^ 53 * (q * 2 ^ ((u / q).log2 - 52)) ∧
      ((u / q).log2 - 52 = 0 ∨ 2 ^ 52 * (q * 2 ^ ((u / q).log2 - 52)) ≤ u) := by
  constructor
  · have hlt : u / q < 2 ^ (53 + ((u / q).log2 - 52)) :=
      Nat.lt_log2_self.trans_le (Nat.pow_le_pow_right Nat.two_pos (by omega))
    calc u ≤ 2 ^ (53 + ((u / q).log2 - 52)) * q := ((Nat.div_lt_iff_lt_mul hq).mp hlt).le
      _ = 2 ^ 53 * (q * 2 ^ ((u / q).log2 - 52)) := by ring
  · rcases Nat.eq_zero_or_pos ((u / q).log2 - 52) with hzero | hpos
    · exact .inl hzero
    · refine .inr ?_
      have hne : u / q ≠ 0 := by
        intro hzero
        rw [hzero, Nat.log2_zero] at hpos
        omega
      have hle : 2 ^ (52 + ((u / q).log2 - 52)) ≤ u / q :=
        (Nat.pow_le_pow_right Nat.two_pos (by omega)).trans (Nat.log2_self_le hne)
      calc 2 ^ 52 * (q * 2 ^ ((u / q).log2 - 52)) = 2 ^ (52 + ((u / q).log2 - 52)) * q := by ring
        _ ≤ u := (Nat.le_div_iff_mul_le hq).mp hle

theorem make_eq (negative : Bool) {mantissa exponent : ℕ} (hmantissa : mantissa < 2 ^ 53) (hexponent : exponent ≤ 2045)
    (hnormal : exponent = 0 ∨ 2 ^ 52 ≤ mantissa) :
    make negative mantissa exponent = some ⟨negative, mantissa, exponent, ⟨hmantissa, hexponent⟩, hnormal⟩ :=
  dif_pos ⟨⟨hmantissa, hexponent⟩, hnormal⟩

/-- A fraction up to the magnitude of a double is rounded to a double up to it. -/
theorem exists_nearest_le (negative : Bool) {p q : ℕ} (d : Double) (hq : 0 < q)
    (hp : p * 2 ^ 1074 ≤ d.mantissa * 2 ^ d.exponent * q) :
    ∃ x, nearest negative p q = some x ∧ x.negative = negative ∧
      x.mantissa * 2 ^ x.exponent ≤ d.mantissa * 2 ^ d.exponent := by
  unfold nearest
  dsimp only
  generalize p * 2 ^ 1074 = u at hp
  obtain ⟨htop, hbottom⟩ := mantissa_bounds (u := u) hq
  have hexponent : (u / q).log2 - 52 ≤ d.exponent := by
    rcases Nat.eq_zero_or_pos (u / q) with hzero | hpos
    · rw [hzero]
      exact Nat.zero_le _
    · have hlog : (u / q).log2 < 53 + d.exponent := by
        apply (Nat.log2_lt hpos.ne').mpr
        calc u / q ≤ d.mantissa * 2 ^ d.exponent := Nat.div_le_of_le_mul (Nat.mul_comm _ q ▸ hp)
          _ < 2 ^ 53 * 2 ^ d.exponent := Nat.mul_lt_mul_of_pos_right d.bounded.1 (Nat.two_pow_pos _)
          _ = 2 ^ (53 + d.exponent) := (pow_add 2 53 d.exponent).symm
      omega
  generalize (u / q).log2 - 52 = e at hexponent htop hbottom
  have hpos : 0 < q * 2 ^ e := Nat.mul_pos hq (Nat.two_pow_pos _)
  have hmantissa := nearestNat_le hpos htop
  have hnormal := hbottom.imp_right (le_nearestNat hpos)
  have hdouble := d.bounded
  rcases Nat.eq_or_lt_of_le hexponent with heq | hlt
  · have hsame : nearestNat u (q * 2 ^ e) ≤ d.mantissa := by
      apply nearestNat_le hpos
      calc u ≤ d.mantissa * 2 ^ d.exponent * q := hp
        _ = d.mantissa * (q * 2 ^ e) := by rw [heq]; ring
    rw [if_neg (by omega), make_eq negative (by omega) (by omega) hnormal]
    exact ⟨_, rfl, rfl, heq ▸ Nat.mul_le_mul_right _ hsame⟩
  · have hscale : 2 ^ 53 * 2 ^ e ≤ d.mantissa * 2 ^ d.exponent := by
      have hnormal : 2 ^ 52 ≤ d.mantissa := d.normal.resolve_left (by omega)
      calc 2 ^ 53 * 2 ^ e = 2 ^ 52 * 2 ^ (e + 1) := by ring
        _ ≤ d.mantissa * 2 ^ d.exponent := Nat.mul_le_mul hnormal (Nat.pow_le_pow_right Nat.two_pos hlt)
    by_cases hcarry : nearestNat u (q * 2 ^ e) = 2 ^ 53
    · rw [if_pos hcarry, make_eq negative (by norm_num) (by omega) (.inr le_rfl)]
      refine ⟨_, rfl, rfl, ?_⟩
      calc 2 ^ 52 * 2 ^ (e + 1) = 2 ^ 53 * 2 ^ e := by ring
        _ ≤ d.mantissa * 2 ^ d.exponent := hscale
    · rw [if_neg hcarry, make_eq negative (by omega) (by omega) hnormal]
      exact ⟨_, rfl, rfl, (Nat.mul_le_mul_right _ hmantissa).trans hscale⟩

theorem value_of_nonneg {d : Double} (h : d.negative = false) : d.value = (d.mantissa * 2 ^ d.exponent : ℕ) / 2 ^ 1074 := by
  rw [value, h, if_neg Bool.false_ne_true, one_mul, Nat.cast_mul, Nat.cast_pow, Nat.cast_ofNat]

/-- A double of at least a fraction of one. -/
theorem value_mk {mantissa exponent k : ℕ} (hbounded : mantissa < 2 ^ 53 ∧ exponent ≤ 2045)
    (hnormal : exponent = 0 ∨ 2 ^ 52 ≤ mantissa) (h : exponent + k = 1074) :
    (⟨false, mantissa, exponent, hbounded, hnormal⟩ : Double).value = mantissa / 2 ^ k := by
  rw [value, if_neg Bool.false_ne_true, one_mul, ← h, pow_add, mul_comm (2 ^ exponent) (2 ^ k)]
  exact mul_div_mul_right _ _ (pow_ne_zero exponent two_ne_zero)

end Double

/-- A number up to a double that is not negative is rounded to a double up to it. -/
theorem exists_ofRat_le {t : ℚ} {d : Double} (hd : d.negative = false) (ht : 0 ≤ t) (hle : t ≤ d.value) :
    ∃ x : Double, Number.ofRat t = .double x ∧ x.value ≤ d.value := by
  have hnum : ((t.num.natAbs : ℕ) : ℚ) = t * t.den := by
    have hcast : ((t.num.natAbs : ℕ) : ℤ) = t.num := Int.natAbs_of_nonneg (Rat.num_nonneg.mpr ht)
    rw [Rat.mul_den_eq_num, ← Int.cast_natCast]
    exact congrArg Int.cast hcast
  have hscale : (0 : ℚ) < 2 ^ 1074 := pow_pos two_pos 1074
  have hp : t.num.natAbs * 2 ^ 1074 ≤ d.mantissa * 2 ^ d.exponent * t.den := by
    rw [Double.value_of_nonneg hd, le_div_iff₀ hscale] at hle
    have hmul : t * 2 ^ 1074 * t.den ≤ ((d.mantissa * 2 ^ d.exponent : ℕ) : ℚ) * t.den :=
      mul_le_mul_of_nonneg_right hle (Nat.cast_nonneg _)
    have hcast : ((t.num.natAbs * 2 ^ 1074 : ℕ) : ℚ) ≤ ((d.mantissa * 2 ^ d.exponent * t.den : ℕ) : ℚ) := by
      rw [Nat.cast_mul, Nat.cast_mul, hnum, Nat.cast_pow, Nat.cast_ofNat, mul_right_comm]
      exact hmul
    exact_mod_cast hcast
  obtain ⟨x, hx, hsign, hmagnitude⟩ := Double.exists_nearest_le (decide (t < 0)) d t.den_pos hp
  have hsign : x.negative = false := hsign.trans (decide_eq_false (not_lt.mpr ht))
  refine ⟨x, ?_, ?_⟩
  · rw [Number.ofRat, hx]
    rfl
  · rw [Double.value_of_nonneg hsign, Double.value_of_nonneg hd]
    exact div_le_div_of_nonneg_right (Nat.cast_le.mpr hmagnitude) hscale.le

/-- A whole number of at most 53 bits is a double. -/
theorem exists_double {n : ℕ} (hpos : 0 < n) (hlt : n < 2 ^ 53) :
    ∃ x : Double, floatOfInt n = .ok (.double x) ∧ Number.ofRat n = .double x ∧ x.value = n := by
  obtain ⟨k, hk, hlow, hhigh⟩ : ∃ k ≤ 52, 2 ^ 52 ≤ n * 2 ^ k ∧ n * 2 ^ k < 2 ^ 53 := by
    have hlog : n.log2 < 53 := (Nat.log2_lt hpos.ne').mpr hlt
    refine ⟨52 - n.log2, Nat.sub_le _ _, ?_, ?_⟩
    · calc 2 ^ 52 = 2 ^ n.log2 * 2 ^ (52 - n.log2) := by rw [← pow_add, Nat.add_sub_cancel' (by omega)]
        _ ≤ n * 2 ^ (52 - n.log2) := Nat.mul_le_mul_right _ (Nat.log2_self_le hpos.ne')
    · calc n * 2 ^ (52 - n.log2) < 2 ^ (n.log2 + 1) * 2 ^ (52 - n.log2) :=
            Nat.mul_lt_mul_of_pos_right Nat.lt_log2_self (Nat.two_pow_pos _)
        _ = 2 ^ 53 := by rw [← pow_add]; congr 1; omega
  have hexponent : 1074 - k + k = 1074 := Nat.sub_add_cancel (by omega)
  let x : Double := ⟨false, n * 2 ^ k, 1074 - k, ⟨hhigh, by omega⟩, .inr hlow⟩
  have hnearest : Double.nearest false n 1 = some x := by
    apply Double.nearest_exact x Nat.one_pos
    change n * 2 ^ 1074 = n * 2 ^ k * 2 ^ (1074 - k) * 1
    rw [mul_one, mul_assoc, ← pow_add, Nat.add_comm k, hexponent]
  refine ⟨x, ?_, ?_, ?_⟩
  · apply floatOfInt_eq
    rw [Double.ofInt, decide_eq_false (not_lt.mpr (Int.natCast_nonneg n)), Int.natAbs_natCast, hnearest]
  · rw [Number.ofRat, decide_eq_false (not_lt.mpr (Nat.cast_nonneg n)), Rat.num_natCast, Rat.den_natCast, Int.natAbs_natCast,
      hnearest]
    rfl
  · rw [Double.value_mk _ _ hexponent, Nat.cast_mul, Nat.cast_pow, Nat.cast_ofNat]
    exact mul_div_cancel_right₀ _ (pow_ne_zero k two_ne_zero)

end NeuroLab.Python
