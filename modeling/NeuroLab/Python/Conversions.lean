import NeuroLab.Python.Floats
import NeuroLab.Python.Interpreter
import NeuroLab.Python.Text

/-!
# Numbers and their conversions

An `int` or a `float`, `int(value)` and `float(value)` of a decoded value, and the JSON value
that carries a number.
-/

namespace NeuroLab.Python

/-! ## Numbers -/

/-- An `int` or a `float`. -/
inductive Number
  | int (n : ℤ)
  | double (d : Double)
  | infinite (negative : Bool)
  | nan
deriving DecidableEq

/-- The number that a literal denotes. -/
def PyFloat.number : PyFloat → Number
  | nan => .nan
  | infinite negative => .infinite negative
  | finite negative mantissa exponent =>
    ((Double.ofDecimal negative mantissa exponent).map Number.double).getD (.infinite negative)

namespace Number

/-- The value of a finite number. -/
def value : Number → ℚ
  | int n => n
  | double d => d.value
  | infinite _ | nan => 0

def isFinite : Number → Bool
  | int _ | double _ => true
  | infinite _ | nan => false

/-- `0.0 <= number <= 1.0`. -/
def inUnit (x : Number) : Bool := x.isFinite && decide (0 ≤ x.value) && decide (x.value ≤ 1)

/-- `number == n`. -/
def equals (x : Number) (n : ℤ) : Bool := x.isFinite && decide (x.value = n)

/-- `a < b`, which no comparison with a NaN is. -/
def lt : Number → Number → Bool
  | nan, _ => false
  | _, nan => false
  | infinite negative, infinite negative' => negative && !negative'
  | infinite negative, _ => negative
  | _, infinite negative => !negative
  | x, y => decide (x.value < y.value)

/-- `a <= b`, which no comparison with a NaN is. -/
def le : Number → Number → Bool
  | nan, _ => false
  | _, nan => false
  | x, y => !y.lt x

/-- `max(a, b)`: the second only if it is greater. -/
def max (x y : Number) : Number := if x.lt y then y else x

/-- `min(a, b)`: the second only if it is less. -/
def min (x y : Number) : Number := if y.lt x then y else x

theorem le_eq_not_lt {x y : Number} (hx : x ≠ nan) (hy : y ≠ nan) : x.le y = !y.lt x := by
  cases x <;> cases y <;> first | rfl | exact absurd rfl hx | exact absurd rfl hy

theorem inUnit_iff {x : Number} : x.inUnit = true ↔ x.isFinite = true ∧ 0 ≤ x.value ∧ x.value ≤ 1 := by
  rw [inUnit, Bool.and_eq_true, Bool.and_eq_true, decide_eq_true_eq, decide_eq_true_eq, and_assoc]

theorem equals_iff {x : Number} {n : ℤ} : x.equals n = true ↔ x.isFinite = true ∧ x.value = n := by
  rw [equals, Bool.and_eq_true, decide_eq_true_eq]

/-- The integers among the numbers of the unit interval. -/
theorem inUnit_int {n : ℤ} : (int n).inUnit = true ↔ n = 0 ∨ n = 1 := by
  have hvalue : (int n).value = n := rfl
  rw [inUnit_iff, hvalue]
  constructor
  · rintro ⟨-, hlow, hhigh⟩
    have hlow : 0 ≤ n := by exact_mod_cast hlow
    have hhigh : n ≤ 1 := by exact_mod_cast hhigh
    omega
  · rintro (rfl | rfl) <;> exact ⟨rfl, by norm_num, by norm_num⟩

theorem equals_int {n m : ℤ} : (int n).equals m = true ↔ n = m := by
  rw [equals_iff]
  exact ⟨fun h => Int.cast_injective h.2, fun h => ⟨rfl, congrArg Int.cast h⟩⟩

/-- The value that `json.dumps` is given. -/
def json : Number → Json
  | int n => .int n
  | double d => .float d.literal
  | infinite negative => .float (.infinite negative)
  | nan => .float .nan

end Number

theorem Number.json_injective : Function.Injective Number.json := by
  intro x y h
  cases x with
  | int n =>
    cases y <;> cases h
    rfl
  | double d =>
    cases y with
    | double d' =>
      have hliteral : d.literal = d'.literal := Json.float.inj h
      have hdouble := congrArg PyFloat.double hliteral
      rw [Double.double_literal, Double.double_literal, Option.some.injEq] at hdouble
      rw [hdouble]
    | int n => cases h
    | infinite negative => cases h
    | nan => cases h
  | infinite negative =>
    cases y <;> cases h
    rfl
  | nan =>
    cases y <;> cases h
    rfl

/-! ## `int` and `float` -/

/-- Leave out the sign of a numeral. -/
def splitSign : Str → Bool × Str
  | 0x2D :: s => (true, s)
  | 0x2B :: s => (false, s)
  | s => (false, s)

/-- `int(text)`. -/
def intOfText (s : Str) : Option ℤ :=
  let (negative, s) := splitSign (strip isAsciiSpace (s.map toAscii))
  let digits := s.filter (· ≠ 0x5F)
  if wellSpaced true s && digits.all isDigit && decide (digits.length ≤ maxStrDigits) then
    some (if negative then -(digitsValue digits : ℤ) else digitsValue digits)
  else none

/-- `int` reads a printed number. -/
theorem intOfText_decimal {n : ℕ} (h : (decimal n).length ≤ maxStrDigits) : intOfText (decimal n) = some (n : ℤ) := by
  have hrange : ∀ c ∈ decimal n, 0x30 ≤ c ∧ c ≤ 0x39 := fun c hc => by
    simpa only [isDigit, Bool.and_eq_true, decide_eq_true_eq] using isDigit_of_mem_decimal hc
  have hascii : (decimal n).map toAscii = decimal n := by
    conv_rhs => rw [← List.map_id (decimal n)]
    refine List.map_congr_left fun c hc => if_pos ?_
    have hle := (hrange c hc).2
    omega
  have hspace : strip isAsciiSpace (decimal n) = decimal n := by
    refine strip_of_forall fun c hc => ?_
    have hle := (hrange c hc).1
    simp only [isAsciiSpace, Bool.or_eq_false_iff, Bool.and_eq_false_iff, decide_eq_false_iff_not]
    omega
  have hsign : splitSign (decimal n) = (false, decimal n) := by
    unfold splitSign
    split
    · next t ht => exact absurd (hrange 0x2D (ht ▸ List.mem_cons_self)).1 (by decide)
    · next t ht => exact absurd (hrange 0x2B (ht ▸ List.mem_cons_self)).1 (by decide)
    · rfl
  have hbar : ∀ c ∈ decimal n, c ≠ 0x5F := fun c hc => by
    have hle := (hrange c hc).2
    omega
  have hdigits : (decimal n).filter (· ≠ 0x5F) = decimal n :=
    List.filter_eq_self.mpr fun c hc => decide_eq_true (hbar c hc)
  have hall : (decimal n).all isDigit = true := List.all_eq_true.mpr fun _ => isDigit_of_mem_decimal
  have hspaced := wellSpaced_of_forall hbar (decimal_ne_nil n) true
  simp only [intOfText, hascii, hspace, hsign, hdigits, hspaced, hall, h, digitsValue_decimal, Bool.and_self, decide_true,
    if_true, Bool.false_eq_true, if_false]

/-- Underscores stand between digits; the flag tells whether one goes before. -/
def betweenDigits : Bool → Str → Bool
  | _, [] => true
  | after, 0x5F :: s => after && (s.head?.any isDigit) && betweenDigits false s
  | _, c :: s => betweenDigits (isDigit c) s

/-- `float(text)`. -/
def floatOfText (s : Str) : Option PyFloat :=
  let (negative, s) := splitSign (strip isAsciiSpace (s.map toAscii))
  let word := s.map asciiLower
  if word = lit "nan" then some .nan
  else if word = lit "inf" ∨ word = lit "infinity" then some (.infinite negative)
  else if betweenDigits false s then
    let s := s.filter (· ≠ 0x5F)
    let whole := s.takeWhile isDigit
    let (fraction, rest) := match s.dropWhile isDigit with
      | 0x2E :: t => (t.takeWhile isDigit, t.dropWhile isDigit)
      | t => ([], t)
    match scanExponent rest with
    | (exponent, []) =>
      if (whole ++ fraction).isEmpty then none
      else some (.finite negative (digitsValue (whole ++ fraction)) (exponent.getD 0 - fraction.length))
    | _ => none
  else none

/-- `int(x)` of a double. -/
def Double.truncate (d : Double) : ℤ :=
  let magnitude : ℕ := d.mantissa * 2 ^ d.exponent / 2 ^ 1074
  if d.negative then -magnitude else magnitude

/-- The double nearest to a rational number, or the infinity of its sign. -/
def Number.ofRat (q : ℚ) : Number :=
  ((Double.nearest (decide (q < 0)) q.num.natAbs q.den).map Number.double).getD (.infinite (decide (q < 0)))

/-- `x + n` of a float. -/
def Number.plus (x : Number) (n : ℕ) : Number := if x.isFinite then .ofRat (x.value + n) else x

/-- `x / n` of a float. -/
def Number.over (x : Number) (n : ℕ) : Number := if x.isFinite then .ofRat (x.value / n) else x

theorem Number.ofRat_ne_nan (q : ℚ) : ofRat q ≠ nan := by
  unfold ofRat
  cases Double.nearest (decide (q < 0)) q.num.natAbs q.den with
  | none => exact fun h => by cases h
  | some d => exact fun h => by cases h

/-- `float(n)` of an integer, unless it is too large. -/
def Double.ofInt (n : ℤ) : Option Double := nearest (decide (n < 0)) n.natAbs 1

/-- `int(value)`. -/
def toInt : Json → Except PyExc ℤ
  | .int n => .ok n
  | .bool b => .ok (if b then 1 else 0)
  | .float .nan => .error (.value (lit "ValueError"))
  | .float x =>
    match x.double with
    | some d => .ok d.truncate
    | none => .error (.other (lit "OverflowError"))
  | .str s =>
    match intOfText s with
    | some n => .ok n
    | none => .error (.value (lit "ValueError"))
  | .null | .arr _ | .obj _ => .error .type

/-- `float(n)`, or its `OverflowError`. -/
def floatOfInt (n : ℤ) : Except PyExc Number :=
  ((Double.ofInt n).map fun d => .ok (.double d)).getD (.error (.other (lit "OverflowError")))

/-- `float(value)`. -/
def toFloat : Json → Except PyExc Number
  | .int n => floatOfInt n
  | .bool b => floatOfInt (if b then 1 else 0)
  | .float x => .ok x.number
  | .str s =>
    match floatOfText s with
    | some x => .ok x.number
    | none => .error (.value (lit "ValueError"))
  | .null | .arr _ | .obj _ => .error .type

/-- A number as `float` has it, if it is not too large. -/
def Number.asFloat : Number → Number
  | int n => ((Double.ofInt n).map double).getD (int n)
  | x => x

theorem floatOfInt_eq {n : ℤ} {d : Double} (h : Double.ofInt n = some d) : floatOfInt n = .ok (.double d) := by
  have hmap : ((Double.ofInt n).map fun d => .ok (.double d)).getD (.error (.other (lit "OverflowError"))) =
      (.ok (.double d) : Except PyExc Number) := by
    generalize Double.ofInt n = o at h ⊢
    subst h
    rfl
  exact hmap

theorem Number.asFloat_int {n : ℤ} {d : Double} (h : Double.ofInt n = some d) : (int n).asFloat = double d := by
  have hmap : ((Double.ofInt n).map double).getD (int n) = double d := by
    generalize Double.ofInt n = o at h ⊢
    subst h
    rfl
  exact hmap

theorem number_of_double {x : PyFloat} {d : Double} (h : x.double = some d) : x.number = .double d := by
  cases x with
  | finite negative mantissa exponent =>
    rw [PyFloat.double] at h
    rw [PyFloat.number, h, Option.map_some, Option.getD_some]
  | infinite negative => cases h
  | nan => cases h

theorem natAbs_eq_of_div {m k n : ℕ} (hk : 0 < k) (hn : 0 < n) {negative : Bool}
    (h : (if negative then (-1 : ℚ) else 1) * ((m : ℚ) / k) = n) : negative = false ∧ m / k = n := by
  have hpos : (0 : ℚ) < k := by exact_mod_cast hk
  have hn : (0 : ℚ) < n := by exact_mod_cast hn
  have hmagnitude : (0 : ℚ) ≤ (m : ℚ) / k := div_nonneg (Nat.cast_nonneg m) (Nat.cast_nonneg k)
  cases negative with
  | true =>
    rw [if_pos rfl] at h
    linarith
  | false =>
    rw [if_neg Bool.false_ne_true, one_mul, div_eq_iff hpos.ne'] at h
    have hnat : m = n * k := by exact_mod_cast h
    exact ⟨rfl, by rw [hnat, Nat.mul_div_cancel _ hk]⟩

/-- A double that is a natural number is truncated to it. -/
theorem truncate_eq {d : Double} {n : ℕ} (hn : 0 < n) (h : d.value = n) : d.truncate = n := by
  have hscale : (2 : ℚ) ^ 1074 = ((2 ^ 1074 : ℕ) : ℚ) := (Nat.cast_pow 2 1074).symm
  have hscaled : (d.mantissa : ℚ) * 2 ^ d.exponent = ((d.mantissa * 2 ^ d.exponent : ℕ) : ℚ) := by
    rw [Nat.cast_mul, Nat.cast_pow, Nat.cast_ofNat]
  rw [Double.value, hscale, hscaled] at h
  obtain ⟨hsign, hquotient⟩ := natAbs_eq_of_div (pow_pos Nat.two_pos 1074) hn h
  rw [Double.truncate, hsign, hquotient]
  rfl

end NeuroLab.Python
