import Mathlib.Data.Nat.Digits.Defs

/-!
# JSON values and the `json` module of the standard library

`loads` follows the accelerated scanner of `json.loads`: strict strings, `NaN` and the
infinities, one dictionary entry per key, the limit on the digits of an integer, and
the recursion limit of the interpreter, whose violation is not a `ValueError`. `dumps`
is `json.dumps` with `ensure_ascii=False` and the default separators.

A Python `str` is the list of its code points, so that the lone surrogates a JSON
escape can produce are representable. A float is kept as the decimal its literal
spells; the double it denotes is the nearest one.
-/

namespace NeuroLab.Python

/-- A Python `str`: its code points. -/
abbrev Str := List ℕ

instance : LawfulBEq Str := inferInstance

/-- The code points of a literal. -/
def lit (s : String) : Str := s.toList.map Char.toNat

/-- A float literal, or one of the three constants that JSON text has no digits for. -/
inductive PyFloat
  | finite (negative : Bool) (mantissa : ℕ) (exponent : ℤ)
  | infinite (negative : Bool)
  | nan
deriving DecidableEq

/-- The values `json.loads` returns; an object is a `dict` in insertion order. -/
inductive Json
  | null
  | bool (b : Bool)
  | int (n : ℤ)
  | float (x : PyFloat)
  | str (s : Str)
  | arr (items : List Json)
  | obj (fields : List (Str × Json))

namespace Json

mutual

/-- Structural equality test. -/
def same : Json → Json → Bool
  | null, null => true
  | bool a, bool b => decide (a = b)
  | int a, int b => decide (a = b)
  | float a, float b => decide (a = b)
  | str a, str b => decide (a = b)
  | arr a, arr b => sameItems a b
  | obj a, obj b => sameFields a b
  | _, _ => false

/-- Structural equality of two arrays. -/
def sameItems : List Json → List Json → Bool
  | [], [] => true
  | a :: as, b :: bs => same a b && sameItems as bs
  | _, _ => false

/-- Structural equality of two member lists. -/
def sameFields : List (Str × Json) → List (Str × Json) → Bool
  | [], [] => true
  | (k, a) :: as, (l, b) :: bs => decide (k = l) && (same a b && sameFields as bs)
  | _, _ => false

end

mutual

/-- The structural test decides equality. -/
theorem same_iff : ∀ a b : Json, same a b = true ↔ a = b
  | null, b => by cases b <;> simp [same]
  | bool _, b => by cases b <;> simp [same]
  | int _, b => by cases b <;> simp [same]
  | float _, b => by cases b <;> simp [same]
  | str _, b => by cases b <;> simp [same]
  | arr as, b => by cases b <;> simp [same, sameItems_iff as]
  | obj as, b => by cases b <;> simp [same, sameFields_iff as]

/-- The structural test decides equality of arrays. -/
theorem sameItems_iff : ∀ as bs : List Json, sameItems as bs = true ↔ as = bs
  | [], bs => by cases bs <;> simp [sameItems]
  | a :: as, bs => by cases bs <;> simp [sameItems, same_iff a, sameItems_iff as]

/-- The structural test decides equality of member lists. -/
theorem sameFields_iff : ∀ as bs : List (Str × Json), sameFields as bs = true ↔ as = bs
  | [], bs => by cases bs <;> simp [sameFields]
  | (k, a) :: as, bs => by
    cases bs with
    | nil => simp [sameFields]
    | cons f bs => simp [sameFields, same_iff a, sameFields_iff as, Prod.ext_iff, and_assoc]

end

instance : DecidableEq Json := fun a b => decidable_of_iff _ (same_iff a b)

mutual

/-- How many containers are open at the innermost value. -/
def depth : Json → ℕ
  | arr vs => depthItems vs + 1
  | obj fs => depthFields fs + 1
  | _ => 0

/-- The deepest item. -/
def depthItems : List Json → ℕ
  | [] => 0
  | v :: vs => max (depth v) (depthItems vs)

/-- The deepest member. -/
def depthFields : List (Str × Json) → ℕ
  | [] => 0
  | (_, v) :: fs => max (depth v) (depthFields fs)

end

end Json

/-- `dict.get`, on the members of an object. -/
def get? (fields : List (Str × Json)) (k : Str) : Option Json :=
  (fields.find? fun f => decide (f.1 = k)).map Prod.snd

/-- `dict.get(key, default)`. -/
def getD (fields : List (Str × Json)) (k : Str) (fallback : Json) : Json :=
  (get? fields k).getD fallback

/-- `d[key] = value`: a known key keeps its place. -/
def setItem (fields : List (Str × Json)) (k : Str) (v : Json) : List (Str × Json) :=
  if k ∈ fields.map Prod.fst then fields.map fun f => if f.1 = k then (k, v) else f
  else fields ++ [(k, v)]

/-- `dict(pairs)`: the last pair of a repeated key wins. -/
def dictOf (pairs : List (Str × Json)) : List (Str × Json) :=
  pairs.foldl (fun d f => setItem d f.1 f.2) []

/-- Whether the nearest double is zero: a literal of at most `2⁻¹⁰⁷⁵` rounds to it. -/
def PyFloat.isZero : PyFloat → Bool
  | .finite _ m (.ofNat _) => m = 0
  | .finite _ m (.negSucc e) => decide (m * 2 ^ 1075 ≤ 10 ^ (e + 1))
  | _ => false

/-- `bool(value)`. -/
def truthy : Json → Bool
  | .null => false
  | .bool b => b
  | .int n => n != 0
  | .float x => !x.isZero
  | .str s => !s.isEmpty
  | .arr items => !items.isEmpty
  | .obj fields => !fields.isEmpty

/-! ## Reading -/

/-- How `json.loads` fails: with a `JSONDecodeError`, with the plain `ValueError` of an integer that is too
long, or by running out of stack. -/
inductive LoadsError
  | valueError
  | digitLimit
  | recursionError
deriving DecidableEq

/-- The four characters JSON calls whitespace. -/
def skipSpace : Str → Str := List.dropWhile fun c => c = 0x20 || c = 0x09 || c = 0x0A || c = 0x0D

def isDigit (c : ℕ) : Bool := 0x30 ≤ c && c ≤ 0x39

/-- The value of an ASCII hexadecimal digit. -/
def hexValue (c : ℕ) : Option ℕ :=
  if 0x30 ≤ c ∧ c ≤ 0x39 then some (c - 0x30)
  else if 0x61 ≤ c ∧ c ≤ 0x66 then some (c - 0x61 + 10)
  else if 0x41 ≤ c ∧ c ≤ 0x46 then some (c - 0x41 + 10)
  else none

/-- The four digits of a `\u` escape. -/
def hex4 : Str → Option (ℕ × Str)
  | a :: b :: c :: d :: s => do
    let a ← hexValue a
    let b ← hexValue b
    let c ← hexValue c
    let d ← hexValue d
    some (((a * 16 + b) * 16 + c) * 16 + d, s)
  | _ => none

/-- The low half of a surrogate pair, when the text goes on with one. -/
def lowSurrogate : Str → Option (ℕ × Str)
  | 0x5C :: 0x75 :: s => (hex4 s).filter fun r => 0xDC00 ≤ r.1 && r.1 ≤ 0xDFFF
  | _ => none

/-- The escape after a backslash; a high surrogate takes a following low one with it. -/
def readEscape : Str → Option (ℕ × Str)
  | 0x22 :: s => some (0x22, s)
  | 0x5C :: s => some (0x5C, s)
  | 0x2F :: s => some (0x2F, s)
  | 0x62 :: s => some (0x08, s)
  | 0x66 :: s => some (0x0C, s)
  | 0x6E :: s => some (0x0A, s)
  | 0x72 :: s => some (0x0D, s)
  | 0x74 :: s => some (0x09, s)
  | 0x75 :: s => do
    let (u, s) ← hex4 s
    match if 0xD800 ≤ u && u ≤ 0xDBFF then lowSurrogate s else none with
    | some (v, s) => some (0x10000 + (u - 0xD800) * 0x400 + (v - 0xDC00), s)
    | none => some (u, s)
  | _ => none

/-- A strict string, from after its opening quote. -/
def scanString : ℕ → Str → Option (Str × Str)
  | 0, _ => none
  | _ + 1, [] => none
  | fuel + 1, c :: s =>
    if c = 0x22 then some ([], s)
    else if c = 0x5C then do
      let (u, s) ← readEscape s
      let (t, s) ← scanString fuel s
      some (u :: t, s)
    else if c < 0x20 then none
    else do
      let (t, s) ← scanString fuel s
      some (c :: t, s)

/-- The number a run of decimal digits spells. -/
def digitsValue (ds : Str) : ℕ := Nat.ofDigits 10 (ds.map (· - 0x30)).reverse

/-- `sys.get_int_max_str_digits()`. -/
def maxStrDigits : ℕ := 4300

/-- A `.` with at least one digit. -/
def scanFraction : Str → Str × Str
  | 0x2E :: s => if (s.takeWhile isDigit).isEmpty then ([], 0x2E :: s)
      else (s.takeWhile isDigit, s.dropWhile isDigit)
  | s => ([], s)

/-- An `e`, an optional sign and at least one digit. -/
def scanExponent (s : Str) : Option ℤ × Str :=
  match s with
  | e :: t =>
    if e = 0x65 ∨ e = 0x45 then
      let (negative, t) := match t with
        | 0x2B :: t => (false, t)
        | 0x2D :: t => (true, t)
        | t => (false, t)
      let ds := t.takeWhile isDigit
      if ds.isEmpty then (none, s)
      else (some (if negative then -(digitsValue ds : ℤ) else digitsValue ds), t.dropWhile isDigit)
    else (none, s)
  | [] => (none, s)

/-- A number without its sign; a leading zero stands alone. -/
def scanNumber (negative : Bool) (s : Str) : Except LoadsError (Json × Str) :=
  match s.takeWhile isDigit with
  | [] => .error .valueError
  | d :: ds =>
    let whole := if d = 0x30 then [d] else d :: ds
    let (fraction, s₁) := scanFraction (s.drop whole.length)
    let (exponent, s₂) := scanExponent s₁
    if fraction.isEmpty ∧ exponent = none then
      if maxStrDigits < whole.length then .error .digitLimit
      else .ok (.int (if negative then -(digitsValue whole : ℤ) else digitsValue whole), s₂)
    else
      .ok (.float (.finite negative (digitsValue (whole ++ fraction))
        (exponent.getD 0 - fraction.length)), s₂)

/-- The rest of a text that starts with the given word. -/
def after? (word s : Str) : Option Str :=
  if word.isPrefixOf s then some (s.drop word.length) else none

/-- The values that are not containers, strings or numbers. -/
def scanConstant (s : Str) : Option (Json × Str) :=
  ((after? (lit "null") s).map (Prod.mk .null)).orElse fun _ =>
  ((after? (lit "true") s).map (Prod.mk (.bool true))).orElse fun _ =>
  ((after? (lit "false") s).map (Prod.mk (.bool false))).orElse fun _ =>
  ((after? (lit "NaN") s).map (Prod.mk (.float .nan))).orElse fun _ =>
  ((after? (lit "Infinity") s).map (Prod.mk (.float (.infinite false)))).orElse fun _ =>
  (after? (lit "-Infinity") s).map (Prod.mk (.float (.infinite true)))

mutual

/-- One value. Every container opened spends one unit of the recursion limit. -/
def scanValue : ℕ → ℕ → Str → Except LoadsError (Json × Str)
  | 0, _, _ => .error .valueError
  | _ + 1, _, [] => .error .valueError
  | fuel + 1, depth, c :: s =>
    if c = 0x22 then
      match scanString (s.length + 1) s with
      | some (t, s) => .ok (.str t, s)
      | none => .error .valueError
    else if c = 0x5B then
      if depth = 0 then .error .recursionError
      else match skipSpace s with
        | 0x5D :: s => .ok (.arr [], s)
        | s => (scanItems fuel (depth - 1) s).map fun r => (.arr r.1, r.2)
    else if c = 0x7B then
      if depth = 0 then .error .recursionError
      else match skipSpace s with
        | 0x7D :: s => .ok (.obj [], s)
        | s => (scanFields fuel (depth - 1) s).map fun r => (.obj (dictOf r.1), r.2)
    else
      match scanConstant (c :: s) with
      | some r => .ok r
      | none => if c = 0x2D then scanNumber true s else scanNumber false (c :: s)

/-- The items of a non-empty array, up to its closing bracket. -/
def scanItems : ℕ → ℕ → Str → Except LoadsError (List Json × Str)
  | 0, _, _ => .error .valueError
  | fuel + 1, depth, s => do
    let (v, s) ← scanValue fuel depth s
    match skipSpace s with
    | 0x5D :: s => .ok ([v], s)
    | 0x2C :: s => do
      let (vs, s) ← scanItems fuel depth (skipSpace s)
      .ok (v :: vs, s)
    | _ => .error .valueError

/-- The members of a non-empty object, up to its closing brace. -/
def scanFields : ℕ → ℕ → Str → Except LoadsError (List (Str × Json) × Str)
  | 0, _, _ => .error .valueError
  | fuel + 1, depth, s =>
    match s with
    | 0x22 :: s =>
      match scanString (s.length + 1) s with
      | none => .error .valueError
      | some (k, s) =>
        match skipSpace s with
        | 0x3A :: s => do
          let (v, s) ← scanValue fuel depth (skipSpace s)
          match skipSpace s with
          | 0x7D :: s => .ok ([(k, v)], s)
          | 0x2C :: s => do
            let (fs, s) ← scanFields fuel depth (skipSpace s)
            .ok ((k, v) :: fs, s)
          | _ => .error .valueError
        | _ => .error .valueError
    | _ => .error .valueError

end

/-- `json.loads`, under the interpreter's recursion limit. Two units of fuel for each
character are never used up: a value is read for at least one character. -/
def loads (recursionLimit : ℕ) (s : Str) : Except LoadsError Json := do
  let (v, s) ← scanValue (2 * s.length + 2) recursionLimit (skipSpace s)
  if (skipSpace s).isEmpty then .ok v else .error .valueError

/-! ## Writing -/

/-- The decimal digits of a natural number. -/
def decimal (n : ℕ) : Str :=
  if n = 0 then [0x30] else ((Nat.digits 10 n).map (· + 0x30)).reverse

/-- `str` of an integer. -/
def decimalInt : ℤ → Str
  | .ofNat n => decimal n
  | .negSucc n => 0x2D :: decimal (n + 1)

/-- A lower-case hexadecimal digit. -/
def hexDigit (n : ℕ) : ℕ := if n < 10 then n + 0x30 else n - 10 + 0x61

/-- The escape sequence of a character, or the character itself. -/
def escapeChar (c : ℕ) : Str :=
  if c = 0x22 then [0x5C, 0x22]
  else if c = 0x5C then [0x5C, 0x5C]
  else if c = 0x0A then [0x5C, 0x6E]
  else if c = 0x0D then [0x5C, 0x72]
  else if c = 0x09 then [0x5C, 0x74]
  else if c = 0x0C then [0x5C, 0x66]
  else if c = 0x08 then [0x5C, 0x62]
  else if c < 0x20 then [0x5C, 0x75, 0x30, 0x30, hexDigit (c / 16), hexDigit (c % 16)]
  else [c]

/-- A quoted string. -/
def dumpsStr (s : Str) : Str := 0x22 :: s.flatMap escapeChar ++ [0x22]

mutual

/-- `json.dumps(value, ensure_ascii=False)`, given `float.__repr__`. -/
def dumps (floatRepr : PyFloat → Str) : Json → Str
  | .null => lit "null"
  | .bool true => lit "true"
  | .bool false => lit "false"
  | .int n => decimalInt n
  | .float x => floatRepr x
  | .str s => dumpsStr s
  | .arr [] => [0x5B, 0x5D]
  | .arr (v :: vs) => 0x5B :: dumps floatRepr v ++ dumpsItems floatRepr vs
  | .obj [] => [0x7B, 0x7D]
  | .obj ((k, v) :: fs) =>
    0x7B :: dumpsStr k ++ [0x3A, 0x20] ++ dumps floatRepr v ++ dumpsFields floatRepr fs

/-- The items after the first one, each behind its separator, and the closing bracket. -/
def dumpsItems (floatRepr : PyFloat → Str) : List Json → Str
  | [] => [0x5D]
  | v :: vs => [0x2C, 0x20] ++ dumps floatRepr v ++ dumpsItems floatRepr vs

/-- The members after the first one, each behind its separator, and the closing brace. -/
def dumpsFields (floatRepr : PyFloat → Str) : List (Str × Json) → Str
  | [] => [0x7D]
  | (k, v) :: fs =>
    [0x2C, 0x20] ++ dumpsStr k ++ [0x3A, 0x20] ++ dumps floatRepr v ++ dumpsFields floatRepr fs

end

end NeuroLab.Python
