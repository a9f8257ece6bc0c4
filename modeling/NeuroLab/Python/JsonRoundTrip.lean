import Mathlib.Data.Nat.Digits.Lemmas
import NeuroLab.Python.Json

/-!
# Printed JSON is read back as the same value

For values without floats, whose objects have distinct keys and whose integers stay
within the digit limit, `loads` inverts `dumps`. The induction follows the printer:
a value is read from the front of any text in which it is followed by the end, a
comma or a closing bracket, which is exactly what the printer puts there.
-/

namespace NeuroLab.Python

namespace Json

mutual

/-- Values `dumps` prints without `float.__repr__` and `loads` accepts back. -/
def plain : Json → Bool
  | float _ => false
  | int n => decide ((decimal n.natAbs).length ≤ maxStrDigits)
  | arr vs => plainItems vs
  | obj fs => decide (fs.map Prod.fst).Nodup && plainFields fs
  | _ => true

/-- Every item is plain. -/
def plainItems : List Json → Bool
  | [] => true
  | v :: vs => plain v && plainItems vs

/-- Every member value is plain. -/
def plainFields : List (Str × Json) → Bool
  | [] => true
  | (_, v) :: fs => plain v && plainFields fs

end

end Json

/-- What the printer leaves behind a value: the end, a comma or a closing bracket. -/
def Delimited (s : Str) : Prop := ∀ c t, s = c :: t → c = 0x2C ∨ c = 0x5D ∨ c = 0x7D

theorem delimited_nil : Delimited [] := fun _ _ h => nomatch h

theorem delimited_cons {c : ℕ} (h : c = 0x2C ∨ c = 0x5D ∨ c = 0x7D) (s : Str) :
    Delimited (c :: s) := fun _ _ hs => (List.cons.inj hs).1 ▸ h

/-- A property of the delimiters holds at the head of the text that follows a value. -/
theorem Delimited.head {s : Str} (h : Delimited s) {p : ℕ → Prop}
    (hp : p 0x2C ∧ p 0x5D ∧ p 0x7D) : ∀ c t, s = c :: t → p c := by
  intro c t hs
  rcases h c t hs with rfl | rfl | rfl
  · exact hp.1
  · exact hp.2.1
  · exact hp.2.2

/-! ## Numbers -/

theorem decimal_ne_nil (n : ℕ) : decimal n ≠ [] := by
  unfold decimal
  split
  · exact List.cons_ne_nil _ _
  · next h => simpa [Nat.digits_eq_nil_iff_eq_zero] using h

/-- Every character of a printed number is a digit. -/
theorem isDigit_of_mem_decimal {n c : ℕ} (h : c ∈ decimal n) : isDigit c = true := by
  unfold decimal at h
  split at h
  · obtain rfl := List.mem_singleton.mp h
    rfl
  · obtain ⟨d, hd, rfl⟩ := List.mem_map.mp (List.mem_reverse.mp h)
    have hlt := Nat.digits_lt_base (by decide : 1 < 10) hd
    simp only [isDigit, Bool.and_eq_true, decide_eq_true_eq]
    omega

/-- A printed number spells the number. -/
theorem digitsValue_decimal (n : ℕ) : digitsValue (decimal n) = n := by
  unfold decimal digitsValue
  split
  · next h => simp [h]
  · rw [List.map_reverse, List.reverse_reverse, List.map_map]
    have hid : ((fun x => x - 0x30) ∘ fun x => x + 0x30) = (id : ℕ → ℕ) := by
      funext d
      simp
    rw [hid, List.map_id, Nat.ofDigits_digits]

/-- Only zero is printed with a leading zero. -/
theorem decimal_leading_zero {n : ℕ} {ds : Str} (h : decimal n = 0x30 :: ds) : ds = [] := by
  unfold decimal at h
  split at h
  · exact (List.cons.inj h).2.symm
  · next hn =>
    have hne : Nat.digits 10 n ≠ [] := by simpa [Nat.digits_eq_nil_iff_eq_zero] using hn
    have hhead : ((Nat.digits 10 n).map (· + 0x30)).reverse.head? = some 0x30 := by rw [h]; rfl
    rw [List.head?_reverse, List.getLast?_map, List.getLast?_eq_some_getLast hne] at hhead
    have hzero : (Nat.digits 10 n).getLast hne = 0 := by simpa using hhead
    exact absurd hzero (Nat.getLast_digit_ne_zero 10 hn)

/-- The digits of a printed number are delimited by what follows it. -/
theorem span_decimal (n : ℕ) {s : Str} (hs : ∀ c t, s = c :: t → isDigit c = false) :
    (decimal n ++ s).takeWhile isDigit = decimal n := by
  rw [List.takeWhile_append_of_pos fun c hc => isDigit_of_mem_decimal hc]
  cases s with
  | nil => simp
  | cons c t => simp [hs c t rfl]

/-- What follows a printed number is neither a fraction nor an exponent. -/
theorem scanFraction_delimited {s : Str} (hs : Delimited s) : scanFraction s = ([], s) := by
  cases s with
  | nil => rfl
  | cons c t =>
    rcases hs c t rfl with rfl | rfl | rfl <;> rfl

theorem scanExponent_delimited {s : Str} (hs : Delimited s) : scanExponent s = (none, s) := by
  cases s with
  | nil => rfl
  | cons c t =>
    rcases hs c t rfl with rfl | rfl | rfl <;> rfl

/-- The digits of a printed number are read back with its sign. -/
theorem scanNumber_decimal (negative : Bool) {n : ℕ} (hn : (decimal n).length ≤ maxStrDigits) {s : Str}
    (hs : Delimited s) :
    scanNumber negative (decimal n ++ s) =
      .ok (.int (if negative then -(n : ℤ) else n), s) := by
  have hspan := span_decimal n (hs.head (p := fun c => isDigit c = false) (by decide))
  obtain ⟨d, ds, hd⟩ := List.exists_cons_of_ne_nil (decimal_ne_nil n)
  have hwhole : (if d = 0x30 then [d] else d :: ds) = decimal n := by
    split
    · next h =>
      subst h
      rw [hd, decimal_leading_zero hd]
    · exact hd.symm
  have hlen : ¬ maxStrDigits < (decimal n).length := Nat.not_lt.mpr hn
  unfold scanNumber
  rw [hspan, hd]
  simp only [hwhole]
  rw [← hd, List.drop_left, scanFraction_delimited hs]
  simp only [scanExponent_delimited hs]
  simp [hlen, digitsValue_decimal]

/-! ## Strings -/

theorem hexValue_hexDigit {n : ℕ} (h : n < 16) : hexValue (hexDigit n) = some n := by
  have hall : ∀ m, m < 16 → hexValue (hexDigit m) = some m := by decide
  exact hall n h

/-- One printed character costs the reader one step. -/
theorem scanString_escapeChar (fuel c : ℕ) (s : Str) :
    scanString (fuel + 1) (escapeChar c ++ s) =
      (scanString fuel s).map fun r => (c :: r.1, r.2) := by
  have hplain : ∀ u t, readEscape t = some (u, s) →
      scanString (fuel + 1) (0x5C :: t) = (scanString fuel s).map fun r => (u :: r.1, r.2) := by
    intro u t ht
    rw [scanString, if_neg (by decide), if_pos rfl, ht]
    change (scanString fuel s).bind (fun r => some (u :: r.1, r.2)) = _
    cases scanString fuel s <;> rfl
  unfold escapeChar
  split
  · next h =>
    subst h
    exact hplain _ _ rfl
  split
  · next h =>
    subst h
    exact hplain _ _ rfl
  split
  · next h =>
    subst h
    exact hplain _ _ rfl
  split
  · next h =>
    subst h
    exact hplain _ _ rfl
  split
  · next h =>
    subst h
    exact hplain _ _ rfl
  split
  · next h =>
    subst h
    exact hplain _ _ rfl
  split
  · next h =>
    subst h
    exact hplain _ _ rfl
  split
  · next h =>
    refine hplain c _ ?_
    have hhigh := hexValue_hexDigit (n := c / 16) (by omega)
    have hlow := hexValue_hexDigit (n := c % 16) (by omega)
    have hvalue : c / 16 * 16 + c % 16 = c := by omega
    have hsmall : ¬ (0xD800 ≤ c) := by omega
    simp [readEscape, hex4, hhigh, hlow, hvalue, hsmall, show hexValue 0x30 = some 0 from rfl]
  · next hquote hbackslash _ _ _ _ _ hcontrol =>
    simp only [List.singleton_append, scanString, hquote, hbackslash, hcontrol, if_false]
    cases scanString fuel s <;> rfl

/-- A printed string is read back up to its closing quote. -/
theorem scanString_flatMap (t s : Str) {fuel : ℕ} (h : t.length < fuel) :
    scanString fuel (t.flatMap escapeChar ++ 0x22 :: s) = some (t, s) := by
  induction t generalizing fuel with
  | nil =>
    obtain ⟨fuel, rfl⟩ := Nat.exists_eq_succ_of_ne_zero (Nat.ne_zero_of_lt h)
    simp [scanString]
  | cons c t ih =>
    obtain ⟨fuel, rfl⟩ := Nat.exists_eq_succ_of_ne_zero (Nat.ne_zero_of_lt h)
    rw [List.flatMap_cons, List.append_assoc, scanString_escapeChar,
      ih (by simpa using h), Option.map_some]

theorem length_le_flatMap_escapeChar (t : Str) : t.length ≤ (t.flatMap escapeChar).length := by
  have hpos : ∀ c, 1 ≤ (escapeChar c).length := by
    intro c
    unfold escapeChar
    repeat' split
    all_goals simp
  induction t with
  | nil => simp
  | cons c t ih =>
    rw [List.flatMap_cons, List.length_append, List.length_cons]
    have := hpos c
    omega

/-- The form in which the readers of values and of keys meet a printed string. -/
theorem scanString_dumpsStr (t s : Str) :
    scanString ((t.flatMap escapeChar ++ 0x22 :: s).length + 1)
      (t.flatMap escapeChar ++ 0x22 :: s) = some (t, s) := by
  refine scanString_flatMap t s ?_
  rw [List.length_append]
  have := length_le_flatMap_escapeChar t
  omega

/-! ## Objects -/

theorem setItem_of_notMem {fields : List (Str × Json)} {k : Str} (v : Json)
    (h : k ∉ fields.map Prod.fst) : setItem fields k v = fields ++ [(k, v)] := if_neg h

/-- Distinct keys make a dictionary of the very same members. -/
theorem dictOf_of_nodup (fs : List (Str × Json)) (h : (fs.map Prod.fst).Nodup) :
    dictOf fs = fs := by
  have key : ∀ done rest : List (Str × Json), ((done ++ rest).map Prod.fst).Nodup →
      rest.foldl (fun d f => setItem d f.1 f.2) done = done ++ rest := by
    intro done rest
    induction rest generalizing done with
    | nil => simp
    | cons f rest ih =>
      intro hnodup
      have hfresh : f.1 ∉ done.map Prod.fst := by
        rw [List.map_append, List.map_cons, List.nodup_append] at hnodup
        intro hmem
        exact hnodup.2.2 _ hmem _ List.mem_cons_self rfl
      rw [List.foldl_cons, setItem_of_notMem _ hfresh, ih _ (by simpa using hnodup)]
      simp
  simpa [dictOf] using key [] fs (by simpa using h)

/-! ## Values -/

theorem skipSpace_cons {c : ℕ} (s : Str)
    (h : c ≠ 0x20 ∧ c ≠ 0x09 ∧ c ≠ 0x0A ∧ c ≠ 0x0D) : skipSpace (c :: s) = c :: s := by
  simp [skipSpace, h]

theorem skipSpace_space (s : Str) : skipSpace (0x20 :: s) = skipSpace s := by
  simp [skipSpace]

/-- A digit starts none of the constants. -/
theorem scanConstant_digit {c : ℕ} (h : isDigit c = true) (s : Str) :
    scanConstant (c :: s) = none := by
  simp only [isDigit, Bool.and_eq_true, decide_eq_true_eq] at h
  have hne : ∀ (d : ℕ) (w : Str), ¬ isDigit d = true → after? (d :: w) (c :: s) = none := by
    intro d w hd
    have : d ≠ c := by
      rintro rfl
      simp [isDigit, h] at hd
    simp [after?, List.isPrefixOf, this]
  unfold scanConstant
  rw [show lit "null" = 0x6E :: lit "ull" from by decide,
    show lit "true" = 0x74 :: lit "rue" from by decide,
    show lit "false" = 0x66 :: lit "alse" from by decide,
    show lit "NaN" = 0x4E :: lit "aN" from by decide,
    show lit "Infinity" = 0x49 :: lit "nfinity" from by decide,
    show lit "-Infinity" = 0x2D :: lit "Infinity" from by decide]
  simp [hne _ _ (by decide : ¬ isDigit 0x6E = true), hne _ _ (by decide : ¬ isDigit 0x74 = true),
    hne _ _ (by decide : ¬ isDigit 0x66 = true), hne _ _ (by decide : ¬ isDigit 0x4E = true),
    hne _ _ (by decide : ¬ isDigit 0x49 = true), hne _ _ (by decide : ¬ isDigit 0x2D = true)]

/-- A printed value does not start with whitespace, a closing bracket or a comma. -/
theorem dumps_head (floatRepr : PyFloat → Str) {v : Json} (hv : v.plain = true) :
    ∃ c t, dumps floatRepr v = c :: t ∧ c ≠ 0x20 ∧ c ≠ 0x09 ∧ c ≠ 0x0A ∧ c ≠ 0x0D ∧
      c ≠ 0x5D ∧ c ≠ 0x7D := by
  have hdecimal : ∀ n, ∃ c t, decimal n = c :: t ∧ c ≠ 0x20 ∧ c ≠ 0x09 ∧ c ≠ 0x0A ∧ c ≠ 0x0D ∧
      c ≠ 0x5D ∧ c ≠ 0x7D := by
    intro n
    obtain ⟨c, t, hc⟩ := List.exists_cons_of_ne_nil (decimal_ne_nil n)
    have hdigit := isDigit_of_mem_decimal (n := n) (c := c) (hc ▸ List.mem_cons_self)
    simp only [isDigit, Bool.and_eq_true, decide_eq_true_eq] at hdigit
    exact ⟨c, t, hc, by omega⟩
  match v with
  | .null => exact ⟨_, _, by rw [dumps]; rfl, by decide⟩
  | .bool true => exact ⟨_, _, by rw [dumps]; rfl, by decide⟩
  | .bool false => exact ⟨_, _, by rw [dumps]; rfl, by decide⟩
  | .int (.ofNat n) => simpa only [dumps, decimalInt] using hdecimal n
  | .int (.negSucc n) => exact ⟨_, _, by rw [dumps]; rfl, by decide⟩
  | .float _ => simp [Json.plain] at hv
  | .str _ => exact ⟨_, _, by rw [dumps]; rfl, by decide⟩
  | .arr [] => exact ⟨_, _, by rw [dumps], by decide⟩
  | .arr (_ :: _) => exact ⟨_, _, by rw [dumps]; rfl, by decide⟩
  | .obj [] => exact ⟨_, _, by rw [dumps], by decide⟩
  | .obj (_ :: _) => exact ⟨_, _, by rw [dumps]; rfl, by decide⟩

/-- The separators of the printer are delimiters. -/
theorem dumpsItems_delimited (floatRepr : PyFloat → Str) (vs : List Json) (s : Str) :
    Delimited (dumpsItems floatRepr vs ++ s) := by
  cases vs <;> exact delimited_cons (by decide) _

theorem dumpsFields_delimited (floatRepr : PyFloat → Str) (fs : List (Str × Json)) (s : Str) :
    Delimited (dumpsFields floatRepr fs ++ s) := by
  cases fs with
  | nil => exact delimited_cons (by decide) _
  | cons f fs => exact delimited_cons (by decide) _

/-- The reader skips nothing in front of a printed value. -/
theorem skipSpace_dumps (floatRepr : PyFloat → Str) {v : Json} (hv : v.plain = true) (s : Str) :
    skipSpace (dumps floatRepr v ++ s) = dumps floatRepr v ++ s := by
  obtain ⟨c, t, hc, h⟩ := dumps_head floatRepr hv
  rw [hc]
  exact skipSpace_cons _ ⟨h.1, h.2.1, h.2.2.1, h.2.2.2.1⟩

/-- A number is read when the text starts with a digit. -/
theorem scanValue_digit {c : ℕ} (hc : isDigit c = true) (fuel depth : ℕ) (s : Str) :
    scanValue (fuel + 1) depth (c :: s) = scanNumber false (c :: s) := by
  rw [scanValue, scanConstant_digit hc]
  simp only [isDigit, Bool.and_eq_true, decide_eq_true_eq] at hc
  rw [if_neg (by omega), if_neg (by omega), if_neg (by omega)]
  exact if_neg (by omega)

/-- A number is read behind a minus sign that a digit follows. -/
theorem scanValue_minus {c : ℕ} (hc : isDigit c = true) (fuel depth : ℕ) (s : Str) :
    scanValue (fuel + 1) depth (0x2D :: c :: s) = scanNumber true (c :: s) := by
  have hconstant : scanConstant (0x2D :: c :: s) = none := by
    simp only [isDigit, Bool.and_eq_true, decide_eq_true_eq] at hc
    have hinfinity : 0x49 ≠ c := by omega
    simp [scanConstant, after?, lit, List.isPrefixOf, hinfinity]
  rw [scanValue, hconstant]
  rfl

/-- A string is read behind its quote. -/
theorem scanValue_dumpsStr (fuel depth : ℕ) (t s : Str) :
    scanValue (fuel + 1) depth (dumpsStr t ++ s) = .ok (.str t, s) := by
  have htext : dumpsStr t ++ s = 0x22 :: (t.flatMap escapeChar ++ 0x22 :: s) := by simp [dumpsStr]
  rw [htext, scanValue, if_pos rfl, scanString_dumpsStr]

/-- An array is read item by item unless it is closed at once. -/
theorem scanValue_arr (fuel depth : ℕ) {s : Str} {c : ℕ} {t : Str} (hs : skipSpace s = c :: t)
    (hc : c ≠ 0x5D) : scanValue (fuel + 1) (depth + 1) (0x5B :: s) =
      (scanItems fuel depth (skipSpace s)).map fun r => (.arr r.1, r.2) := by
  rw [scanValue, if_neg (by decide), if_pos rfl, if_neg (Nat.succ_ne_zero depth), hs]
  split
  · next h => exact absurd (List.cons.inj h).1 hc
  · rfl

/-- An object is read member by member unless it is closed at once. -/
theorem scanValue_obj (fuel depth : ℕ) {s : Str} {c : ℕ} {t : Str} (hs : skipSpace s = c :: t)
    (hc : c ≠ 0x7D) : scanValue (fuel + 1) (depth + 1) (0x7B :: s) =
      (scanFields fuel depth (skipSpace s)).map fun r => (.obj (dictOf r.1), r.2) := by
  rw [scanValue, if_neg (by decide), if_neg (by decide), if_pos rfl,
    if_neg (Nat.succ_ne_zero depth), hs]
  split
  · next h => exact absurd (List.cons.inj h).1 hc
  · rfl

/-- A printed integer is read back. -/
theorem scanValue_int {n : ℤ} (hn : (decimal n.natAbs).length ≤ maxStrDigits) (fuel depth : ℕ)
    {s : Str} (hs : Delimited s) :
    scanValue (fuel + 1) depth (decimalInt n ++ s) = .ok (.int n, s) := by
  match n with
  | .ofNat n =>
    obtain ⟨c, t, hc⟩ := List.exists_cons_of_ne_nil (decimal_ne_nil n)
    have hdigit := isDigit_of_mem_decimal (n := n) (c := c) (hc ▸ List.mem_cons_self)
    have hnumber := scanNumber_decimal (n := n) false hn hs
    simp only [decimalInt]
    rw [hc, List.cons_append] at hnumber
    rw [hc, List.cons_append, scanValue_digit hdigit, hnumber]
    rfl
  | .negSucc n =>
    obtain ⟨c, t, hc⟩ := List.exists_cons_of_ne_nil (decimal_ne_nil (n + 1))
    have hdigit := isDigit_of_mem_decimal (n := n + 1) (c := c) (hc ▸ List.mem_cons_self)
    have hnumber := scanNumber_decimal (n := n + 1) true hn hs
    rw [hc, List.cons_append] at hnumber
    simp only [decimalInt, List.cons_append]
    rw [hc, List.cons_append, scanValue_minus hdigit, hnumber]
    rfl

mutual

/-- A printed value is read from the front of any text that goes on with a delimiter. -/
theorem scanValue_dumps (floatRepr : PyFloat → Str) : ∀ (v : Json) (fuel depth : ℕ) (s : Str),
    v.plain = true → v.depth ≤ depth → 2 * (dumps floatRepr v).length < fuel → Delimited s →
    scanValue fuel depth (dumps floatRepr v ++ s) = .ok (v, s)
  | _, 0, _, _, _, _, hfuel, _ => absurd hfuel (Nat.not_lt_zero _)
  | .null, _ + 1, _, _, _, _, _, _ => by
    simp [dumps, lit, scanValue, scanConstant, after?]
  | .bool true, _ + 1, _, _, _, _, _, _ => by
    simp [dumps, lit, scanValue, scanConstant, after?]
  | .bool false, _ + 1, _, _, _, _, _, _ => by
    simp [dumps, lit, scanValue, scanConstant, after?]
  | .int n, fuel + 1, depth, s, hv, _, _, hs => by
    rw [dumps]
    exact scanValue_int (by simpa [Json.plain] using hv) fuel depth hs
  | .float _, _, _, _, hv, _, _, _ => by simp [Json.plain] at hv
  | .str t, fuel + 1, depth, s, _, _, _, _ => by
    rw [dumps, scanValue_dumpsStr]
  | .arr _, _ + 1, 0, _, _, hdepth, _, _ => by simp [Json.depth] at hdepth
  | .obj _, _ + 1, 0, _, _, hdepth, _, _ => by simp [Json.depth] at hdepth
  | .arr [], _ + 1, _ + 1, _, _, _, _, _ => by simp [dumps, scanValue, skipSpace]
  | .obj [], _ + 1, _ + 1, _, _, _, _, _ => by simp [dumps, scanValue, skipSpace]
  | .arr (v :: vs), fuel + 1, depth + 1, s, hv, hdepth, hfuel, _ => by
    simp only [Json.plain, Json.plainItems, Bool.and_eq_true] at hv
    simp only [Json.depth, Json.depthItems, Nat.add_le_add_iff_right] at hdepth
    simp only [dumps, List.length_cons, List.length_append] at hfuel
    obtain ⟨c, t, hc, hhead⟩ := dumps_head floatRepr hv.1
    have hskip := skipSpace_dumps floatRepr hv.1 (dumpsItems floatRepr vs ++ s)
    have hstart : skipSpace (dumps floatRepr v ++ (dumpsItems floatRepr vs ++ s)) =
        c :: (t ++ (dumpsItems floatRepr vs ++ s)) := by rw [hskip, hc, List.cons_append]
    have htext : dumps floatRepr (.arr (v :: vs)) ++ s =
        0x5B :: (dumps floatRepr v ++ (dumpsItems floatRepr vs ++ s)) := by simp [dumps]
    rw [htext, scanValue_arr fuel depth hstart (by omega), hskip,
      scanItems_dumps floatRepr v vs fuel depth s hv.1 hv.2 (by omega) (by omega) (by omega)]
    rfl
  | .obj ((k, v) :: fs), fuel + 1, depth + 1, s, hv, hdepth, hfuel, _ => by
    simp only [Json.plain, Json.plainFields, Bool.and_eq_true, decide_eq_true_eq] at hv
    simp only [Json.depth, Json.depthFields, Nat.add_le_add_iff_right] at hdepth
    simp only [dumps, List.length_cons, List.length_append, List.length_nil] at hfuel
    have hfields := scanFields_dumps floatRepr k v fs fuel depth s hv.2.1 hv.2.2
      (by omega) (by omega) (by omega)
    have hstart : skipSpace (dumpsStr k ++ (0x3A :: 0x20 :: (dumps floatRepr v ++
        (dumpsFields floatRepr fs ++ s)))) = dumpsStr k ++ (0x3A :: 0x20 :: (dumps floatRepr v ++
        (dumpsFields floatRepr fs ++ s))) := skipSpace_cons _ (by decide)
    have htext : dumps floatRepr (.obj ((k, v) :: fs)) ++ s =
        0x7B :: (dumpsStr k ++ (0x3A :: 0x20 :: (dumps floatRepr v ++
          (dumpsFields floatRepr fs ++ s)))) := by simp [dumps]
    rw [htext, scanValue_obj fuel depth (hstart.trans rfl) (by decide), hstart, hfields]
    simp [Except.map, dictOf_of_nodup _ hv.1]

/-- Printed items are read up to the closing bracket. -/
theorem scanItems_dumps (floatRepr : PyFloat → Str) : ∀ (v : Json) (vs : List Json)
    (fuel depth : ℕ) (s : Str), v.plain = true → Json.plainItems vs = true → v.depth ≤ depth →
    Json.depthItems vs ≤ depth →
    2 * ((dumps floatRepr v).length + (dumpsItems floatRepr vs).length) < fuel →
    scanItems fuel depth (dumps floatRepr v ++ (dumpsItems floatRepr vs ++ s)) = .ok (v :: vs, s)
  | _, _, 0, _, _, _, _, _, _, hfuel => absurd hfuel (Nat.not_lt_zero _)
  | v, vs, fuel + 1, depth, s, hv, hvs, hdepth, hdepths, hfuel => by
    have hpos : 0 < (dumpsItems floatRepr vs).length := by cases vs <;> simp [dumpsItems]
    rw [scanItems, scanValue_dumps floatRepr v fuel depth _ hv hdepth (by omega)
      (dumpsItems_delimited floatRepr vs s)]
    cases vs with
    | nil => rfl
    | cons w vs =>
      simp only [Json.plainItems, Bool.and_eq_true] at hvs
      simp only [Json.depthItems] at hdepths
      simp only [dumpsItems, List.length_append, List.length_cons, List.length_nil] at hfuel
      have hskip : skipSpace (0x20 :: (dumps floatRepr w ++ (dumpsItems floatRepr vs ++ s))) =
          dumps floatRepr w ++ (dumpsItems floatRepr vs ++ s) := by
        rw [skipSpace_space, skipSpace_dumps floatRepr hvs.1]
      have htail := scanItems_dumps floatRepr w vs fuel depth s hvs.1 hvs.2
        (by omega) (by omega) (by omega)
      have htext : dumpsItems floatRepr (w :: vs) ++ s =
          0x2C :: 0x20 :: (dumps floatRepr w ++ (dumpsItems floatRepr vs ++ s)) := by
        simp [dumpsItems]
      rw [htext]
      change (do
        let (ws, s) ← scanItems fuel depth
          (skipSpace (0x20 :: (dumps floatRepr w ++ (dumpsItems floatRepr vs ++ s))))
        Except.ok (v :: ws, s)) = _
      rw [hskip, htail]
      rfl

/-- Printed members are read up to the closing brace. -/
theorem scanFields_dumps (floatRepr : PyFloat → Str) : ∀ (k : Str) (v : Json)
    (fs : List (Str × Json)) (fuel depth : ℕ) (s : Str), v.plain = true →
    Json.plainFields fs = true → v.depth ≤ depth → Json.depthFields fs ≤ depth →
    2 * ((dumpsStr k).length + (dumps floatRepr v).length +
      (dumpsFields floatRepr fs).length) < fuel →
    scanFields fuel depth (dumpsStr k ++ (0x3A :: 0x20 :: (dumps floatRepr v ++
      (dumpsFields floatRepr fs ++ s)))) = .ok ((k, v) :: fs, s)
  | _, _, _, 0, _, _, _, _, _, _, hfuel => absurd hfuel (Nat.not_lt_zero _)
  | k, v, fs, fuel + 1, depth, s, hv, hfs, hdepth, hdepths, hfuel => by
    have hpos : 0 < (dumpsFields floatRepr fs).length := by
      cases fs <;> simp [dumpsFields]
    have htext : ∀ rest, dumpsStr k ++ rest = 0x22 :: (k.flatMap escapeChar ++ 0x22 :: rest) := by
      simp [dumpsStr]
    have hskip : ∀ rest, skipSpace (0x20 :: (dumps floatRepr v ++ rest)) =
        dumps floatRepr v ++ rest := by
      intro rest
      rw [skipSpace_space, skipSpace_dumps floatRepr hv]
    rw [htext, scanFields]
    simp only [scanString_dumpsStr]
    rw [skipSpace_cons _ (by decide)]
    simp only [hskip]
    rw [scanValue_dumps floatRepr v fuel depth _ hv hdepth (by omega)
      (dumpsFields_delimited floatRepr fs s)]
    match fs with
    | [] => rfl
    | (l, w) :: fs =>
      simp only [Json.plainFields, Bool.and_eq_true] at hfs
      simp only [Json.depthFields] at hdepths
      simp only [dumpsFields, List.length_append, List.length_cons, List.length_nil] at hfuel
      have htail := scanFields_dumps floatRepr l w fs fuel depth s hfs.1 hfs.2
        (by omega) (by omega) (by omega)
      have hrest : dumpsFields floatRepr ((l, w) :: fs) ++ s =
          0x2C :: 0x20 :: (dumpsStr l ++ (0x3A :: 0x20 :: (dumps floatRepr w ++
            (dumpsFields floatRepr fs ++ s)))) := by
        simp [dumpsFields]
      have hquote : skipSpace (0x20 :: (dumpsStr l ++ (0x3A :: 0x20 :: (dumps floatRepr w ++
          (dumpsFields floatRepr fs ++ s))))) = dumpsStr l ++ (0x3A :: 0x20 ::
            (dumps floatRepr w ++ (dumpsFields floatRepr fs ++ s))) := by
        rw [skipSpace_space]
        exact skipSpace_cons _ (by decide)
      rw [hrest]
      change (do
        let (gs, s) ← scanFields fuel depth (skipSpace (0x20 :: (dumpsStr l ++ (0x3A :: 0x20 ::
          (dumps floatRepr w ++ (dumpsFields floatRepr fs ++ s))))))
        Except.ok ((k, v) :: gs, s)) = _
      rw [hquote, htail]
      rfl

end

/-- `json.loads` inverts `json.dumps` on plain values within the recursion limit. -/
theorem loads_dumps (floatRepr : PyFloat → Str) {v : Json} (hv : v.plain = true)
    {recursionLimit : ℕ} (hdepth : v.depth ≤ recursionLimit) :
    loads recursionLimit (dumps floatRepr v) = .ok v := by
  have hskip := skipSpace_dumps floatRepr hv []
  have hscan := scanValue_dumps floatRepr v (2 * (dumps floatRepr v).length + 2) recursionLimit []
    hv hdepth (by omega) delimited_nil
  rw [List.append_nil] at hskip hscan
  rw [loads, hskip, hscan]
  rfl

end NeuroLab.Python
