import Mathlib.Data.List.Sort
import NeuroLab.Python.CompactJson
import NeuroLab.Python.Floats

/-!
# Flat objects in JSON

An object of texts, integers and doubles is read back from what `json.dumps` prints, each
double as a literal that denotes it. Compact JSON with sorted keys does not depend on the
order of the members, and determines them.
-/

namespace NeuroLab.Python

/-! ## The order of the keys -/

theorem lexLe_total (s t : Str) : lexLe s t = true ∨ lexLe t s = true := by
  induction s generalizing t with
  | nil => exact .inl rfl
  | cons c s ih =>
    cases t with
    | nil => exact .inr rfl
    | cons d t =>
      simp only [lexLe, Bool.or_eq_true, Bool.and_eq_true, decide_eq_true_eq]
      rcases lt_trichotomy c d with hlt | rfl | hgt
      · exact .inl (.inl hlt)
      · exact (ih t).imp (fun h => .inr ⟨rfl, h⟩) fun h => .inr ⟨rfl, h⟩
      · exact .inr (.inl hgt)

theorem lexLe_trans {s t u : Str} (hst : lexLe s t = true) (htu : lexLe t u = true) : lexLe s u = true := by
  induction s generalizing t u with
  | nil => rfl
  | cons c s ih =>
    cases t with
    | nil => cases hst
    | cons d t =>
      cases u with
      | nil => cases htu
      | cons e u =>
        simp only [lexLe, Bool.or_eq_true, Bool.and_eq_true, decide_eq_true_eq] at hst htu ⊢
        rcases hst with hlt | ⟨rfl, hst⟩
        · exact .inl (htu.elim (Nat.lt_trans hlt) fun h => h.1 ▸ hlt)
        · exact htu.imp id fun h => ⟨h.1, ih hst h.2⟩

theorem lexLe_antisymm {s t : Str} (hst : lexLe s t = true) (hts : lexLe t s = true) : s = t := by
  induction s generalizing t with
  | nil =>
    cases t with
    | nil => rfl
    | cons d t => cases hts
  | cons c s ih =>
    cases t with
    | nil => cases hst
    | cons d t =>
      simp only [lexLe, Bool.or_eq_true, Bool.and_eq_true, decide_eq_true_eq] at hst hts
      rcases hst with hlt | ⟨rfl, hst⟩
      · rcases hts with hgt | ⟨rfl, -⟩ <;> omega
      · rcases hts with hgt | ⟨-, hts⟩
        · omega
        · rw [ih hst hts]

/-- Members in the order of their keys. -/
def InOrder (f g : Str × Json) : Prop := lexLe f.1 g.1 = true

instance : IsTrans (Str × Json) InOrder := ⟨fun _ _ _ => lexLe_trans⟩

instance : Std.Total InOrder := ⟨fun f g => lexLe_total f.1 g.1⟩

instance : DecidableRel InOrder := fun f g => inferInstanceAs (Decidable (lexLe f.1 g.1 = true))

theorem perm_sortMembers (fs : List (Str × Json)) : (sortMembers fs).Perm fs := List.perm_insertionSort InOrder fs

/-- Sorted members do not depend on the order they had. -/
theorem sortMembers_congr {fs gs : List (Str × Json)} (h : fs.Perm gs) (hkeys : (fs.map Prod.fst).Nodup) :
    sortMembers fs = sortMembers gs := by
  have hperm : (sortMembers fs).Perm (sortMembers gs) := (perm_sortMembers fs).trans (h.trans (perm_sortMembers gs).symm)
  have hsame : ∀ f g, f ∈ sortMembers fs → g ∈ sortMembers gs → InOrder f g → InOrder g f → f = g := by
    intro f g hf hg hfg hgf
    have hf : f ∈ fs := (perm_sortMembers fs).subset hf
    have hg : g ∈ fs := h.symm.subset ((perm_sortMembers gs).subset hg)
    exact List.inj_on_of_nodup_map hkeys hf hg (lexLe_antisymm hfg hgf)
  exact hperm.eq_of_pairwise hsame (List.pairwise_insertionSort InOrder fs) (List.pairwise_insertionSort InOrder gs)

/-! ## Scalars -/

/-- The values whose text determines them. -/
inductive Scalar : Json → Prop
  | str (s : Str) : Scalar (.str s)
  | int {n : ℤ} : (decimal n.natAbs).length ≤ maxStrDigits → Scalar (.int n)
  | double (d : Double) : Scalar (.float d.literal)

/-- A decoded value is the given scalar, a float as the double it denotes. -/
inductive Denotes : Json → Json → Prop
  | str (s : Str) : Denotes (.str s) (.str s)
  | int (n : ℤ) : Denotes (.int n) (.int n)
  | float {x : PyFloat} {d : Double} : x.double = some d → Denotes (.float x) (.float d.literal)

theorem Denotes.eq_str {v : Json} {s : Str} (h : Denotes v (.str s)) : v = .str s := by
  cases h
  rfl

theorem Denotes.eq_int {v : Json} {n : ℤ} (h : Denotes v (.int n)) : v = .int n := by
  cases h
  rfl

theorem Denotes.eq_float {v : Json} {d : Double} (h : Denotes v (.float d.literal)) :
    ∃ x : PyFloat, v = .float x ∧ x.double = some d := by
  generalize hw : Json.float d.literal = w at h
  cases h with
  | @float x d' hx =>
    have hdouble := congrArg PyFloat.double (Json.float.inj hw)
    rw [Double.double_literal, Double.double_literal] at hdouble
    exact ⟨x, rfl, hx.trans hdouble.symm⟩
  | str s => cases hw
  | int n => cases hw
theorem Denotes.unique {v w w' : Json} (h : Denotes v w) (h' : Denotes v w') : w = w' := by
  cases h with
  | str s =>
    cases h'
    rfl
  | int n =>
    cases h'
    rfl
  | float hd =>
    generalize hw : w' = w'' at h'
    cases h' with
    | float hd' => rw [Option.some.inj (hd.symm.trans hd')]

/-- The text of a scalar is read back. -/
theorem Scalar.scan {v : Json} (h : Scalar v) (fuel depth : ℕ) {s : Str} (hs : Delimited s) :
    ∃ v', scanValue (fuel + 1) depth (compact PyFloat.text v ++ s) = .ok (v', s) ∧ Denotes v' v := by
  cases h with
  | str t => exact ⟨_, scanValue_dumpsStr fuel depth t s, .str t⟩
  | int hn => exact ⟨_, scanValue_int hn fuel depth hs, .int _⟩
  | double d =>
    obtain ⟨x, hscan, hx⟩ := d.scanValue_repr fuel depth hs
    refine ⟨.float x, ?_, .float hx⟩
    rw [compact, Double.text_of_double d.double_literal]
    exact hscan

/-- Scalars with one text in front of delimiters are the same. -/
theorem Scalar.eq_of_compact {v w : Json} (hv : Scalar v) (hw : Scalar w) {s t : Str} (hs : Delimited s) (ht : Delimited t)
    (h : compact PyFloat.text v ++ s = compact PyFloat.text w ++ t) : v = w ∧ s = t := by
  obtain ⟨v', hscan, hv'⟩ := hv.scan 0 0 hs
  obtain ⟨w', hscan', hw'⟩ := hw.scan 0 0 ht
  rw [h, hscan'] at hscan
  cases hscan
  exact ⟨hv'.unique hw', rfl⟩

theorem Scalar.dumps_eq {v : Json} (h : Scalar v) : dumps PyFloat.text v = compact PyFloat.text v := by
  cases h <;> rfl

/-- The reader skips nothing in front of a scalar. -/
theorem Scalar.skipSpace_compact {v : Json} (h : Scalar v) (s : Str) :
    skipSpace (compact PyFloat.text v ++ s) = compact PyFloat.text v ++ s := by
  have hdigit : ∀ c t, isDigit c = true → skipSpace (c :: t) = c :: t := by
    intro c t hc
    simp only [isDigit, Bool.and_eq_true, decide_eq_true_eq] at hc
    exact skipSpace_cons t (by omega)
  have hminus : ∀ t, skipSpace (0x2D :: t) = 0x2D :: t := fun t => skipSpace_cons t (by decide)
  cases h with
  | str t => exact skipSpace_cons _ (by decide)
  | @int n hn =>
    cases n with
    | ofNat n =>
      obtain ⟨c, t, hc⟩ := List.exists_cons_of_ne_nil (decimal_ne_nil n)
      rw [compact, decimalInt, hc]
      exact hdigit c _ (isDigit_of_mem_decimal (hc ▸ List.mem_cons_self))
    | negSucc n => exact hminus _
  | double d =>
    obtain ⟨c, t, hc, hcdigit⟩ := d.text_head
    rw [compact, Double.text_of_double d.double_literal, Double.repr]
    split
    · exact hminus _
    · rw [hc]
      exact hdigit c _ hcdigit

/-! ## Flat objects -/

/-- Only scalars under the keys. -/
def Flat (fs : List (Str × Json)) : Prop := ∀ f ∈ fs, Scalar f.2

/-- Members that are read under their keys, each as a value that denotes the one printed. -/
abbrev ReadAs : List (Str × Json) → List (Str × Json) → Prop := List.Forall₂ fun g f => g.1 = f.1 ∧ Denotes g.2 f.2

/-- A printed member is read up to the delimiter behind it. -/
theorem scanFields_member (k : Str) {v : Json} (hv : Scalar v) (fuel depth : ℕ) {rest : Str} (hrest : Delimited rest) :
    ∃ v', Denotes v' v ∧
      scanFields (fuel + 2) depth (dumpsStr k ++ 0x3A :: 0x20 :: (dumps PyFloat.text v ++ rest)) =
        match skipSpace rest with
        | 0x7D :: s => .ok ([(k, v')], s)
        | 0x2C :: s => do
          let (fs, s) ← scanFields (fuel + 1) depth (skipSpace s)
          .ok ((k, v') :: fs, s)
        | _ => .error .valueError := by
  obtain ⟨v', hscan, hdenotes⟩ := hv.scan fuel depth hrest
  refine ⟨v', hdenotes, ?_⟩
  have htext : ∀ t, dumpsStr k ++ t = 0x22 :: (k.flatMap escapeChar ++ 0x22 :: t) := by simp [dumpsStr]
  rw [htext, scanFields]
  simp only [scanString_dumpsStr]
  rw [skipSpace_cons _ (by decide)]
  simp only [skipSpace_space, hv.dumps_eq, hv.skipSpace_compact]
  rw [hscan]
  rfl

/-- Printed members are read up to the closing brace. -/
theorem scanFields_flat (k : Str) {v : Json} {fs : List (Str × Json)} (hv : Scalar v) (hfs : Flat fs) {fuel : ℕ}
    (depth : ℕ) (hfuel : fs.length + 1 < fuel) (s : Str) :
    ∃ gs, scanFields fuel depth
        (dumpsStr k ++ 0x3A :: 0x20 :: (dumps PyFloat.text v ++ (dumpsFields PyFloat.text fs ++ s))) = .ok (gs, s) ∧
      ReadAs gs ((k, v) :: fs) := by
  induction fs generalizing k v fuel with
  | nil =>
    obtain ⟨fuel, rfl⟩ : ∃ n, fuel = n + 2 := ⟨fuel - 2, by simp at hfuel; omega⟩
    obtain ⟨v', hdenotes, hmember⟩ := scanFields_member k hv fuel depth (dumpsFields_delimited PyFloat.text [] s)
    exact ⟨[(k, v')], hmember, .cons ⟨rfl, hdenotes⟩ .nil⟩
  | cons f fs ih =>
    obtain ⟨l, w⟩ := f
    obtain ⟨hw, hfs⟩ := List.forall_mem_cons.mp hfs
    rw [List.length_cons] at hfuel
    obtain ⟨fuel, rfl⟩ : ∃ n, fuel = n + 2 := ⟨fuel - 2, by omega⟩
    obtain ⟨v', hdenotes, hmember⟩ := scanFields_member k hv fuel depth (dumpsFields_delimited PyFloat.text ((l, w) :: fs) s)
    obtain ⟨gs, hrest, hgs⟩ := ih l hw hfs (show fs.length + 1 < fuel + 1 by omega)
    refine ⟨(k, v') :: gs, ?_, .cons ⟨rfl, hdenotes⟩ hgs⟩
    have htext : dumpsFields PyFloat.text ((l, w) :: fs) ++ s = 0x2C :: 0x20 ::
        (dumpsStr l ++ 0x3A :: 0x20 :: (dumps PyFloat.text w ++ (dumpsFields PyFloat.text fs ++ s))) := by
      simp [dumpsFields]
    rw [hmember, htext, skipSpace_cons _ (by decide)]
    change (do
      let (fs, s) ← scanFields (fuel + 1) depth (skipSpace (0x20 :: (dumpsStr l ++ _)))
      .ok ((k, v') :: fs, s)) = _
    rw [skipSpace_space, show skipSpace (dumpsStr l ++ _) = dumpsStr l ++ _ from skipSpace_cons _ (by decide), hrest]
    rfl

theorem ReadAs.keys {gs fs : List (Str × Json)} (h : ReadAs gs fs) : gs.map Prod.fst = fs.map Prod.fst := by
  induction h with
  | nil => rfl
  | cons hf _ ih => rw [List.map_cons, List.map_cons, hf.1, ih]

/-- A member of the printed object is found under its key. -/
theorem ReadAs.get? {gs fs : List (Str × Json)} (h : ReadAs gs fs) (hkeys : (fs.map Prod.fst).Nodup) {k : Str} {v : Json}
    (hmem : (k, v) ∈ fs) : ∃ v', Python.get? gs k = some v' ∧ Denotes v' v := by
  induction h with
  | nil => exact absurd hmem List.not_mem_nil
  | @cons g f gs fs hf _ ih =>
    obtain ⟨hnot, hkeys⟩ := List.nodup_cons.mp hkeys
    rcases List.mem_cons.mp hmem with rfl | hmem
    · exact ⟨g.2, by simp [Python.get?, hf.1], hf.2⟩
    · obtain ⟨v', hv', hdenotes⟩ := ih hkeys hmem
      have hne : g.1 ≠ k := fun hk => hnot (hf.1 ▸ hk ▸ List.mem_map_of_mem hmem)
      refine ⟨v', ?_, hdenotes⟩
      rw [Python.get?, List.find?_cons_of_neg (by simpa using hne)]
      exact hv'

/-- A text that is read as an object of the given members, in any order. -/
def Encodes (recursionLimit : ℕ) (text : Str) (members : List (Str × Json)) : Prop :=
  ∃ gs fs, loads recursionLimit text = .ok (.obj gs) ∧ ReadAs gs fs ∧ fs.Perm members

theorem length_lt_dumpsFields (floatRepr : PyFloat → Str) (fs : List (Str × Json)) :
    fs.length < (dumpsFields floatRepr fs).length := by
  induction fs with
  | nil => exact Nat.one_pos
  | cons f fs ih =>
    simp only [dumpsFields, List.length_append, List.length_cons]
    omega

/-- A printed object is read back, each value as one that denotes it. -/
theorem loads_flat {fs : List (Str × Json)} (h : Flat fs) (hne : fs ≠ []) (hkeys : (fs.map Prod.fst).Nodup)
    {recursionLimit : ℕ} (hlimit : 0 < recursionLimit) :
    ∃ gs, loads recursionLimit (dumps PyFloat.text (.obj fs)) = .ok (.obj gs) ∧ ReadAs gs fs := by
  obtain ⟨⟨k, v⟩, fs, rfl⟩ := List.exists_cons_of_ne_nil hne
  obtain ⟨hv, hfs⟩ := List.forall_mem_cons.mp h
  obtain ⟨limit, rfl⟩ : ∃ n, recursionLimit = n + 1 := ⟨recursionLimit - 1, by omega⟩
  have htext : dumps PyFloat.text (.obj ((k, v) :: fs)) = 0x7B ::
      (dumpsStr k ++ 0x3A :: 0x20 :: (dumps PyFloat.text v ++ (dumpsFields PyFloat.text fs ++ []))) := by
    simp [dumps]
  have hfuel : fs.length + 1 < 2 * (dumps PyFloat.text (.obj ((k, v) :: fs))).length + 1 := by
    have hlength := length_lt_dumpsFields PyFloat.text fs
    rw [htext]
    simp only [List.length_cons, List.length_append]
    omega
  generalize hlength : (dumps PyFloat.text (.obj ((k, v) :: fs))).length = n at hfuel
  obtain ⟨gs, hscan, hgs⟩ := scanFields_flat k hv hfs limit hfuel []
  refine ⟨gs, ?_, hgs⟩
  have hquote : ∀ t, skipSpace (dumpsStr k ++ t) = dumpsStr k ++ t := fun t => skipSpace_cons _ (by decide)
  have hdict : dictOf gs = gs := dictOf_of_nodup gs (hgs.keys ▸ hkeys)
  rw [loads, hlength, htext, skipSpace_cons _ (by decide), scanValue_obj _ limit (hquote _) (by decide), hquote, hscan, Except.map, hdict]
  rfl

/-- `json.dumps` encodes a flat object. -/
theorem encodes_dumps {fs : List (Str × Json)} (h : Flat fs) (hne : fs ≠ []) (hkeys : (fs.map Prod.fst).Nodup)
    {recursionLimit : ℕ} (hlimit : 0 < recursionLimit) : Encodes recursionLimit (dumps PyFloat.text (.obj fs)) fs := by
  obtain ⟨gs, hloads, hgs⟩ := loads_flat h hne hkeys hlimit
  exact ⟨gs, fs, hloads, hgs, .refl fs⟩

theorem eq_of_dumpsStr {k l s t : Str} (h : dumpsStr k ++ s = dumpsStr l ++ t) : k = l ∧ s = t := by
  have hscan := scanValue_dumpsStr 0 0 k s
  rw [h, scanValue_dumpsStr] at hscan
  cases hscan
  exact ⟨rfl, rfl⟩

theorem delimited_compactFields (floatRepr : PyFloat → Str) (fs : List (Str × Json)) :
    Delimited (compactFields floatRepr fs) := by
  obtain _ | ⟨⟨k, v⟩, fs⟩ := fs <;> exact delimited_cons (by decide) _

/-- The text of the members behind the first one determines them. -/
theorem Flat.eq_of_compactFields {fs gs : List (Str × Json)} (hfs : Flat fs) (hgs : Flat gs)
    (h : compactFields PyFloat.text fs = compactFields PyFloat.text gs) : fs = gs := by
  induction fs generalizing gs with
  | nil =>
    obtain _ | ⟨⟨l, w⟩, gs⟩ := gs
    · rfl
    · exact absurd (List.cons.inj h).1 (by decide)
  | cons f fs ih =>
    obtain ⟨k, v⟩ := f
    obtain _ | ⟨⟨l, w⟩, gs⟩ := gs
    · exact absurd (List.cons.inj h).1 (by decide)
    obtain ⟨hv, hfs⟩ := List.forall_mem_cons.mp hfs
    obtain ⟨hw, hgs⟩ := List.forall_mem_cons.mp hgs
    simp only [compactFields, List.cons_append, List.append_assoc, List.cons.injEq, true_and] at h
    obtain ⟨hkey, hmember⟩ := eq_of_dumpsStr h
    obtain ⟨hvalue, hrest⟩ :=
      hv.eq_of_compact hw (delimited_compactFields _ fs) (delimited_compactFields _ gs) (List.cons.inj hmember).2
    rw [hkey, show v = w from hvalue, ih hfs hgs hrest]

/-- The text of a flat object determines its members. -/
theorem Flat.eq_of_compact {fs gs : List (Str × Json)} (hfs : Flat fs) (hgs : Flat gs)
    (h : compact PyFloat.text (.obj fs) = compact PyFloat.text (.obj gs)) : fs = gs := by
  obtain _ | ⟨⟨k, v⟩, fs⟩ := fs
  · obtain _ | ⟨⟨l, w⟩, gs⟩ := gs
    · rfl
    · cases h
  obtain _ | ⟨⟨l, w⟩, gs⟩ := gs
  · cases h
  -- behind the brace, a member reads as behind a comma
  refine Flat.eq_of_compactFields hfs hgs ?_
  simp only [compact, compactFields, List.cons_append, List.cons.injEq, true_and] at h ⊢
  exact h

theorem sortKeysFields_of_flat {fs : List (Str × Json)} (h : Flat fs) : sortKeysFields fs = fs := by
  induction fs with
  | nil => rfl
  | cons f fs ih =>
    obtain ⟨hf, hfs⟩ := List.forall_mem_cons.mp h
    have hvalue : sortKeys f.2 = f.2 := by
      generalize f.2 = v at hf
      cases hf <;> rfl
    rw [sortKeysFields, hvalue, ih hfs]

theorem Flat.sortMembers {fs : List (Str × Json)} (h : Flat fs) : Flat (sortMembers fs) :=
  fun f hf => h f ((perm_sortMembers fs).subset hf)

theorem dumpsSorted_of_flat {fs : List (Str × Json)} (h : Flat fs) :
    dumpsSorted PyFloat.text (.obj fs) = compact PyFloat.text (.obj (Python.sortMembers fs)) := by
  rw [dumpsSorted, sortKeys, sortKeysFields_of_flat h]

/-- The canonical text of a flat object does not depend on the order of its members. -/
theorem dumpsSorted_congr {fs gs : List (Str × Json)} (hfs : Flat fs) (h : fs.Perm gs) (hkeys : (fs.map Prod.fst).Nodup) :
    dumpsSorted PyFloat.text (.obj fs) = dumpsSorted PyFloat.text (.obj gs) := by
  have hgs : Flat gs := fun g hg => hfs g (h.symm.subset hg)
  rw [dumpsSorted_of_flat hfs, dumpsSorted_of_flat hgs, sortMembers_congr h hkeys]

/-- The canonical text of a flat object determines its members. -/
theorem perm_of_dumpsSorted {fs gs : List (Str × Json)} (hfs : Flat fs) (hgs : Flat gs)
    (h : dumpsSorted PyFloat.text (.obj fs) = dumpsSorted PyFloat.text (.obj gs)) : fs.Perm gs := by
  rw [dumpsSorted_of_flat hfs, dumpsSorted_of_flat hgs] at h
  have hsorted := hfs.sortMembers.eq_of_compact hgs.sortMembers h
  exact (perm_sortMembers fs).symm.trans (hsorted ▸ perm_sortMembers gs)

/-- Members under the same names in the same order are the same if they are up to order. -/
theorem eq_of_perm_of_keys {fs gs : List (Str × Json)} (h : fs.Perm gs) (hkeys : fs.map Prod.fst = gs.map Prod.fst)
    (hnodup : (fs.map Prod.fst).Nodup) : fs = gs := by
  induction fs generalizing gs with
  | nil => exact h.nil_eq
  | cons f fs ih =>
    obtain _ | ⟨g, gs⟩ := gs
    · cases hkeys
    obtain ⟨hkey, hrest⟩ := List.cons.inj hkeys
    have hfg : f = g :=
      List.inj_on_of_nodup_map (hkeys ▸ hnodup) (h.subset List.mem_cons_self) List.mem_cons_self hkey
    subst hfg
    rw [ih h.cons_inv hrest (List.nodup_cons.mp hnodup).2]

/-! ## ASCII -/

/-- Printable ASCII, which `ensure_ascii` leaves alone. -/
def Ascii (s : Str) : Prop := ∀ c ∈ s, c < 0x7F

theorem Ascii.append {s t : Str} (hs : Ascii s) (ht : Ascii t) : Ascii (s ++ t) := List.forall_mem_append.mpr ⟨hs, ht⟩

theorem Ascii.cons {c : ℕ} {s : Str} (hc : c < 0x7F) (hs : Ascii s) : Ascii (c :: s) := List.forall_mem_cons.mpr ⟨hc, hs⟩

theorem Ascii.of_digits {s : Str} (h : ∀ c ∈ s, isDigit c = true) : Ascii s := by
  intro c hc
  have hdigit := h c hc
  simp only [isDigit, Bool.and_eq_true, decide_eq_true_eq] at hdigit
  omega

theorem ascii_decimal (n : ℕ) : Ascii (decimal n) := .of_digits fun _ => isDigit_of_mem_decimal

theorem ascii_repr (d : Double) : Ascii d.repr := by
  have htext : Ascii d.text := by
    obtain ⟨parts⟩ := Double.exists_parts d.negative (Double.shortest_zero (d := d))
    have htext : d.text = _ := parts.text_eq
    rw [htext]
    obtain ⟨hwhole, hfraction⟩ := List.forall_mem_append.mp parts.digits_only
    refine (Ascii.of_digits hwhole).append (.append ?_ ?_)
    · cases hcases : parts.fraction with
      | nil => exact fun _ hc => absurd hc List.not_mem_nil
      | cons c t => exact .cons (by decide) (.of_digits (hcases ▸ hfraction))
    · cases parts.power with
      | none => exact fun _ hc => absurd hc List.not_mem_nil
      | some e =>
        obtain ⟨ds, -, hds, -, hexponent⟩ := Double.exponentText_digits e
        change Ascii (Double.exponentText e)
        rw [hexponent]
        exact .cons (by decide) (.cons (by split <;> decide) (.of_digits hds))
  rw [Double.repr]
  split
  · exact htext.cons (by decide)
  · exact htext

theorem ascii_dumpsStr {s : Str} (h : Ascii s) : Ascii (dumpsStr s) := by
  have hhex : ∀ n, n < 16 → hexDigit n < 0x7F := by decide
  have hescape : ∀ c, c < 0x7F → Ascii (escapeChar c) := by
    intro c hc
    unfold escapeChar
    repeat' split
    all_goals simp only [Ascii, List.forall_mem_cons, List.not_mem_nil, false_implies, implies_true, and_true]
    all_goals first
      | exact ⟨by decide, by decide⟩
      | exact ⟨by decide, by decide, by decide, by decide, hhex _ (by omega), hhex _ (Nat.mod_lt _ (by decide))⟩
      | exact hc
  refine .cons (by decide) (.append (fun c hc => ?_) (.cons (by decide) fun _ hc => absurd hc List.not_mem_nil))
  obtain ⟨d, hd, hc⟩ := List.mem_flatMap.mp hc
  exact hescape d (h d hd) c hc

/-- The texts among the members are ASCII. -/
def AsciiMember (f : Str × Json) : Prop := Ascii f.1 ∧ ∀ s, f.2 = .str s → Ascii s

theorem Scalar.ascii {v : Json} (h : Scalar v) (hstr : ∀ s, v = .str s → Ascii s) : Ascii (compact PyFloat.text v) := by
  cases h with
  | str s => exact ascii_dumpsStr (hstr s rfl)
  | @int n _ =>
    cases n with
    | ofNat n => exact ascii_decimal n
    | negSucc n => exact (ascii_decimal (n + 1)).cons (by decide)
  | double d =>
    rw [compact, Double.text_of_double d.double_literal]
    exact ascii_repr d

theorem Flat.ascii_compactFields {fs : List (Str × Json)} (h : Flat fs) (hascii : ∀ f ∈ fs, AsciiMember f) :
    Ascii (compactFields PyFloat.text fs) := by
  induction fs with
  | nil => exact .cons (by decide) fun _ hc => absurd hc List.not_mem_nil
  | cons f fs ih =>
    obtain ⟨k, v⟩ := f
    obtain ⟨hv, hfs⟩ := List.forall_mem_cons.mp h
    obtain ⟨hf, hrest⟩ := List.forall_mem_cons.mp hascii
    have hmember : Ascii (0x2C :: (dumpsStr k ++ 0x3A :: (compact PyFloat.text v ++ compactFields PyFloat.text fs))) :=
      .cons (by decide) ((ascii_dumpsStr hf.1).append (.cons (by decide) ((hv.ascii hf.2).append (ih hfs hrest))))
    simpa [compactFields] using hmember

/-- The canonical text of ASCII members is ASCII. -/
theorem Flat.ascii_dumpsSorted {fs : List (Str × Json)} (h : Flat fs) (hascii : ∀ f ∈ fs, AsciiMember f) :
    Ascii (dumpsSorted PyFloat.text (.obj fs)) := by
  have hmembers := h.sortMembers.ascii_compactFields fun f hf => hascii f ((perm_sortMembers fs).subset hf)
  rw [dumpsSorted_of_flat h]
  cases hsorted : Python.sortMembers fs with
  | nil => exact .cons (by decide) (.cons (by decide) fun _ hc => absurd hc List.not_mem_nil)
  | cons f gs =>
    obtain ⟨k, v⟩ := f
    rw [hsorted] at hmembers
    simp only [compact, compactFields, List.cons_append, Ascii, List.forall_mem_cons] at hmembers ⊢
    exact ⟨by decide, hmembers.2⟩

end NeuroLab.Python
