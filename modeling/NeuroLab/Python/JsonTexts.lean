import NeuroLab.Python.CompactJson
import NeuroLab.Python.Escapes
import NeuroLab.Python.Passages

/-!
# The texts of a JSON value

All keys and strings that occur in a value. Its compact text is encodable in UTF-8 exactly if
each of them is, and neither the order of the members nor their sorting changes them. A tag,
which starts with `<` and holds nothing that JSON escapes, stands in the compact text exactly
if it stands in one of them.
-/

namespace NeuroLab.Python

/-! ## Encodable texts -/

/-- A text that UTF-8 encodes: no surrogate is in it. -/
def Encodable (s : Str) : Prop := ∀ c ∈ s, (utf8Char c).isSome = true

instance (s : Str) : Decidable (Encodable s) := inferInstanceAs (Decidable (∀ c ∈ s, (utf8Char c).isSome = true))

theorem isSome_utf8_iff {s : Str} : (utf8 s).isSome = true ↔ Encodable s := by
  rw [utf8, Option.isSome_map, isSome_mapM_iff]
  rfl

namespace Encodable

@[simp] theorem nil : Encodable [] := nofun

@[simp] theorem cons_iff {c : ℕ} {s : Str} : Encodable (c :: s) ↔ (utf8Char c).isSome = true ∧ Encodable s :=
  List.forall_mem_cons

@[simp] theorem append_iff {s t : Str} : Encodable (s ++ t) ↔ Encodable s ∧ Encodable t := List.forall_mem_append

end Encodable

theorem isSome_utf8Char {c : ℕ} (h : c < 0x80) : (utf8Char c).isSome = true := by
  rw [utf8Char, if_pos h]
  rfl

theorem hexDigit_lt {n : ℕ} (h : n < 16) : hexDigit n < 0x80 := by
  unfold hexDigit
  split <;> omega

/-- An escape sequence is encodable like its character. -/
theorem encodable_escapeChar (c : ℕ) : Encodable (escapeChar c) ↔ (utf8Char c).isSome = true := by
  unfold escapeChar
  split_ifs with h₁ h₂ h₃ h₄ h₅ h₆ h₇ h₈
  · exact iff_of_true (by decide) (isSome_utf8Char (by omega))
  · exact iff_of_true (by decide) (isSome_utf8Char (by omega))
  · exact iff_of_true (by decide) (isSome_utf8Char (by omega))
  · exact iff_of_true (by decide) (isSome_utf8Char (by omega))
  · exact iff_of_true (by decide) (isSome_utf8Char (by omega))
  · exact iff_of_true (by decide) (isSome_utf8Char (by omega))
  · exact iff_of_true (by decide) (isSome_utf8Char (by omega))
  · refine iff_of_true ?_ (isSome_utf8Char (by omega))
    have hhigh : hexDigit (c / 16) < 0x80 := hexDigit_lt (by omega)
    have hlow : hexDigit (c % 16) < 0x80 := hexDigit_lt (by omega)
    simp only [Encodable.cons_iff, Encodable.nil, and_true]
    exact ⟨rfl, rfl, rfl, rfl, isSome_utf8Char hhigh, isSome_utf8Char hlow⟩
  · simp

@[simp] theorem encodable_dumpsStr {s : Str} : Encodable (dumpsStr s) ↔ Encodable s := by
  have hescaped : Encodable (s.flatMap escapeChar) ↔ Encodable s := by
    induction s with
    | nil => rfl
    | cons c s ih => rw [List.flatMap_cons, Encodable.append_iff, encodable_escapeChar, ih, Encodable.cons_iff]
  have hquote : (utf8Char 0x22).isSome = true := rfl
  rw [dumpsStr, List.cons_append, Encodable.cons_iff, Encodable.append_iff, hescaped]
  simp [hquote]

theorem encodable_decimalInt (n : ℤ) : Encodable (decimalInt n) := by
  have hdecimal : ∀ n, Encodable (decimal n) := fun n c hc => by
    have hdigit := isDigit_of_mem_decimal hc
    simp only [isDigit, Bool.and_eq_true, decide_eq_true_eq] at hdigit
    exact isSome_utf8Char (by omega)
  cases n with
  | ofNat n => exact hdecimal n
  | negSucc n => exact Encodable.cons_iff.mpr ⟨rfl, hdecimal _⟩

/-! ## The texts of a value -/

namespace Json

mutual

/-- The keys and strings of a value. -/
def texts : Json → List Str
  | .str s => [s]
  | .arr vs => textsItems vs
  | .obj fs => textsFields fs
  | _ => []

/-- Item by item. -/
def textsItems : List Json → List Str
  | [] => []
  | v :: vs => texts v ++ textsItems vs

/-- Member by member. -/
def textsFields : List (Str × Json) → List Str
  | [] => []
  | (k, v) :: fs => k :: (texts v ++ textsFields fs)

end

theorem mem_textsFields {fs : List (Str × Json)} {s : Str} :
    s ∈ textsFields fs ↔ ∃ f ∈ fs, s = f.1 ∨ s ∈ f.2.texts := by
  induction fs with
  | nil => simp [textsFields]
  | cons f fs ih =>
    rw [textsFields, List.mem_cons, List.mem_append, ih, List.exists_mem_cons_iff, or_assoc]

/-- What holds of the texts of an object holds of its keys and of the texts of its members. -/
theorem forall_mem_textsFields {P : Str → Prop} {fs : List (Str × Json)} :
    (∀ s ∈ textsFields fs, P s) ↔ (∀ k ∈ fs.map Prod.fst, P k) ∧ ∀ f ∈ fs, ∀ s ∈ f.2.texts, P s := by
  simp only [mem_textsFields, List.forall_mem_map, ← forall_and]
  constructor
  · exact fun h f hf => ⟨h _ ⟨f, hf, .inl rfl⟩, fun s hs => h s ⟨f, hf, .inr hs⟩⟩
  · rintro h s ⟨f, hf, rfl | hs⟩
    · exact (h f hf).1
    · exact (h f hf).2 s hs

mutual

/-- Rearranging the members keeps the texts. -/
theorem Reordered.mem_texts : ∀ {v w : Json}, Reordered v w → ∀ s, s ∈ w.texts ↔ s ∈ v.texts
  | _, _, .same _, _ => Iff.rfl
  | _, _, .arr h, s => h.mem_texts s
  | _, _, @Reordered.obj fs gs hs h hperm, s => by
    change s ∈ textsFields hs ↔ s ∈ textsFields fs
    rw [← h.mem_texts s, mem_textsFields, mem_textsFields]
    simp only [hperm.mem_iff]

/-- Item by item. -/
theorem ReorderedItems.mem_texts : ∀ {vs ws : List Json}, ReorderedItems vs ws →
    ∀ s, s ∈ textsItems ws ↔ s ∈ textsItems vs
  | _, _, .nil, _ => Iff.rfl
  | _, _, .cons hv hvs, s => by
    rw [textsItems, textsItems, List.mem_append, List.mem_append, hv.mem_texts s, hvs.mem_texts s]

/-- Member by member. -/
theorem ReorderedFields.mem_texts : ∀ {fs gs : List (Str × Json)}, ReorderedFields fs gs →
    ∀ s, s ∈ textsFields gs ↔ s ∈ textsFields fs
  | _, _, .nil, _ => Iff.rfl
  | _, _, .cons k hv hvs, s => by
    rw [textsFields, textsFields, List.mem_cons, List.mem_cons, List.mem_append, List.mem_append, hv.mem_texts s,
      hvs.mem_texts s]

end

end Json

/-! ## Compact text -/

mutual

/-- Sorting the keys is a rearrangement. -/
theorem reordered_sortKeys : ∀ v : Json, v.Reordered (sortKeys v)
  | .null => .same _
  | .bool _ => .same _
  | .int _ => .same _
  | .float _ => .same _
  | .str _ => .same _
  | .arr vs => .arr (reorderedItems_sortKeys vs)
  | .obj fs => .obj (reorderedFields_sortKeys fs) (List.perm_insertionSort _ _).symm

/-- Item by item. -/
theorem reorderedItems_sortKeys : ∀ vs : List Json, Json.ReorderedItems vs (sortKeysItems vs)
  | [] => .nil
  | v :: vs => .cons (reordered_sortKeys v) (reorderedItems_sortKeys vs)

/-- Member by member. -/
theorem reorderedFields_sortKeys : ∀ fs : List (Str × Json), Json.ReorderedFields fs (sortKeysFields fs)
  | [] => .nil
  | (k, v) :: fs => .cons k (reordered_sortKeys v) (reorderedFields_sortKeys fs)

end

variable {floatRepr : PyFloat → Str}

mutual

/-- A compact text is encodable exactly if the texts of the value are. -/
theorem encodable_compact_iff (hrepr : ∀ x, Encodable (floatRepr x)) : ∀ v : Json,
    Encodable (compact floatRepr v) ↔ ∀ s ∈ v.texts, Encodable s
  | .null => iff_of_true (by decide : Encodable (lit "null")) nofun
  | .bool true => iff_of_true (by decide : Encodable (lit "true")) nofun
  | .bool false => iff_of_true (by decide : Encodable (lit "false")) nofun
  | .int n => iff_of_true (encodable_decimalInt n) nofun
  | .float x => iff_of_true (hrepr x) nofun
  | .str s => by simp [compact, Json.texts]
  | .arr [] => iff_of_true (by decide : Encodable [0x5B, 0x5D]) nofun
  | .arr (v :: vs) => by
    have hbracket : (utf8Char 0x5B).isSome = true := rfl
    rw [compact, List.cons_append, Encodable.cons_iff, Encodable.append_iff, encodable_compact_iff hrepr v,
      encodable_compactItems_iff hrepr vs, Json.texts, Json.textsItems, List.forall_mem_append]
    simp [hbracket]
  | .obj [] => iff_of_true (by decide : Encodable [0x7B, 0x7D]) nofun
  | .obj ((k, v) :: fs) => by
    have hpunctuation : (utf8Char 0x7B).isSome = true ∧ (utf8Char 0x3A).isSome = true := ⟨rfl, rfl⟩
    simp only [compact, List.cons_append, Encodable.cons_iff, Encodable.append_iff, encodable_compact_iff hrepr v,
      encodable_compactFields_iff hrepr fs, Json.texts, Json.textsFields, List.forall_mem_cons, List.forall_mem_append,
      encodable_dumpsStr, hpunctuation, true_and, and_assoc]

/-- Item by item. -/
theorem encodable_compactItems_iff (hrepr : ∀ x, Encodable (floatRepr x)) : ∀ vs : List Json,
    Encodable (compactItems floatRepr vs) ↔ ∀ s ∈ Json.textsItems vs, Encodable s
  | [] => iff_of_true (by decide : Encodable [0x5D]) nofun
  | v :: vs => by
    have hcomma : (utf8Char 0x2C).isSome = true := rfl
    rw [compactItems, List.cons_append, Encodable.cons_iff, Encodable.append_iff, encodable_compact_iff hrepr v,
      encodable_compactItems_iff hrepr vs, Json.textsItems, List.forall_mem_append]
    simp [hcomma]

/-- Member by member. -/
theorem encodable_compactFields_iff (hrepr : ∀ x, Encodable (floatRepr x)) : ∀ fs : List (Str × Json),
    Encodable (compactFields floatRepr fs) ↔ ∀ s ∈ Json.textsFields fs, Encodable s
  | [] => iff_of_true (by decide : Encodable [0x7D]) nofun
  | (k, v) :: fs => by
    have hpunctuation : (utf8Char 0x2C).isSome = true ∧ (utf8Char 0x3A).isSome = true := ⟨rfl, rfl⟩
    simp only [compactFields, List.cons_append, Encodable.cons_iff, Encodable.append_iff, encodable_compact_iff hrepr v,
      encodable_compactFields_iff hrepr fs, Json.textsFields, List.forall_mem_cons, List.forall_mem_append,
      encodable_dumpsStr, hpunctuation, true_and, and_assoc]

end

/-- So is the text with sorted keys. -/
theorem encodable_dumpsSorted_iff (hrepr : ∀ x, Encodable (floatRepr x)) (v : Json) :
    Encodable (dumpsSorted floatRepr v) ↔ ∀ s ∈ v.texts, Encodable s := by
  rw [dumpsSorted, encodable_compact_iff hrepr]
  simp only [(reordered_sortKeys v).mem_texts]

/-! ## Tags in a compact text -/

/-- A piece that starts with `<`, which JSON writes in strings only, and that JSON does not escape. -/
structure TagLike (piece : Str) : Prop where
  opening : ∃ rest, piece = 0x3C :: rest
  unescaped : ∀ c ∈ piece, escapeChar c = [c]

/-- A text behind which the piece stands exactly if it stands in one of the texts or in what follows. -/
def Holds (piece : Str) (texts : List Str) (s : Str) : Prop :=
  ∀ t, piece <:+: s ++ t ↔ (∃ text ∈ texts, piece <:+: text) ∨ piece <:+: t

namespace Holds

variable {piece s t : Str} {texts texts' : List Str}

theorem append (hs : Holds piece texts s) (ht : Holds piece texts' t) : Holds piece (texts ++ texts') (s ++ t) := by
  intro behind
  rw [List.append_assoc, hs, ht, ← or_assoc]
  simp only [List.mem_append, or_and_right, exists_or]

/-- In a text without `<` no piece begins. -/
theorem of_not_mem (hpiece : TagLike piece) (h : 0x3C ∉ s) : Holds piece [] s := by
  obtain ⟨rest, rfl⟩ := hpiece.opening
  intro behind
  simp only [List.not_mem_nil, false_and, exists_false, false_or]
  induction s with
  | nil => rfl
  | cons c s ih =>
    obtain ⟨hc, hs⟩ := not_or.mp fun hmem => h (List.mem_cons.mpr hmem)
    rw [List.cons_append, List.infix_cons_iff, List.cons_prefix_cons, ih hs]
    exact or_iff_right fun hhead => hc hhead.1

theorem cons {c : ℕ} (hpiece : TagLike piece) (hc : c ≠ 0x3C) (h : Holds piece texts s) : Holds piece texts (c :: s) :=
  (of_not_mem hpiece (by simpa using Ne.symm hc) : Holds piece [] [c]).append h

theorem infix_iff (hpiece : TagLike piece) (h : Holds piece texts s) : piece <:+: s ↔ ∃ text ∈ texts, piece <:+: text := by
  obtain ⟨rest, rfl⟩ := hpiece.opening
  have hnone := h []
  rw [List.append_nil, List.infix_nil] at hnone
  rw [hnone]
  exact or_iff_left (List.cons_ne_nil _ _)

end Holds

/-- An escape sequence starts with a backslash and holds no `<`. -/
theorem escapeChar_cases (c : ℕ) : escapeChar c = [c] ∨
    escapeChar c ≠ [c] ∧ ∃ rest, escapeChar c = 0x5C :: rest ∧ 0x3C ∉ escapeChar c := by
  have hhex : ∀ n, hexDigit n ≠ 0x3C := by
    intro n
    unfold hexDigit
    split <;> omega
  unfold escapeChar
  split_ifs
  case neg => exact Or.inl rfl
  all_goals refine Or.inr ⟨fun h => by simpa using congrArg List.length h, _, rfl, ?_⟩
  all_goals simp [Ne.symm (hhex _)]

/-- A prefix that is not escaped is one of the text. -/
theorem prefix_flatMap_escapeChar_iff {piece : Str} (hpiece : ∀ c ∈ piece, escapeChar c = [c]) (s : Str) :
    piece <+: s.flatMap escapeChar ↔ piece <+: s := by
  induction piece generalizing s with
  | nil => simp
  | cons p piece ih =>
    obtain ⟨hp, hrest⟩ := List.forall_mem_cons.mp hpiece
    cases s with
    | nil => rfl
    | cons c s =>
      rw [List.flatMap_cons, List.cons_prefix_cons]
      rcases escapeChar_cases c with hc | ⟨hc, rest, hescaped, -⟩
      · rw [hc, List.singleton_append, List.cons_prefix_cons, ih hrest]
      · rw [hescaped, List.cons_append, List.cons_prefix_cons]
        refine iff_of_false (fun h => ?_) (fun h => hc (h.1 ▸ hp))
        rw [h.1] at hp
        exact absurd hp (by decide)

variable {piece : Str}

theorem infix_flatMap_escapeChar_iff (hpiece : TagLike piece) (s : Str) : piece <:+: s.flatMap escapeChar ↔ piece <:+: s := by
  induction s with
  | nil => rfl
  | cons c s ih =>
    rcases escapeChar_cases c with hc | ⟨hc, rest, -, hnone⟩
    · have hprefix := prefix_flatMap_escapeChar_iff hpiece.unescaped (c :: s)
      rw [List.flatMap_cons, hc, List.singleton_append] at hprefix
      rw [List.flatMap_cons, hc, List.singleton_append, List.infix_cons_iff, List.infix_cons_iff, ih, hprefix]
    · have hskip := Holds.of_not_mem hpiece hnone (s.flatMap escapeChar)
      simp only [List.not_mem_nil, false_and, exists_false, false_or] at hskip
      rw [List.flatMap_cons, hskip, ih, List.infix_cons_iff]
      refine (or_iff_right fun hprefix => hc ?_).symm
      obtain ⟨rest, rfl⟩ := hpiece.opening
      rw [← (List.cons_prefix_cons.mp hprefix).1]
      exact hpiece.unescaped _ List.mem_cons_self

/-- A quoted string holds what the string holds. -/
theorem holds_dumpsStr (hpiece : TagLike piece) (s : Str) : Holds piece [s] (dumpsStr s) := by
  have hquote : 0x22 ∉ piece := fun h => absurd (hpiece.unescaped _ h) (by decide)
  intro t
  rw [dumpsStr, List.cons_append, List.cons_append, List.append_assoc, List.singleton_append]
  have hfirst := infix_append_cons_iff hquote [] (s.flatMap escapeChar ++ 0x22 :: t)
  have hnil : ¬piece <:+: [] := by
    obtain ⟨rest, rfl⟩ := hpiece.opening
    simp
  rw [List.nil_append] at hfirst
  rw [hfirst, infix_append_cons_iff hquote, infix_flatMap_escapeChar_iff hpiece]
  simp [hnil]

theorem holds_decimalInt (hpiece : TagLike piece) (n : ℤ) : Holds piece [] (decimalInt n) := by
  refine .of_not_mem hpiece ?_
  have hdecimal : ∀ n, 0x3C ∉ decimal n := fun n h => absurd (isDigit_of_mem_decimal h) (by decide)
  cases n with
  | ofNat n => exact hdecimal n
  | negSucc n => exact fun h => (List.mem_cons.mp h).elim (by decide) (hdecimal _)

mutual

/-- A compact text without floats holds what the texts of the value hold. -/
theorem holds_compact (hpiece : TagLike piece) : ∀ v : Json, v.plain = true → Holds piece v.texts (compact floatRepr v)
  | .null, _ => .of_not_mem hpiece (by decide : 0x3C ∉ lit "null")
  | .bool true, _ => .of_not_mem hpiece (by decide : 0x3C ∉ lit "true")
  | .bool false, _ => .of_not_mem hpiece (by decide : 0x3C ∉ lit "false")
  | .int n, _ => holds_decimalInt hpiece n
  | .str s, _ => holds_dumpsStr hpiece s
  | .arr [], _ => .of_not_mem hpiece (by decide : 0x3C ∉ [0x5B, 0x5D])
  | .arr (v :: vs), h => by
    rw [Json.plain, Json.plainItems, Bool.and_eq_true] at h
    exact .cons hpiece (by decide) ((holds_compact hpiece v h.1).append (holds_compactItems hpiece vs h.2))
  | .obj [], _ => .of_not_mem hpiece (by decide : 0x3C ∉ [0x7B, 0x7D])
  | .obj ((k, v) :: fs), h => by
    rw [Json.plain, Json.plainFields, Bool.and_eq_true, Bool.and_eq_true] at h
    exact .append
      (.append (.cons hpiece (by decide) (holds_dumpsStr hpiece k)) (.cons hpiece (by decide) (holds_compact hpiece v h.2.1)))
      (holds_compactFields hpiece fs h.2.2)

/-- Item by item. -/
theorem holds_compactItems (hpiece : TagLike piece) : ∀ vs : List Json, Json.plainItems vs = true →
    Holds piece (Json.textsItems vs) (compactItems floatRepr vs)
  | [], _ => .of_not_mem hpiece (by decide : 0x3C ∉ [0x5D])
  | v :: vs, h => by
    rw [Json.plainItems, Bool.and_eq_true] at h
    exact .cons hpiece (by decide) ((holds_compact hpiece v h.1).append (holds_compactItems hpiece vs h.2))

/-- Member by member. -/
theorem holds_compactFields (hpiece : TagLike piece) : ∀ fs : List (Str × Json), Json.plainFields fs = true →
    Holds piece (Json.textsFields fs) (compactFields floatRepr fs)
  | [], _ => .of_not_mem hpiece (by decide : 0x3C ∉ [0x7D])
  | (k, v) :: fs, h => by
    rw [Json.plainFields, Bool.and_eq_true] at h
    exact .append
      (.append (.cons hpiece (by decide) (holds_dumpsStr hpiece k)) (.cons hpiece (by decide) (holds_compact hpiece v h.1)))
      (holds_compactFields hpiece fs h.2)

end

end NeuroLab.Python
