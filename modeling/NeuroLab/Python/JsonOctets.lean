import NeuroLab.Python.JsonTexts

/-!
# How long a printed value is

Two printers of one value write the same characters, up to their order: a space more behind each
comma and colon outside strings, the members of an object in another order, other texts for the
floats. So the number of octets of one text follows from that of the other.
-/

namespace NeuroLab.Python

/-! ## Octets -/

/-- `octet_length` of a text in UTF-8. -/
def octets (s : Str) : ℕ := (s.map fun c => ((utf8Char c).getD []).length).sum

@[simp] theorem octets_append (s t : Str) : octets (s ++ t) = octets s + octets t := by simp [octets]

theorem octets_replicate_space (n : ℕ) : octets (List.replicate n 0x20) = n := by
  simp [octets, utf8Char]

theorem octets_flatMap {α : Type} (f : α → Str) (xs : List α) :
    octets (xs.flatMap f) = (xs.map fun x => octets (f x)).sum := by
  induction xs with
  | nil => rfl
  | cons x xs ih => rw [List.flatMap_cons, octets_append, ih, List.map_cons, List.sum_cons]

/-- The octets do not depend on the order of the characters. -/
theorem octets_of_perm {s t : Str} (h : s.Perm t) : octets s = octets t := (h.map _).sum_eq

/-- An encoded text has its octets. -/
theorem length_utf8 {s : Str} {bytes : List ℕ} (h : utf8 s = some bytes) : bytes.length = octets s := by
  obtain ⟨chars, hchars, rfl⟩ := Option.map_eq_some_iff.mp h
  rw [mapM_eq_some_iff] at hchars
  have hoctets : octets s = ((s.map utf8Char).map fun o => (o.getD []).length).sum := by
    rw [octets, List.map_map]
    rfl
  rw [hoctets, hchars, List.map_map, List.length_flatten]
  rfl

/-! ## Separators and floats -/

namespace Json

mutual

/-- The commas and colons of a printed value, outside its strings. -/
def separators : Json → ℕ
  | .arr vs => separatorsItems vs - 1
  | .obj fs => separatorsFields fs - 1
  | _ => 0

/-- Item by item, with a comma in front of each. -/
def separatorsItems : List Json → ℕ
  | [] => 0
  | v :: vs => 1 + separators v + separatorsItems vs

/-- Member by member, with a comma in front of each. -/
def separatorsFields : List (Str × Json) → ℕ
  | [] => 0
  | (_, v) :: fs => 2 + separators v + separatorsFields fs

end

mutual

/-- The floats of a value. -/
def floats : Json → List PyFloat
  | .float x => [x]
  | .arr vs => floatsItems vs
  | .obj fs => floatsFields fs
  | _ => []

/-- Item by item. -/
def floatsItems : List Json → List PyFloat
  | [] => []
  | v :: vs => floats v ++ floatsItems vs

/-- Member by member. -/
def floatsFields : List (Str × Json) → List PyFloat
  | [] => []
  | (_, v) :: fs => floats v ++ floatsFields fs

end

end Json

/-! ## Printers -/

variable {r q : PyFloat → Str}

mutual

/-- The printer with spaces writes one behind each separator. -/
theorem dumps_perm : ∀ v : Json, (dumps r v).Perm (compact r v ++ List.replicate v.separators 0x20)
  | .null => by simp [dumps, compact, Json.separators]
  | .bool true => by simp [dumps, compact, Json.separators]
  | .bool false => by simp [dumps, compact, Json.separators]
  | .int n => by simp [dumps, compact, Json.separators]
  | .float x => by simp [dumps, compact, Json.separators]
  | .str s => by simp [dumps, compact, Json.separators]
  | .arr [] => by simp [dumps, compact, Json.separators, Json.separatorsItems]
  | .arr (v :: vs) => by
    rw [List.perm_iff_count]
    intro c
    have hv := (dumps_perm v).count_eq c
    have hvs := (dumpsItems_perm vs).count_eq c
    simp only [dumps, compact, Json.separators, Json.separatorsItems, List.count_append, List.count_cons,
      List.count_replicate] at hv hvs ⊢
    split_ifs at hv hvs ⊢ <;> omega
  | .obj [] => by simp [dumps, compact, Json.separators, Json.separatorsFields]
  | .obj ((k, v) :: fs) => by
    rw [List.perm_iff_count]
    intro c
    have hv := (dumps_perm v).count_eq c
    have hfs := (dumpsFields_perm fs).count_eq c
    simp only [dumps, compact, Json.separators, Json.separatorsFields, List.count_append, List.count_cons, List.count_nil,
      List.count_replicate] at hv hfs ⊢
    split_ifs at hv hfs ⊢ <;> omega

/-- Item by item. -/
theorem dumpsItems_perm : ∀ vs : List Json,
    (dumpsItems r vs).Perm (compactItems r vs ++ List.replicate (Json.separatorsItems vs) 0x20)
  | [] => by simp [dumpsItems, compactItems, Json.separatorsItems]
  | v :: vs => by
    rw [List.perm_iff_count]
    intro c
    have hv := (dumps_perm v).count_eq c
    have hvs := (dumpsItems_perm vs).count_eq c
    simp only [dumpsItems, compactItems, Json.separatorsItems, List.count_append, List.count_cons, List.count_nil,
      List.count_replicate] at hv hvs ⊢
    split_ifs at hv hvs ⊢ <;> omega

/-- Member by member. -/
theorem dumpsFields_perm : ∀ fs : List (Str × Json),
    (dumpsFields r fs).Perm (compactFields r fs ++ List.replicate (Json.separatorsFields fs) 0x20)
  | [] => by simp [dumpsFields, compactFields, Json.separatorsFields]
  | (k, v) :: fs => by
    rw [List.perm_iff_count]
    intro c
    have hv := (dumps_perm v).count_eq c
    have hfs := (dumpsFields_perm fs).count_eq c
    simp only [dumpsFields, compactFields, Json.separatorsFields, List.count_append, List.count_cons, List.count_nil,
      List.count_replicate] at hv hfs ⊢
    split_ifs at hv hfs ⊢ <;> omega

end

mutual

/-- Two printers of floats differ in the texts of the floats. -/
theorem compact_perm_of_floats : ∀ v : Json,
    (compact r v ++ v.floats.flatMap q).Perm (compact q v ++ v.floats.flatMap r)
  | .null => by simp [compact, Json.floats]
  | .bool true => by simp [compact, Json.floats]
  | .bool false => by simp [compact, Json.floats]
  | .int n => by simp [compact, Json.floats]
  | .float x => by simpa [compact, Json.floats] using List.perm_append_comm
  | .str s => by simp [compact, Json.floats]
  | .arr [] => by simp [compact, Json.floats, Json.floatsItems]
  | .arr (v :: vs) => by
    rw [List.perm_iff_count]
    intro c
    have hv := (compact_perm_of_floats v).count_eq c
    have hvs := (compactItems_perm_of_floats vs).count_eq c
    simp only [compact, Json.floats, Json.floatsItems, List.flatMap_append, List.count_append, List.count_cons] at hv hvs ⊢
    omega
  | .obj [] => by simp [compact, Json.floats, Json.floatsFields]
  | .obj ((k, v) :: fs) => by
    rw [List.perm_iff_count]
    intro c
    have hv := (compact_perm_of_floats v).count_eq c
    have hfs := (compactFields_perm_of_floats fs).count_eq c
    simp only [compact, Json.floats, Json.floatsFields, List.flatMap_append, List.count_append, List.count_cons] at hv hfs ⊢
    omega

/-- Item by item. -/
theorem compactItems_perm_of_floats : ∀ vs : List Json,
    (compactItems r vs ++ (Json.floatsItems vs).flatMap q).Perm (compactItems q vs ++ (Json.floatsItems vs).flatMap r)
  | [] => by simp [compactItems, Json.floatsItems]
  | v :: vs => by
    rw [List.perm_iff_count]
    intro c
    have hv := (compact_perm_of_floats v).count_eq c
    have hvs := (compactItems_perm_of_floats vs).count_eq c
    simp only [compactItems, Json.floatsItems, List.flatMap_append, List.count_append, List.count_cons] at hv hvs ⊢
    omega

/-- Member by member. -/
theorem compactFields_perm_of_floats : ∀ fs : List (Str × Json),
    (compactFields r fs ++ (Json.floatsFields fs).flatMap q).Perm
      (compactFields q fs ++ (Json.floatsFields fs).flatMap r)
  | [] => by simp [compactFields, Json.floatsFields]
  | (k, v) :: fs => by
    rw [List.perm_iff_count]
    intro c
    have hv := (compact_perm_of_floats v).count_eq c
    have hfs := (compactFields_perm_of_floats fs).count_eq c
    simp only [compactFields, Json.floatsFields, List.flatMap_append, List.count_append, List.count_cons] at hv hfs ⊢
    omega

end

/-! ## The order of the members -/

theorem separatorsFields_eq (fs : List (Str × Json)) :
    Json.separatorsFields fs = (fs.map fun f => 2 + f.2.separators).sum := by
  induction fs with
  | nil => rfl
  | cons f fs ih => rw [Json.separatorsFields, ih, List.map_cons, List.sum_cons]

/-- The members behind an opening brace, each behind a comma. -/
theorem compactFields_eq (fs : List (Str × Json)) :
    compactFields r fs = (fs.flatMap fun f => 0x2C :: dumpsStr f.1 ++ 0x3A :: compact r f.2) ++ [0x7D] := by
  induction fs with
  | nil => rfl
  | cons f fs ih => rw [compactFields, ih, List.flatMap_cons, List.append_assoc, List.append_assoc, List.append_assoc]

/-- The first member has no comma in front. -/
theorem compact_obj_perm {fs : List (Str × Json)} (h : fs ≠ []) :
    (0x2C :: compact r (.obj fs)).Perm (0x7B :: compactFields r fs) := by
  obtain ⟨⟨k, v⟩, fs, rfl⟩ := List.exists_cons_of_ne_nil h
  exact .swap _ _ _

namespace Json

mutual

/-- Rearranging the members rearranges the text. -/
theorem Reordered.compact_perm : ∀ {v w : Json}, Reordered v w → (compact r w).Perm (compact r v)
  | _, _, .same _ => .refl _
  | .arr [], _, .arr .nil => .refl _
  | .arr (_ :: _), _, .arr (.cons hv hvs) => ((hv.compact_perm.cons _).append hvs.compact_perm)
  | .obj fs, .obj hs, @Reordered.obj _ gs _ h hperm => by
    cases fs with
    | nil =>
      cases h
      rw [List.nil_perm.mp hperm]
    | cons f fs =>
      have hgs : gs ≠ [] := by
        rintro rfl
        cases h
      have hhs : hs ≠ [] := fun hnil => hgs (List.perm_nil.mp (hnil ▸ hperm))
      have hfields : (compactFields r hs).Perm (compactFields r gs) := by
        rw [compactFields_eq, compactFields_eq]
        exact (hperm.symm.flatMap_right _).append_right _
      exact List.perm_cons _ |>.mp
        ((compact_obj_perm hhs).trans (((hfields.trans h.compact_perm).cons _).trans
          (compact_obj_perm (List.cons_ne_nil f fs)).symm))

/-- Item by item. -/
theorem ReorderedItems.compact_perm : ∀ {vs ws : List Json}, ReorderedItems vs ws →
    (compactItems r ws).Perm (compactItems r vs)
  | _, _, .nil => .refl _
  | _, _, .cons hv hvs => (hv.compact_perm.cons _).append hvs.compact_perm

/-- Member by member. -/
theorem ReorderedFields.compact_perm : ∀ {fs gs : List (Str × Json)}, ReorderedFields fs gs →
    (compactFields r gs).Perm (compactFields r fs)
  | _, _, .nil => .refl _
  | _, _, .cons _ hv hvs =>
    (List.Perm.append_left _ (hv.compact_perm.cons _)).append hvs.compact_perm

end

mutual

/-- Rearranging the members keeps the separators. -/
theorem Reordered.separators_eq : ∀ {v w : Json}, Reordered v w → w.separators = v.separators
  | _, _, .same _ => rfl
  | _, _, .arr h => congrArg (· - 1) h.separators_eq
  | _, _, @Reordered.obj fs gs hs h hperm => by
    change separatorsFields hs - 1 = separatorsFields fs - 1
    rw [← h.separators_eq, separatorsFields_eq, separatorsFields_eq, (hperm.map _).sum_eq]

/-- Item by item. -/
theorem ReorderedItems.separators_eq : ∀ {vs ws : List Json}, ReorderedItems vs ws →
    separatorsItems ws = separatorsItems vs
  | _, _, .nil => rfl
  | _, _, .cons hv hvs => by rw [separatorsItems, separatorsItems, hv.separators_eq, hvs.separators_eq]

/-- Member by member. -/
theorem ReorderedFields.separators_eq : ∀ {fs gs : List (Str × Json)}, ReorderedFields fs gs →
    separatorsFields gs = separatorsFields fs
  | _, _, .nil => rfl
  | _, _, .cons _ hv hvs => by rw [separatorsFields, separatorsFields, hv.separators_eq, hvs.separators_eq]

end

end Json

end NeuroLab.Python
