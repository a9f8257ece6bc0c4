import Mathlib.Data.List.Induction
import NeuroLab.Python.Json

/-!
# Paths

The lexical resolution of a path: an empty segment and `.` are dropped, `..` takes the last
name away. A relative path keeps the `..` that leave its start; an absolute one has nothing
above its root. What a relative path resolves under is read off counts: some segment stands
at the start again, and no stretch from there goes up more often than down.
-/

namespace NeuroLab.Python

/-! ## Resolution -/

/-- A segment that names nothing. -/
def isIdle (segment : Str) : Bool := decide (segment = []) || decide (segment = lit ".")

/-- The segment that goes up. -/
def isUp (segment : Str) : Bool := decide (segment = lit "..")

/-- A segment that names an entry. -/
def isEntry (segment : Str) : Bool := !isIdle segment && !isUp segment

/-- One segment onto the resolved ones, the last of them first. -/
def pushSegment (absolute : Bool) (stack : List Str) (segment : Str) : List Str :=
  if isIdle segment then stack
  else if isUp segment then
    match stack with
    | [] => if absolute then [] else [segment]
    | top :: rest => if isUp top then segment :: top :: rest else rest
  else segment :: stack

/-- The segments of a path. -/
def segmentsOf (path : Str) : List Str := path.splitOnP (· = 0x2F)

/-- The resolved segments. -/
def resolve (absolute : Bool) (segments : List Str) : List Str := (segments.foldl (pushSegment absolute) []).reverse

/-- `posixpath.normpath` of a relative path, as its segments. -/
def normpath (path : Str) : List Str := resolve false (segmentsOf path)

/-- `root / path` of `pathlib`, as segments: an absolute path replaces the root. -/
def joinPath (root : List Str) (path : Str) : List Str :=
  if path.head? = some 0x2F then segmentsOf path else root ++ segmentsOf path

/-! ## Counts -/

variable {absolute : Bool} {segment name : Str} {segments stack names : List Str} {k : ℕ}

/-- How often the segments go up. -/
def ups (segments : List Str) : ℕ := segments.countP isUp

/-- How often the segments go down. -/
def downs (segments : List Str) : ℕ := segments.countP isEntry

/-- From `k` names on, no stretch of the segments takes more names away than there are. -/
def StaysUnder (k : ℕ) (segments : List Str) : Prop := ∀ front, front <+: segments → ups front ≤ downs front + k

/-- The kinds of segments. -/
theorem segment_cases (segment : Str) :
    (isIdle segment = true ∧ isUp segment = false ∧ isEntry segment = false) ∨
      (isIdle segment = false ∧ isUp segment = true ∧ isEntry segment = false) ∨
      (isIdle segment = false ∧ isUp segment = false ∧ isEntry segment = true) := by
  have hexclusive : isIdle segment = true → isUp segment = false := by
    intro hidle
    rw [isIdle, Bool.or_eq_true, decide_eq_true_eq, decide_eq_true_eq] at hidle
    rcases hidle with rfl | rfl <;> decide
  rw [isEntry]
  cases hidle : isIdle segment with
  | true => simp [hexclusive hidle]
  | false => cases isUp segment <;> simp

theorem staysUnder_nil : StaysUnder k [] := fun front hfront => by simp [List.prefix_nil.mp hfront, ups]

theorem staysUnder_cons :
    StaysUnder k (segment :: segments) ↔
      ∀ front, front <+: segments → ups [segment] + ups front ≤ downs [segment] + downs front + k := by
  have hups (front : List Str) : ups (segment :: front) = ups [segment] + ups front := by
    rw [ups, ups, ups, ← List.singleton_append, List.countP_append]
  have hdowns (front : List Str) : downs (segment :: front) = downs [segment] + downs front := by
    rw [downs, downs, downs, ← List.singleton_append, List.countP_append]
  constructor
  · intro h front hfront
    rw [← hups, ← hdowns]
    exact h _ (List.cons_prefix_cons.mpr ⟨rfl, hfront⟩)
  · intro h front hfront
    rcases List.prefix_cons_iff.mp hfront with rfl | ⟨rest, rfl, hrest⟩
    · exact Nat.zero_le _
    · rw [hups, hdowns]
      exact h rest hrest

theorem StaysUnder.front (h : StaysUnder k segments) {front : List Str} (hfront : front <+: segments) :
    StaysUnder k front := fun start hstart => h start (hstart.trans hfront)

/-- The whole of the segments is a stretch too. -/
theorem staysUnder_append_singleton :
    StaysUnder k (segments ++ [segment]) ↔
      StaysUnder k segments ∧ ups segments + ups [segment] ≤ downs segments + downs [segment] + k := by
  have hups : ups (segments ++ [segment]) = ups segments + ups [segment] := List.countP_append
  have hdowns : downs (segments ++ [segment]) = downs segments + downs [segment] := List.countP_append
  constructor
  · intro h
    exact ⟨h.front (List.prefix_append _ _), by rw [← hups, ← hdowns]; exact h _ List.prefix_rfl⟩
  · rintro ⟨hsegments, hlast⟩ front hfront
    rcases List.prefix_concat_iff.mp hfront with rfl | hfront
    · rw [hups, hdowns]
      exact hlast
    · exact hsegments front hfront

/-! ## Names on a stack -/

theorem pushSegment_idle (h : isIdle segment = true) : pushSegment absolute stack segment = stack := by
  unfold pushSegment
  exact if_pos h

theorem pushSegment_entry (h : isEntry segment = true) : pushSegment absolute stack segment = segment :: stack := by
  rw [isEntry, Bool.and_eq_true, Bool.not_eq_true', Bool.not_eq_true'] at h
  unfold pushSegment
  rw [h.1, h.2]
  rfl

theorem pushSegment_up (hup : isUp segment = true) :
    pushSegment absolute stack segment =
      match stack with
      | [] => if absolute then [] else [segment]
      | top :: rest => if isUp top then segment :: top :: rest else rest := by
  have hidle : isIdle segment = false := by
    rcases segment_cases segment with ⟨-, hnotup, -⟩ | ⟨hidle, -, -⟩ | ⟨hidle, -, -⟩
    · cases hup.symm.trans hnotup
    · exact hidle
    · exact hidle
  unfold pushSegment
  rw [hidle, hup]
  rfl

/-- The resolved segments that are names. -/
def Named (names : List Str) : Prop := ∀ name ∈ names, isUp name = false

theorem named_nil : Named [] := fun _ hname => absurd hname List.not_mem_nil

theorem ups_singleton (segment : Str) : ups [segment] = if isUp segment then 1 else 0 := by
  simp [ups, List.countP_cons]

theorem downs_singleton (segment : Str) : downs [segment] = if isEntry segment then 1 else 0 := by
  simp [downs, List.countP_cons]

/-- Segments that stay under a stretch of names change nothing below it, and their counts say how many are left. -/
theorem foldl_of_staysUnder (absolute : Bool) (stack : List Str) (hnames : Named names) (hstays : StaysUnder names.length segments) :
    ∃ names', segments.foldl (pushSegment absolute) (names ++ stack) = names' ++ stack ∧ Named names' ∧
      names'.length + ups segments = names.length + downs segments := by
  induction segments generalizing names with
  | nil => exact ⟨names, rfl, hnames, rfl⟩
  | cons segment segments ih =>
    have hups : ups (segment :: segments) = ups segments + (if isUp segment then 1 else 0) := List.countP_cons
    have hdowns : downs (segment :: segments) = downs segments + (if isEntry segment then 1 else 0) := List.countP_cons
    rw [List.foldl_cons, hups, hdowns]
    rw [staysUnder_cons, ups_singleton, downs_singleton] at hstays
    rcases segment_cases segment with ⟨hidle, hnotup, hnotname⟩ | ⟨-, hisup, hnotname⟩ | ⟨-, hnotup, hisname⟩
    · simp only [hnotup, hnotname, Bool.false_eq_true, if_false, zero_add, add_zero] at hstays ⊢
      rw [pushSegment_idle hidle]
      exact ih hnames hstays
    · simp only [hisup, hnotname, Bool.false_eq_true, if_false, if_true, zero_add] at hstays ⊢
      have hlength : 0 < names.length := by
        have hfirst := hstays [] List.nil_prefix
        have hzero : downs ([] : List Str) = 0 := rfl
        omega
      obtain ⟨top, rest, rfl⟩ := List.exists_cons_of_length_pos hlength
      have hpush : pushSegment absolute (top :: rest ++ stack) segment = rest ++ stack := by
        rw [pushSegment_up hisup]
        exact if_neg (by simp [hnames top List.mem_cons_self])
      obtain ⟨names', hfold, hnames', hcount⟩ := @ih rest (fun name hname => hnames name (.tail _ hname))
        (fun front hfront => by
          have hfront := hstays front hfront
          rw [List.length_cons] at hfront
          omega)
      refine ⟨names', by rw [hpush, hfold], hnames', ?_⟩
      rw [List.length_cons]
      omega
    · simp only [hnotup, hisname, Bool.false_eq_true, if_false, if_true, zero_add, add_zero] at hstays ⊢
      obtain ⟨names', hfold, hnames', hcount⟩ := @ih (segment :: names)
        (List.forall_mem_cons.mpr ⟨hnotup, hnames⟩) (fun front hfront => by
          have hfront := hstays front hfront
          rw [List.length_cons]
          omega)
      refine ⟨names', by rw [pushSegment_entry hisname, ← List.cons_append, hfold], hnames', ?_⟩
      rw [List.length_cons] at hcount
      omega

/-- What has left the start of a relative path never comes back to it. -/
theorem foldl_append_up (stack segments : List Str) (hup : isUp segment = true) :
    ∃ rest, segments.foldl (pushSegment false) (stack ++ [segment]) = rest ++ [segment] := by
  induction segments generalizing stack with
  | nil => exact ⟨stack, rfl⟩
  | cons next segments ih =>
    have hpush : ∃ stack', pushSegment false (stack ++ [segment]) next = stack' ++ [segment] := by
      rcases segment_cases next with ⟨hidle, -, -⟩ | ⟨-, hisup, -⟩ | ⟨-, -, hisname⟩
      · exact ⟨stack, pushSegment_idle hidle⟩
      · rw [pushSegment_up hisup]
        cases stack with
        | nil => exact ⟨[next], if_pos hup⟩
        | cons top rest =>
          by_cases htop : isUp top = true
          · exact ⟨next :: top :: rest, if_pos htop⟩
          · exact ⟨rest, if_neg htop⟩
      · exact ⟨next :: stack, pushSegment_entry hisname⟩
    obtain ⟨stack', hpush⟩ := hpush
    rw [List.foldl_cons, hpush]
    exact ih stack'

/-- A relative path that resolves to nothing never leaves its start. -/
theorem staysUnder_of_foldl_nil (hnames : Named names) (h : segments.foldl (pushSegment false) names = []) :
    StaysUnder names.length segments := by
  induction segments generalizing names with
  | nil => exact staysUnder_nil
  | cons segment segments ih =>
    rw [staysUnder_cons, ups_singleton, downs_singleton]
    rw [List.foldl_cons] at h
    intro front hfront
    rcases segment_cases segment with ⟨hidle, hnotup, hnotname⟩ | ⟨-, hisup, hnotname⟩ | ⟨-, hnotup, hisname⟩
    · rw [pushSegment_idle hidle] at h
      simpa [hnotup, hnotname] using ih hnames h front hfront
    · simp only [hisup, hnotname, Bool.false_eq_true, if_false, if_true, zero_add]
      rw [pushSegment_up hisup] at h
      cases names with
      | nil =>
        obtain ⟨rest, hrest⟩ := foldl_append_up [] segments hisup
        rw [List.nil_append] at hrest
        exact absurd (hrest.symm.trans h) (List.append_ne_nil_of_right_ne_nil _ (List.cons_ne_nil _ _))
      | cons top rest =>
        obtain ⟨htop, hrest⟩ := List.forall_mem_cons.mp hnames
        have hstays := ih hrest (by simpa [htop] using h) front hfront
        rw [List.length_cons]
        omega
    · rw [pushSegment_entry hisname] at h
      simp only [hnotup, hisname, Bool.false_eq_true, if_false, if_true, zero_add]
      have hstays := ih (List.forall_mem_cons.mpr ⟨hnotup, hnames⟩) h front hfront
      rw [List.length_cons] at hstays
      omega

/-- A relative path resolves to nothing exactly if it goes up as often as down, and never above its start. -/
theorem foldl_eq_nil_iff :
    segments.foldl (pushSegment false) [] = [] ↔ ups segments = downs segments ∧ StaysUnder 0 segments := by
  constructor
  · intro h
    have hstays : StaysUnder 0 segments := staysUnder_of_foldl_nil named_nil h
    obtain ⟨names, hfold, -, hcount⟩ := foldl_of_staysUnder false [] named_nil hstays
    have hnil : names = [] := by simpa [h] using hfold.symm
    rw [hnil] at hcount
    exact ⟨by simpa using hcount, hstays⟩
  · rintro ⟨hcounts, hstays⟩
    obtain ⟨names, hfold, -, hcount⟩ := foldl_of_staysUnder false [] named_nil hstays
    have hnil : names = [] := List.eq_nil_of_length_eq_zero (by simp only [List.length_nil] at hcount; omega)
    rw [hnil] at hfold
    exact hfold

/-- A name at the start, and what stays under it. -/
theorem foldl_split {before after : List Str} (hname : isEntry name = true)
    (hbefore : before.foldl (pushSegment false) [] = []) (hafter : StaysUnder 0 after) :
    ∃ names, (before ++ name :: after).foldl (pushSegment false) [] = names ++ [name] ∧ Named names ∧
      names.length + ups after = downs after := by
  obtain ⟨names, hfold, hnames, hcount⟩ := foldl_of_staysUnder false [name] named_nil hafter
  refine ⟨names, ?_, hnames, by simpa using hcount⟩
  rw [List.foldl_append, hbefore, List.foldl_cons, pushSegment_entry hname]
  exact hfold

/-- The lowest of the resolved segments is a name at the start, by induction from the end of the path. -/
theorem exists_split_of_foldl (hname : isEntry name = true)
    (h : segments.foldl (pushSegment false) [] = stack ++ [name]) :
    ∃ before after, segments = before ++ name :: after ∧ before.foldl (pushSegment false) [] = [] ∧
      StaysUnder 0 after := by
  have hnotup : isUp name = false := by
    rw [isEntry, Bool.and_eq_true, Bool.not_eq_true', Bool.not_eq_true'] at hname
    exact hname.2
  induction segments using List.reverseRecOn generalizing stack with
  | nil => exact absurd h.symm (List.append_ne_nil_of_right_ne_nil _ (List.cons_ne_nil _ _))
  | append_singleton segments segment ih =>
    rw [List.foldl_append, List.foldl_cons, List.foldl_nil] at h
    rcases segment_cases segment with ⟨hidle, hup, hentry⟩ | ⟨-, hisup, hentry⟩ | ⟨-, hup, hentry⟩
    · rw [pushSegment_idle hidle] at h
      obtain ⟨before, after, rfl, hbefore, hafter⟩ := ih h
      refine ⟨before, after ++ [segment], by simp, hbefore, staysUnder_append_singleton.mpr ⟨hafter, ?_⟩⟩
      simpa [ups_singleton, downs_singleton, hup, hentry] using hafter after List.prefix_rfl
    · rw [pushSegment_up hisup] at h
      cases hfold : segments.foldl (pushSegment false) [] with
      | nil =>
        -- above the start, `..` is the lowest
        rw [hfold] at h
        have hlast := congrArg List.getLast? h
        rw [List.getLast?_concat] at hlast
        obtain rfl : segment = name := Option.some.inj hlast
        cases hisup.symm.trans hnotup
      | cons top rest =>
        simp only [hfold] at h
        split at h
        next htop =>
          -- a `..` on the stack has no name below it
          have hlowest : ∃ stack', segments.foldl (pushSegment false) [] = stack' ++ [name] := by
            cases stack with
            | nil => cases h
            | cons top' stack' => exact ⟨stack', hfold.trans (List.cons.inj h).2⟩
          obtain ⟨stack', hstack'⟩ := hlowest
          obtain ⟨before, after, rfl, hbefore, hafter⟩ := ih hstack'
          obtain ⟨names, hsplit, hnames, -⟩ := foldl_split hname hbefore hafter
          have htopmem : top ∈ names ++ [name] := by
            rw [← hsplit, hfold]
            exact List.mem_cons_self
          rcases List.mem_append.mp htopmem with hmem | hmem
          · cases htop.symm.trans (hnames top hmem)
          · cases htop.symm.trans (List.mem_singleton.mp hmem ▸ hnotup)
        next htop =>
          rw [h] at hfold
          obtain ⟨before, after, rfl, hbefore, hafter⟩ := @ih (top :: stack) hfold
          obtain ⟨names, hsplit, hnames, hcount⟩ := foldl_split hname hbefore hafter
          have hlength : names.length = (top :: stack).length := by
            have hsame := congrArg List.length (hsplit.symm.trans hfold)
            simp only [List.length_append, List.length_cons, List.length_nil] at hsame ⊢
            omega
          refine ⟨before, after ++ [segment], by simp, hbefore, staysUnder_append_singleton.mpr ⟨hafter, ?_⟩⟩
          simp only [ups_singleton, downs_singleton, hisup, hentry, Bool.false_eq_true, if_false, if_true]
          rw [List.length_cons] at hlength
          omega
    · rw [pushSegment_entry hentry] at h
      cases stack with
      | nil =>
        obtain ⟨rfl, hnil⟩ := List.cons.inj h
        exact ⟨segments, [], rfl, hnil, staysUnder_nil⟩
      | cons top stack =>
        obtain ⟨before, after, rfl, hbefore, hafter⟩ := ih (List.cons.inj h).2
        refine ⟨before, after ++ [segment], by simp, hbefore, staysUnder_append_singleton.mpr ⟨hafter, ?_⟩⟩
        have hwhole := hafter after List.prefix_rfl
        simp only [ups_singleton, downs_singleton, hup, hentry, Bool.false_eq_true, if_false, if_true]
        omega

/-- A relative path resolves under a name exactly if the name stands at the start at some place, from where no stretch
goes up more often than down. -/
theorem head?_resolve_iff (hname : isEntry name = true) :
    (resolve false segments).head? = some name ↔
      ∃ before after, segments = before ++ name :: after ∧ ups before = downs before ∧ StaysUnder 0 before ∧
        StaysUnder 0 after := by
  rw [resolve, List.head?_reverse]
  constructor
  · intro h
    obtain ⟨stack, hstack⟩ := List.getLast?_eq_some_iff.mp h
    obtain ⟨before, after, hsegments, hbefore, hafter⟩ := exists_split_of_foldl hname hstack
    obtain ⟨hcounts, hstays⟩ := foldl_eq_nil_iff.mp hbefore
    exact ⟨before, after, hsegments, hcounts, hstays, hafter⟩
  · rintro ⟨before, after, rfl, hcounts, hstays, hafter⟩
    obtain ⟨names, hsplit, -, -⟩ := foldl_split hname (foldl_eq_nil_iff.mpr ⟨hcounts, hstays⟩) hafter
    rw [hsplit, List.getLast?_concat]

end NeuroLab.Python
