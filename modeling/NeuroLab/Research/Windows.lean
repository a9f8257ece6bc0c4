import NeuroLab.Python.Passages
import NeuroLab.Research.CardParsing

/-!
# The windows of a document

`plan_page_windows` joins the texts of a few pages at a time, strips what it joined and cuts it
to the size of a window. The windows lie in order and apart, and a page with a text lies in one
of them; the cut is silent, and what it takes is lost.
-/

namespace NeuroLab.Research

open Python

/-! ## Windows -/

/-- `_MAX_WINDOWS`. -/
def maxWindows : ℕ := 50

/-- `_MAX_WINDOW_CHARS`. -/
def maxWindowChars : ℕ := 12000

/-- `PageWindow`, with the checks of its constructor. -/
structure PageWindow where
  pageStart : ℕ
  pageEnd : ℕ
  text : Str
  pages_ordered : 1 ≤ pageStart ∧ pageStart ≤ pageEnd ∧ pageEnd ≤ 100
  text_bounded : stripSpace text ≠ [] ∧ text.length ≤ maxWindowChars
deriving DecidableEq

/-- The constructor, or the text of its `DocumentCardError`. -/
def PageWindow.make (pageStart pageEnd : ℕ) (text : Str) : Except Str PageWindow :=
  if hpages : 1 ≤ pageStart ∧ pageStart ≤ pageEnd ∧ pageEnd ≤ 100 then
    if htext : stripSpace text ≠ [] ∧ text.length ≤ maxWindowChars then .ok ⟨pageStart, pageEnd, text, hpages, htext⟩
    else .error (lit "page window text is outside the limit")
  else .error (lit "page window is malformed")

theorem PageWindow.exists_make {pageStart pageEnd : ℕ} {text : Str}
    (hpages : 1 ≤ pageStart ∧ pageStart ≤ pageEnd ∧ pageEnd ≤ 100)
    (htext : stripSpace text ≠ [] ∧ text.length ≤ maxWindowChars) : ∃ w, PageWindow.make pageStart pageEnd text = .ok w :=
  ⟨_, by rw [make, dif_pos hpages, dif_pos htext]⟩

/-- `"\n".join(texts)`. -/
def joinLines (texts : List Str) : Str := [0x0A].intercalate texts

/-- The text of the pages behind `start`, before it is cut. -/
def windowText (pageTexts : List Str) (pagesPerWindow start : ℕ) : Str :=
  stripSpace (joinLines ((pageTexts.drop start).take pagesPerWindow))

/-- The body of the loop of `plan_page_windows`; blank pages make no window. -/
def planWindow (pageTexts : List Str) (pagesPerWindow start : ℕ) : Except Str (Option PageWindow) :=
  let text := windowText pageTexts pagesPerWindow start
  if text.isEmpty then .ok none
  else
    (PageWindow.make (start + 1) (min (start + pagesPerWindow) pageTexts.length) (text.take maxWindowChars)).map some

/-- `range(0, stop, step)`. -/
def rangeBy (stop step : ℕ) : List ℕ := List.range' 0 ((stop + step - 1) / step) step

/-- `plan_page_windows`. -/
def planPageWindows (pageTexts : List Str) (pagesPerWindow : ℤ) : Except Str (List PageWindow) :=
  if 1 ≤ pagesPerWindow ∧ pagesPerWindow ≤ 4 then
    if 1 ≤ pageTexts.length ∧ pageTexts.length ≤ 100 then do
      let windows ← (rangeBy pageTexts.length pagesPerWindow.toNat).mapM (planWindow pageTexts pagesPerWindow.toNat)
      let windows := windows.filterMap id
      if windows.isEmpty || maxWindows < windows.length then
        .error (lit "document cannot be represented within the window budget")
      else .ok windows
    else .error (lit "document page count is outside the limit")
  else .error (lit "pages per window is outside the limit")

/-! ## One window -/

variable {pageTexts : List Str} {windows : List PageWindow} {pagesPerWindow start page : ℕ}

theorem infix_joinLines {texts : List Str} {s : Str} (h : s ∈ texts) : s <:+: joinLines texts := by
  induction texts with
  | nil => cases h
  | cons t texts ih =>
    cases texts with
    | nil =>
      rw [List.mem_singleton.mp h, joinLines, List.intercalate_singleton]
    | cons u texts =>
      rw [joinLines, List.intercalate_cons_cons, List.append_assoc]
      rcases List.mem_cons.mp h with rfl | h
      · exact (List.prefix_append _ _).isInfix
      · exact (ih h).trans ((List.suffix_append _ _).trans (List.suffix_append _ _)).isInfix

/-- What the body of the loop makes of its pages. -/
theorem planWindow_eq_ok {made : Option PageWindow} (h : planWindow pageTexts pagesPerWindow start = .ok made) :
    (made = none ↔ windowText pageTexts pagesPerWindow start = []) ∧
      ∀ w, made = some w → w.pageStart = start + 1 ∧ w.pageEnd = min (start + pagesPerWindow) pageTexts.length ∧
        w.text = (windowText pageTexts pagesPerWindow start).take maxWindowChars := by
  unfold planWindow at h
  extract_lets text at h
  split at h
  · next hempty =>
    cases h
    exact ⟨iff_of_true rfl (List.isEmpty_iff.mp hempty), fun w hw => nomatch hw⟩
  · next hfull =>
    cases hmake : PageWindow.make (start + 1) (min (start + pagesPerWindow) pageTexts.length)
        (text.take maxWindowChars) with
    | error message =>
      rw [hmake] at h
      cases h
    | ok w =>
      rw [hmake] at h
      cases h
      refine ⟨iff_of_false nofun fun hnil => hfull (List.isEmpty_iff.mpr hnil), fun w' hw => ?_⟩
      cases hw
      unfold PageWindow.make at hmake
      split at hmake
      · split at hmake
        · cases hmake
          exact ⟨rfl, rfl, rfl⟩
        · cases hmake
      · cases hmake

/-- A page behind the start of a window is one of its pages. -/
theorem getElem_mem_pages (hpage : page < pageTexts.length) (hstart : start ≤ page) (hend : page < start + pagesPerWindow) :
    pageTexts[page] ∈ (pageTexts.drop start).take pagesPerWindow := by
  refine List.mem_iff_getElem.mpr ⟨page - start, ?_, ?_⟩
  · rw [List.length_take, List.length_drop]
    omega
  · rw [List.getElem_take, List.getElem_drop]
    congr 1
    omega

/-- The text of a page is a piece of what its window is cut from. -/
theorem infix_windowText (hpage : page < pageTexts.length) (hstart : start ≤ page) (hend : page < start + pagesPerWindow) :
    stripSpace pageTexts[page] <:+: windowText pageTexts pagesPerWindow start := by
  refine (stripped_strip isSpace _).infix_strip ?_
  exact (isInfix_strip isSpace _).trans (infix_joinLines (getElem_mem_pages hpage hstart hend))

/-! ## The plan -/

/-- The start of the window of a page. -/
def windowStart (pagesPerWindow page : ℕ) : ℕ := page / pagesPerWindow * pagesPerWindow

theorem exists_of_mem_rangeBy {stop step : ℕ} (hstart : start ∈ rangeBy stop step) : ∃ i, start = i * step := by
  obtain ⟨i, -, rfl⟩ := List.mem_range'.mp hstart
  exact ⟨i, by rw [Nat.zero_add, Nat.mul_comm]⟩

theorem windowStart_mem_rangeBy {stop : ℕ} (hpositive : 0 < pagesPerWindow) (hpage : page < stop) :
    windowStart pagesPerWindow page ∈ rangeBy stop pagesPerWindow := by
  refine List.mem_range'.mpr ⟨page / pagesPerWindow, ?_, by rw [windowStart, Nat.zero_add, Nat.mul_comm]⟩
  have hlast : page + pagesPerWindow ≤ stop + pagesPerWindow - 1 := by omega
  have hnext : page / pagesPerWindow + 1 = (page + pagesPerWindow) / pagesPerWindow :=
    (Nat.add_div_right page hpositive).symm
  exact Nat.lt_of_succ_le (hnext.trans_le (Nat.div_le_div_right hlast))

/-- The starts are a window apart. -/
theorem pairwise_rangeBy (stop : ℕ) (hpositive : 0 < pagesPerWindow) :
    (rangeBy stop pagesPerWindow).Pairwise fun a b => a + pagesPerWindow ≤ b := by
  refine (List.pairwise_lt_range' pagesPerWindow hpositive).imp_of_mem fun ha hb hlt => ?_
  obtain ⟨i, rfl⟩ := exists_of_mem_rangeBy ha
  obtain ⟨j, rfl⟩ := exists_of_mem_rangeBy hb
  rw [← Nat.succ_mul]
  exact Nat.mul_le_mul_right _ (Nat.lt_of_mul_lt_mul_right hlt)

/-- Only the window of its start holds a page. -/
theorem eq_windowStart (hstart : ∃ i, start = i * pagesPerWindow) (hlow : start ≤ page)
    (hhigh : page < start + pagesPerWindow) : start = windowStart pagesPerWindow page := by
  obtain ⟨i, rfl⟩ := hstart
  rw [← Nat.succ_mul] at hhigh
  rw [windowStart, Nat.div_eq_of_lt_le hlow hhigh]

/-- A plan is made of the windows of its starts. -/
structure Planned (pageTexts : List Str) (pagesPerWindow : ℕ) (windows : List PageWindow) : Prop where
  positive : 0 < pagesPerWindow
  made : ∃ made, (rangeBy pageTexts.length pagesPerWindow).mapM (planWindow pageTexts pagesPerWindow) = .ok made ∧
    windows = made.filterMap id

theorem planned_of_eq_ok {n : ℤ} (h : planPageWindows pageTexts n = .ok windows) :
    Planned pageTexts n.toNat windows := by
  unfold planPageWindows at h
  split at h
  · next hn =>
    split at h
    · obtain ⟨made, hmade, h⟩ := bind_eq_ok_iff.mp h
      dsimp only at h
      split at h
      · cases h
      · cases h
        exact ⟨by omega, made, hmade, rfl⟩
    · cases h
  · cases h

namespace Planned

/-- The windows are what the body of the loop made. -/
theorem mem_iff (h : Planned pageTexts pagesPerWindow windows) {w : PageWindow} :
    w ∈ windows ↔ ∃ start ∈ rangeBy pageTexts.length pagesPerWindow,
      planWindow pageTexts pagesPerWindow start = .ok (some w) := by
  obtain ⟨made, hmade, rfl⟩ := h.made
  simp only [List.mem_filterMap, id, exists_eq_right]
  rw [← List.mem_map, mapM_eq_ok_iff.mp hmade]
  constructor
  · exact List.mem_map_of_mem
  · intro hw
    obtain ⟨o, ho, heq⟩ := List.mem_map.mp hw
    cases heq
    exact ho

/-- The windows lie in order and apart. -/
theorem pairwise (h : Planned pageTexts pagesPerWindow windows) :
    windows.Pairwise fun v w => v.pageEnd < w.pageStart := by
  obtain ⟨made, hmade, rfl⟩ := h.made
  let apart (x y : Except Str (Option PageWindow)) : Prop :=
    ∀ v, x = .ok (some v) → ∀ w, y = .ok (some w) → v.pageEnd < w.pageStart
  have hstarts : ((rangeBy pageTexts.length pagesPerWindow).map (planWindow pageTexts pagesPerWindow)).Pairwise apart := by
    refine List.pairwise_map.mpr ((pairwise_rangeBy _ h.positive).imp fun hle v hv w hw => ?_)
    obtain ⟨-, hend, -⟩ := (planWindow_eq_ok hv).2 v rfl
    obtain ⟨hstart, -, -⟩ := (planWindow_eq_ok hw).2 w rfl
    omega
  rw [mapM_eq_ok_iff.mp hmade, List.pairwise_map] at hstarts
  refine List.pairwise_filterMap.mpr (hstarts.imp fun hapart v hv w hw => ?_)
  exact hapart v (congrArg _ hv) w (congrArg _ hw)

/-- A page with a text has a window, cut from the text behind its start, and no other window holds it. -/
theorem exists_window (h : Planned pageTexts pagesPerWindow windows) (hpage : page < pageTexts.length)
    (hfull : stripSpace pageTexts[page] ≠ []) :
    ∃ w ∈ windows, (w.pageStart ≤ page + 1 ∧ page + 1 ≤ w.pageEnd) ∧
      w.text = (windowText pageTexts pagesPerWindow (windowStart pagesPerWindow page)).take maxWindowChars ∧
      ∀ v ∈ windows, v.pageStart ≤ page + 1 → page + 1 ≤ v.pageEnd → v = w := by
  have hlow : windowStart pagesPerWindow page ≤ page := Nat.div_mul_le_self page pagesPerWindow
  have hhigh : page < windowStart pagesPerWindow page + pagesPerWindow := Nat.lt_div_mul_add h.positive
  obtain ⟨made, hmade, -⟩ := h.made
  have hstart := windowStart_mem_rangeBy h.positive hpage
  obtain ⟨o, ho⟩ := exists_mapM_ok_iff.mp ⟨made, hmade⟩ _ hstart
  cases o with
  | none =>
    have hpiece := infix_windowText hpage hlow hhigh
    rw [(planWindow_eq_ok ho).1.mp rfl, List.infix_nil] at hpiece
    exact absurd hpiece hfull
  | some w =>
    obtain ⟨hfirst, hlast, htext⟩ := (planWindow_eq_ok ho).2 w rfl
    refine ⟨w, h.mem_iff.mpr ⟨_, hstart, ho⟩, ⟨by omega, by omega⟩, htext, fun v hv hlow' hhigh' => ?_⟩
    obtain ⟨start, hstart', hv⟩ := h.mem_iff.mp hv
    obtain ⟨hfirst', hlast', -⟩ := (planWindow_eq_ok hv).2 v rfl
    have heq : start = windowStart pagesPerWindow page :=
      eq_windowStart (exists_of_mem_rangeBy hstart') (by omega) (by omega)
    rw [heq, ho] at hv
    cases hv
    rfl

end Planned

/-! ## What the cut leaves -/

/-- The windows are in order and apart, and each page with a text has exactly one window that holds the
page and all of its stripped text. -/
def KeepsPages (pageTexts : List Str) (windows : List PageWindow) : Prop :=
  (windows.Pairwise fun v w => v.pageEnd < w.pageStart) ∧
    ∀ page (hpage : page < pageTexts.length), stripSpace pageTexts[page] ≠ [] →
      ∃! w, w ∈ windows ∧ (w.pageStart ≤ page + 1 ∧ page + 1 ≤ w.pageEnd) ∧ stripSpace pageTexts[page] <:+: w.text

/-- The stripped text of each page stands in the joined and stripped text of its window so that it ends
before the cut. -/
def FitsWindows (pageTexts : List Str) (pagesPerWindow : ℕ) : Prop :=
  ∀ page (hpage : page < pageTexts.length), stripSpace pageTexts[page] ≠ [] →
    EndsWithin maxWindowChars (stripSpace pageTexts[page])
      (windowText pageTexts pagesPerWindow (windowStart pagesPerWindow page))

/-- Pages fit where no window is cut. -/
theorem FitsWindows.of_length_le (hpositive : 0 < pagesPerWindow)
    (h : ∀ start, (windowText pageTexts pagesPerWindow start).length ≤ maxWindowChars) :
    FitsWindows pageTexts pagesPerWindow := by
  intro page hpage _
  have hlow : windowStart pagesPerWindow page ≤ page := Nat.div_mul_le_self page pagesPerWindow
  exact .of_length_le (infix_windowText hpage hlow (Nat.lt_div_mul_add hpositive)) (h _)

/-- A page that is longer than a window does not fit. -/
theorem FitsWindows.length_le (h : FitsWindows pageTexts pagesPerWindow) (hpage : page < pageTexts.length) :
    (stripSpace pageTexts[page]).length ≤ maxWindowChars := by
  by_cases hfull : stripSpace pageTexts[page] = []
  · rw [hfull]
    exact Nat.zero_le _
  · obtain ⟨start, -, hlimit⟩ := h page hpage hfull
    omega

/-- A plan keeps the pages exactly if they fit the windows. -/
theorem Planned.keepsPages_iff (h : Planned pageTexts pagesPerWindow windows) :
    KeepsPages pageTexts windows ↔ FitsWindows pageTexts pagesPerWindow := by
  constructor
  · rintro ⟨-, hkept⟩ page hpage hfull
    obtain ⟨w, ⟨hw, hrange, hpiece⟩, -⟩ := hkept page hpage hfull
    obtain ⟨w', -, -, htext, hunique⟩ := h.exists_window hpage hfull
    rw [hunique w hw hrange.1 hrange.2, htext] at hpiece
    exact infix_take_iff.mp hpiece
  · intro hfits
    refine ⟨h.pairwise, fun page hpage hfull => ?_⟩
    obtain ⟨w, hw, hrange, htext, hunique⟩ := h.exists_window hpage hfull
    have hpiece : stripSpace pageTexts[page] <:+: w.text := by
      rw [htext]
      exact infix_take_iff.mpr (hfits page hpage hfull)
    exact ⟨w, ⟨hw, hrange, hpiece⟩, fun v hv => hunique v hv.1 hv.2.1.1 hv.2.1.2⟩

/-- For all page texts and numbers of pages for which there is a plan, the windows keep every page with a
text, once and whole, exactly if the stripped text of each page ends before the cut of its window. -/
theorem pages_kept_iff {n : ℤ} (h : planPageWindows pageTexts n = .ok windows) :
    KeepsPages pageTexts windows ↔ FitsWindows pageTexts n.toNat :=
  (planned_of_eq_ok h).keepsPages_iff

/-- Two short pages in one window. -/
theorem pages_kept_iff_short :
    KeepsPages [lit "page one", lit "page two"] [⟨1, 2, lit "page one\npage two", by decide, by decide +kernel⟩] ↔
      FitsWindows [lit "page one", lit "page two"] 2 := by
  have hplan : planPageWindows [lit "page one", lit "page two"] 2 =
      .ok [⟨1, 2, lit "page one\npage two", by decide, by decide +kernel⟩] := by
    decide +kernel
  exact pages_kept_iff hplan

/-- A page of one letter, as often as said, and a short one. -/
def crowdedPages (letters : ℕ) : List Str := [List.replicate letters 0x61, lit "b"]

theorem stripped_replicate (n : ℕ) : Stripped isSpace (List.replicate n 0x61) := by
  constructor
  · intro c t h
    have hc : c = 0x61 := List.eq_of_mem_replicate (h ▸ List.mem_cons_self : c ∈ List.replicate n 0x61)
    rw [hc]
    decide
  · intro c t h
    have hc : c = 0x61 := List.eq_of_mem_replicate
      (h ▸ List.mem_append_right t (List.mem_singleton_self c) : c ∈ List.replicate n 0x61)
    rw [hc]
    decide

theorem windowText_crowdedPages (n : ℕ) :
    windowText (crowdedPages (n + 1)) 2 0 = List.replicate (n + 1) 0x61 ++ [0x0A, 0x62] := by
  have hjoined : joinLines (crowdedPages (n + 1)) = List.replicate (n + 1) 0x61 ++ [0x0A, 0x62] := by
    simp [joinLines, crowdedPages, lit]
  change stripSpace (joinLines (crowdedPages (n + 1))) = _
  rw [hjoined]
  refine Stripped.strip_eq_self ⟨fun c t h => ?_, fun c t h => ?_⟩
  · rw [List.replicate_succ] at h
    cases h
    decide
  · have hlast := congrArg List.getLast? h
    simp only [List.getLast?_append, List.getLast?_singleton, List.getLast?_cons_cons, Option.some_or,
      Option.some.injEq] at hlast
    rw [← hlast]
    decide

/-- The text of the window is cut to its first page. -/
theorem take_windowText_crowdedPages (n : ℕ) :
    (windowText (crowdedPages (n + 1)) 2 0).take (n + 1) = List.replicate (n + 1) 0x61 := by
  rw [windowText_crowdedPages, List.take_left' List.length_replicate]

/-- The crowded pages have a plan. -/
theorem exists_planPageWindows {n : ℕ} (hn : maxWindowChars = n + 1) :
    ∃ windows, planPageWindows (crowdedPages (n + 1)) 2 = .ok windows := by
  have hstrip : stripSpace (List.replicate (n + 1) 0x61) = List.replicate (n + 1) 0x61 :=
    (stripped_replicate _).strip_eq_self
  have hfull : (windowText (crowdedPages (n + 1)) 2 0).isEmpty = false := by simp [windowText_crowdedPages]
  have hmake : ∃ w, PageWindow.make 1 2 (List.replicate (n + 1) 0x61) = .ok w :=
    PageWindow.exists_make (by decide) ⟨by simp [hstrip], by rw [List.length_replicate, hn]⟩
  obtain ⟨w, hw⟩ := hmake
  have hwindow : planWindow (crowdedPages (n + 1)) 2 0 = .ok (some w) := by
    unfold planWindow
    dsimp only
    rw [hfull, hn, take_windowText_crowdedPages]
    exact congrArg (Except.map some) hw
  have hlength : (crowdedPages (n + 1)).length = 2 := rfl
  refine ⟨[w], ?_⟩
  unfold planPageWindows
  rw [if_pos (by decide), if_pos (by simp [crowdedPages]), hlength]
  change [0].mapM (planWindow (crowdedPages (n + 1)) 2) >>= _ = _
  rw [List.mapM_cons, hwindow]
  rfl

/-- A page behind a full one is lost. -/
theorem page_lost :
    ∃ windows, planPageWindows (crowdedPages maxWindowChars) 2 = .ok windows ∧
      ¬ KeepsPages (crowdedPages maxWindowChars) windows := by
  obtain ⟨n, hn⟩ : ∃ n, maxWindowChars = n + 1 := ⟨11999, rfl⟩
  rw [hn]
  obtain ⟨windows, hwindows⟩ := exists_planPageWindows hn
  refine ⟨windows, hwindows, fun hkept => ?_⟩
  have hfits := (planned_of_eq_ok hwindows).keepsPages_iff.mp hkept 1 (Nat.lt_succ_self 1)
    (by change stripSpace (lit "b") ≠ []; decide +kernel)
  have hpiece := infix_take_iff.mpr hfits
  change lit "b" <:+: (windowText (crowdedPages (n + 1)) 2 0).take maxWindowChars at hpiece
  rw [hn, take_windowText_crowdedPages] at hpiece
  have hmem : 0x62 ∈ List.replicate (n + 1) 0x61 := hpiece.subset (by decide)
  exact absurd (List.eq_of_mem_replicate hmem) (by decide)

end NeuroLab.Research
