import NeuroLab.Common.Floor
import NeuroLab.Research.Sample

/-!
# The visible text of a page

`_VisibleText` counts the open elements whose text is hidden, without their names: any end tag
of the four names lowers the count. Against the elements that are really open, whose end tags
close the last one of their name, the count is never too high, so no visible text is lost. It
may be too low, and then hidden text is kept. How low it is depends on the tags alone: the count
is the greatest surplus of start tags in a stretch that ends where one is.
-/

namespace NeuroLab.Research

open Python Common

/-! ## The parser -/

/-- What `HTMLParser` tells its handlers; the attributes of a tag are not read. -/
inductive MarkupEvent
  | starttag (tag : Str)
  | endtag (tag : Str)
  | data (text : Str)

/-- The state of `_VisibleText`. -/
structure VisibleText where
  ignoredDepth : ℕ
  parts : List Str

namespace VisibleText

/-- `_IGNORED`. -/
def ignored : List Str := [lit "script", lit "style", lit "noscript", lit "template"]

/-- `_VisibleText()`. -/
def initial : VisibleText := ⟨0, []⟩

/-- `handle_starttag`, `handle_endtag` and `handle_data`. -/
def handle (folding : CaseFolding) (state : VisibleText) : MarkupEvent → VisibleText
  | .starttag tag =>
    if folding.casefold tag ∈ ignored then { state with ignoredDepth := state.ignoredDepth + 1 } else state
  | .endtag tag =>
    if folding.casefold tag ∈ ignored ∧ state.ignoredDepth ≠ 0 then
      { state with ignoredDepth := state.ignoredDepth - 1 }
    else state
  | .data text => if state.ignoredDepth = 0 then { state with parts := state.parts ++ [text] } else state

/-- The events of a page, in order. -/
def feed (folding : CaseFolding) (events : List MarkupEvent) : VisibleText := events.foldl (handle folding) initial

/-- `text`. -/
def text (state : VisibleText) : Str := joinSpace (splitSpace (joinSpace state.parts))

end VisibleText

/-! ## Open elements -/

/-- The names of the open elements, the last one first: an end tag closes the last one of its name. -/
def track (folding : CaseFolding) (elements : List Str) : MarkupEvent → List Str
  | .starttag tag => folding.casefold tag :: elements
  | .endtag tag => elements.erase (folding.casefold tag)
  | .data _ => elements

/-- The elements that are open after the events. -/
def openElements (folding : CaseFolding) (events : List MarkupEvent) : List Str := events.foldl (track folding) []

/-- Some of the elements hide their text. -/
def Hides (elements : List Str) : Prop := ∃ name ∈ elements, name ∈ VisibleText.ignored

instance : DecidablePred Hides := fun elements => inferInstanceAs (Decidable (∃ name ∈ elements, name ∈ VisibleText.ignored))

/-- The text that comes next is kept. -/
def Kept (folding : CaseFolding) (before : List MarkupEvent) (text : Str) : Prop :=
  (VisibleText.feed folding (before ++ [.data text])).parts = (VisibleText.feed folding before).parts ++ [text]

/-- Exactly the texts that no open element hides are kept. -/
def KeepsVisible (folding : CaseFolding) (events : List MarkupEvent) : Prop :=
  ∀ before text after, events = before ++ .data text :: after → (Kept folding before text ↔ ¬Hides (openElements folding before))

/-- Whether an event is a start tag of a hiding element. -/
def opens (folding : CaseFolding) : MarkupEvent → Bool
  | .starttag tag => folding.casefold tag ∈ VisibleText.ignored
  | _ => false

/-- Whether an event is an end tag of the name of a hiding element. -/
def closes (folding : CaseFolding) : MarkupEvent → Bool
  | .endtag tag => folding.casefold tag ∈ VisibleText.ignored
  | _ => false

/-- Each hidden text ends a stretch with more start tags of hiding elements than end tags of their names. -/
def Concealed (folding : CaseFolding) (events : List MarkupEvent) : Prop :=
  ∀ before text after, events = before ++ .data text :: after → Hides (openElements folding before) →
    ∃ stretch, stretch <:+ before ∧ stretch.countP (closes folding) < stretch.countP (opens folding)

section Depth

variable {folding : CaseFolding} {events : List MarkupEvent}

/-! ## The count -/

theorem feed_concat (events : List MarkupEvent) (event : MarkupEvent) :
    VisibleText.feed folding (events ++ [event]) = (VisibleText.feed folding events).handle folding event :=
  List.foldl_concat _ _ _ _

theorem openElements_concat (events : List MarkupEvent) (event : MarkupEvent) :
    openElements folding (events ++ [event]) = track folding (openElements folding events) event :=
  List.foldl_concat _ _ _ _

/-- How an event moves the count. -/
def weight (folding : CaseFolding) (event : MarkupEvent) : ℤ :=
  (if opens folding event then 1 else 0) - if closes folding event then 1 else 0

theorem sum_weight (events : List MarkupEvent) :
    (events.map (weight folding)).sum = events.countP (opens folding) - events.countP (closes folding) := by
  induction events with
  | nil => rfl
  | cons event events ih =>
    rw [List.map_cons, List.sum_cons, ih, List.countP_cons, List.countP_cons, weight]
    push_cast
    ring

variable (folding) in
/-- A handler moves the count by the weight of the event, but not below zero. -/
theorem ignoredDepth_handle (state : VisibleText) (event : MarkupEvent) :
    ((state.handle folding event).ignoredDepth : ℤ) = max 0 (state.ignoredDepth + weight folding event) := by
  cases event with
  | starttag tag =>
    by_cases h : folding.casefold tag ∈ VisibleText.ignored
    · simp only [VisibleText.handle, if_pos h, weight, opens, closes, decide_eq_true h]
      push_cast
      omega
    · simp [VisibleText.handle, weight, opens, closes, h]
  | endtag tag =>
    by_cases h : folding.casefold tag ∈ VisibleText.ignored
    · by_cases hdepth : state.ignoredDepth = 0
      · simp [VisibleText.handle, weight, opens, closes, h, hdepth]
      · simp only [VisibleText.handle, if_pos (And.intro h hdepth), weight, opens, closes, decide_eq_true h]
        push_cast
        omega
    · simp [VisibleText.handle, weight, opens, closes, h]
  | data text =>
    have hsame : (state.handle folding (.data text)).ignoredDepth = state.ignoredDepth := by
      rw [VisibleText.handle]
      split <;> rfl
    rw [hsame]
    simp [weight, opens, closes]

/-- The count is a sum with a floor. -/
theorem ignoredDepth_feed (events : List MarkupEvent) :
    ((VisibleText.feed folding events).ignoredDepth : ℤ) = floored (events.map (weight folding)) := by
  induction events using List.reverseRecOn with
  | nil => rfl
  | append_singleton events event ih =>
    rw [feed_concat, List.map_append, List.map_singleton, floored_concat, ← ih, ignoredDepth_handle]

/-- The count is above zero after a stretch with more start tags than end tags. -/
theorem ignoredDepth_ne_zero_iff {events : List MarkupEvent} : (VisibleText.feed folding events).ignoredDepth ≠ 0 ↔
    ∃ stretch, stretch <:+ events ∧ stretch.countP (closes folding) < stretch.countP (opens folding) := by
  have hpos : (VisibleText.feed folding events).ignoredDepth ≠ 0 ↔ (0 : ℤ) < floored (events.map (weight folding)) := by
    rw [← ignoredDepth_feed]
    omega
  have hrise : ∀ stretch : List MarkupEvent, 0 < (stretch.map (weight folding)).sum ↔
      stretch.countP (closes folding) < stretch.countP (opens folding) := by
    intro stretch
    rw [sum_weight]
    omega
  rw [hpos, floored_pos_iff]
  constructor
  · rintro ⟨last, hlast, hsum⟩
    obtain ⟨stretch, hstretch, rfl⟩ := List.suffix_map_iff.mp hlast
    exact ⟨stretch, hstretch, (hrise stretch).mp hsum⟩
  · rintro ⟨stretch, hstretch, hless⟩
    exact ⟨stretch.map (weight folding), hstretch.map _, (hrise stretch).mpr hless⟩

/-! ## The count and the open elements -/

/-- The number of open elements that hide their text. -/
def hidingCount (elements : List Str) : ℕ := elements.countP (· ∈ VisibleText.ignored)

theorem hides_iff {elements : List Str} : Hides elements ↔ 0 < hidingCount elements := by
  rw [hidingCount, List.countP_pos_iff]
  simp [Hides]

variable (folding) in
/-- An end tag lowers the number of hiding elements by at most one. -/
theorem hiding_track (elements : List Str) (event : MarkupEvent) :
    (hidingCount elements : ℤ) + weight folding event ≤ hidingCount (track folding elements event) := by
  cases event with
  | starttag tag =>
    simp only [weight, opens, closes, track, hidingCount, List.countP_cons, decide_eq_true_eq]
    push_cast
    simp
  | endtag tag =>
    simp only [weight, opens, closes, track, hidingCount]
    have herase := List.countP_erase (fun name => decide (name ∈ VisibleText.ignored)) elements (folding.casefold tag)
    simp only [Bool.false_eq_true, if_false, decide_eq_true_eq] at herase ⊢
    by_cases h : folding.casefold tag ∈ VisibleText.ignored
    · rw [if_pos h, herase]
      split <;> omega
    · rw [if_neg fun hopen => h hopen.2] at herase
      rw [if_neg h, herase]
      omega
  | data text => simp [weight, opens, closes, track]

variable (folding) in
/-- The count is never above the number of hiding elements that are open. -/
theorem ignoredDepth_le (events : List MarkupEvent) :
    (VisibleText.feed folding events).ignoredDepth ≤ hidingCount (openElements folding events) := by
  induction events using List.reverseRecOn with
  | nil => exact Nat.le_refl 0
  | append_singleton events event ih =>
    have hhandle := ignoredDepth_handle folding (VisibleText.feed folding events) event
    have htrack := hiding_track folding (openElements folding events) event
    rw [← feed_concat] at hhandle
    rw [← openElements_concat] at htrack
    omega

/-- A text is kept if the count is zero. -/
theorem kept_iff {before : List MarkupEvent} (text : Str) :
    Kept folding before text ↔ (VisibleText.feed folding before).ignoredDepth = 0 := by
  rw [Kept, feed_concat, VisibleText.handle]
  split
  · next h => simp [h]
  · next h => simp [h]

/-- No visible text is lost. -/
theorem kept_of_not_hides {before : List MarkupEvent} (h : ¬Hides (openElements folding before)) (text : Str) :
    Kept folding before text := by
  have hle := ignoredDepth_le folding before
  rw [hides_iff] at h
  rw [kept_iff]
  omega

/-- A covered text is not kept. -/
theorem Concealed.keepsVisible (h : Concealed folding events) : KeepsVisible folding events := by
  intro before text after hevents
  constructor
  · intro hkept hhides
    exact ignoredDepth_ne_zero_iff.mpr (h before text after hevents hhides) ((kept_iff text).mp hkept)
  · exact fun hhides => kept_of_not_hides hhides text

/-- Exactly the texts that no open element hides are kept if and only if every hidden text is covered. -/
theorem keepsVisible_iff (folding : CaseFolding) (events : List MarkupEvent) :
    KeepsVisible folding events ↔ Concealed folding events := by
  refine ⟨fun h before text after hevents hhides => ?_, Concealed.keepsVisible⟩
  rw [← ignoredDepth_ne_zero_iff, ne_eq, ← kept_iff text, h before text after hevents]
  exact not_not_intro hhides

end Depth

/-- An end tag of another name uncovers the text of an element. -/
theorem mismatched_endtag_uncovers : ¬KeepsVisible Sample.folding
    [.starttag (lit "noscript"), .endtag (lit "template"), .data (lit "hidden")] := by
  intro h
  have hkept := h [.starttag (lit "noscript"), .endtag (lit "template")] (lit "hidden") [] rfl
  rw [Kept] at hkept
  revert hkept
  decide

end NeuroLab.Research
