import NeuroLab.Python.Floats
import NeuroLab.Research.CardParsing

/-!
# Candidate pages for diagrams

`candidate_diagram_pages` ranks the pages of a document by their captions and by how sparse they are
in a dense text, and keeps the best ones. Lower case and word characters outside ASCII are the
interpreter's Unicode database, which is taken as given.
-/

namespace NeuroLab.Research

open Python

/-- What the regular expressions of the interpreter know of characters. -/
structure RegexCharacters where
  lower : ℕ → ℕ
  isWord : ℕ → Bool

/-- The characters of ASCII. -/
def RegexCharacters.ascii : RegexCharacters where
  lower := asciiLower
  isWord c := isDigit c || (0x41 ≤ c && c ≤ 0x5A) || (0x61 ≤ c && c ≤ 0x7A) || c == 0x5F

namespace DiagramPages

/-! ## Captions -/

/-- The words of `_FIGURE`. -/
def words : List Str :=
  [lit "fig", lit "fig.", lit "figure", lit "figure.", lit "diagram", lit "workflow", lit "architecture",
    lit "pipeline", lit "схема", lit "схемы", lit "рисунок"]

/-- The characters that a letter of a pattern stands for in lower case, where case is ignored. -/
def equivalents (c : ℕ) : List ℕ :=
  if c = 0x69 then [0x69, 0x131]
  else if c = 0x43E then [0x43E, 0x1C82]
  else if c = 0x441 then [0x441, 0x1C83]
  else [c]

variable (characters : RegexCharacters)

/-- Whether a word stands at the head of a text, where case is ignored. -/
def startsIgnoringCase : Str → Str → Bool
  | [], _ => true
  | _ :: _, [] => false
  | p :: word, c :: text => decide (characters.lower c ∈ equivalents p) && startsIgnoringCase word text

/-- `\b` between two characters, either of which may be missing. -/
def isBoundary (before after : Option ℕ) : Bool := before.any characters.isWord != after.any characters.isWord

/-- `_FIGURE.search`, behind a character. -/
def searchFigure : Option ℕ → Str → Bool
  | _, [] => false
  | before, c :: text =>
    (isBoundary characters before (some c) && words.any fun word =>
      startsIgnoringCase characters word (c :: text) &&
        isBoundary characters ((c :: text).take word.length).getLast? ((c :: text).drop word.length).head?) ||
      searchFigure (some c) text

/-! ## Scores -/

/-- `n * 0.60`. -/
def timesSixTenths (n : ℕ) : Option Double := do
  let x ← Double.nearest false n 1
  let y ← Double.ofDecimal false 6 (-1)
  let z := x.value * y.value
  Double.nearest false z.num.natAbs z.den

/-- `sorted(lengths)[len(lengths) // 2]`. -/
def medianLength (pageTexts : List Str) : ℕ :=
  let lengths := (pageTexts.map fun text => (stripSpace text).length).insertionSort (· ≤ ·)
  lengths.getD (lengths.length / 2) 0

/-- `caption_score`. -/
def captionScore (text : Str) : ℕ := if searchFigure characters none text then 2 else 0

/-- `sparse_layout_score`. -/
def sparseLayoutScore (median : ℕ) (text : Str) : ℕ :=
  let length := (stripSpace text).length
  if 1200 ≤ median ∧ 160 ≤ length ∧ (timesSixTenths median).any fun most => decide ((length : ℚ) ≤ most.value) then 1
  else 0

/-- The score of a page. -/
def score (pageTexts : List Str) (text : Str) : ℕ :=
  captionScore characters text + sparseLayoutScore (medianLength pageTexts) text

/-- `ranked`: the pages with a score, and their numbers. -/
def ranked (pageTexts : List Str) : List (ℕ × ℕ) :=
  (pageTexts.zipIdx.map fun page => (score characters pageTexts page.1, page.2 + 1)).filter fun item => item.1 ≠ 0

/-- `key=lambda item: (-item[0], item[1])`. -/
def Before (a b : ℕ × ℕ) : Prop := b.1 < a.1 ∨ a.1 = b.1 ∧ a.2 ≤ b.2

instance : DecidableRel Before := fun a b => inferInstanceAs (Decidable (b.1 < a.1 ∨ a.1 = b.1 ∧ a.2 ≤ b.2))

end DiagramPages

open DiagramPages

/-- `candidate_diagram_pages`. -/
def candidateDiagramPages (characters : RegexCharacters) (pageTexts : List Str) (maximumPages : ℤ) :
    Except CardRaised (List ℕ) :=
  if 1 ≤ pageTexts.length ∧ pageTexts.length ≤ 100 ∧ 1 ≤ maximumPages ∧ maximumPages ≤ 12 then
    let best := ((ranked characters pageTexts).insertionSort Before).take maximumPages.toNat
    .ok ((best.map Prod.snd).insertionSort (· ≤ ·))
  else .error (.card (lit "diagram candidate boundary is malformed"))

namespace DiagramPages

/-! ## The choice -/

instance : Std.Total Before where
  total a b := by
    unfold Before
    omega

instance : IsTrans (ℕ × ℕ) Before where
  trans a b c := by
    unfold Before
    omega

variable {characters : RegexCharacters} {pageTexts : List Str} {maximumPages : ℤ} {pages : List ℕ}

/-- No page is ranked twice. -/
theorem nodup_ranked : ((ranked characters pageTexts).map Prod.snd).Nodup := by
  have hall : ((pageTexts.zipIdx.map fun page => (score characters pageTexts page.1, page.2 + 1)).map Prod.snd).Nodup := by
    rw [List.map_map]
    have hsnd : (Prod.snd ∘ fun page : Str × ℕ => (score characters pageTexts page.1, page.2 + 1)) =
        (· + 1) ∘ Prod.snd := rfl
    rw [hsnd, ← List.map_map, List.zipIdx_map_snd]
    exact (List.nodup_range').map fun a b h => Nat.succ_injective h
  exact hall.sublist (List.filter_sublist.map _)

/-- The pages chosen are ranked, each once and in ascending order; there are as many as there may be, or all; and none
that was left out comes before one of them. -/
theorem candidates_best (h : candidateDiagramPages characters pageTexts maximumPages = .ok pages) :
    pages.Pairwise (· < ·) ∧ (pages.length : ℤ) ≤ maximumPages ∧
      (∀ page ∈ pages, ∃ points, (points, page) ∈ ranked characters pageTexts) ∧
      ∀ item ∈ ranked characters pageTexts, item.2 ∉ pages →
        (pages.length : ℤ) = maximumPages ∧
          ∀ page ∈ pages, ∃ points, (points, page) ∈ ranked characters pageTexts ∧ Before (points, page) item := by
  unfold candidateDiagramPages at h
  split at h
  · next hbounds =>
    cases h
    generalize hsorted : (ranked characters pageTexts).insertionSort Before = sorted
    have hperm : sorted.Perm (ranked characters pageTexts) := hsorted ▸ List.perm_insertionSort _ _
    have hordered : sorted.Pairwise Before := hsorted ▸ List.pairwise_insertionSort _ _
    generalize hbest : sorted.take maximumPages.toNat = best
    generalize hrest : sorted.drop maximumPages.toNat = rest
    have hsplit : sorted = best ++ rest := by rw [← hbest, ← hrest, List.take_append_drop]
    have hpages : ((best.map Prod.snd).insertionSort (· ≤ ·)).Perm (best.map Prod.snd) := List.perm_insertionSort _ _
    have hranked : ∀ item ∈ best, item ∈ ranked characters pageTexts := fun item hitem =>
      hperm.subset (hsplit ▸ List.mem_append_left rest hitem)
    have hnodup : (best.map Prod.snd).Nodup := by
      have hall : (sorted.map Prod.snd).Nodup := (hperm.map Prod.snd).nodup_iff.mpr nodup_ranked
      rw [hsplit, List.map_append] at hall
      exact (List.nodup_append'.mp hall).1
    have hlength : best.length ≤ maximumPages.toNat := by
      rw [← hbest]
      exact List.length_take_le _ _
    refine ⟨?_, ?_, ?_, ?_⟩
    · have hle := List.pairwise_insertionSort (· ≤ ·) (best.map Prod.snd)
      have hne := hpages.nodup_iff.mpr hnodup
      exact hle.imp₂ (fun a b hab hne => lt_of_le_of_ne hab hne) hne
    · rw [hpages.length_eq, List.length_map]
      omega
    · intro page hpage
      obtain ⟨item, hitem, rfl⟩ := List.mem_map.mp (hpages.subset hpage)
      exact ⟨item.1, hranked item hitem⟩
    · intro item hitem hout
      have hmem : item ∈ rest := by
        rcases List.mem_append.mp (hsplit ▸ hperm.symm.subset hitem) with hin | hin
        · exact absurd (hpages.symm.subset (List.mem_map_of_mem hin)) hout
        · exact hin
      refine ⟨?_, fun page hpage => ?_⟩
      · have hfull : maximumPages.toNat ≤ best.length := by
          rw [← hbest, List.length_take]
          have hlong : 0 < (sorted.drop maximumPages.toNat).length := hrest ▸ List.length_pos_of_mem hmem
          rw [List.length_drop] at hlong
          omega
        rw [hpages.length_eq, List.length_map]
        omega
      · obtain ⟨chosen, hchosen, rfl⟩ := List.mem_map.mp (hpages.subset hpage)
        rw [hsplit] at hordered
        exact ⟨chosen.1, hranked chosen hchosen, (List.pairwise_append.mp hordered).2.2 chosen hchosen item hmem⟩
  · cases h

/-- Of two pages with a caption, the first one is chosen. -/
theorem candidates_best_captions :
    candidateDiagramPages .ascii [lit "Title", lit "Fig. 1: the loop", lit "The WORKFLOW", lit "configure"] 1 = .ok [2] ∧
      ([2].Pairwise (· < ·) ∧ (([2] : List ℕ).length : ℤ) ≤ 1 ∧
        (∀ page ∈ [2], ∃ points, (points, page) ∈
          ranked .ascii [lit "Title", lit "Fig. 1: the loop", lit "The WORKFLOW", lit "configure"]) ∧
        ∀ item ∈ ranked .ascii [lit "Title", lit "Fig. 1: the loop", lit "The WORKFLOW", lit "configure"], item.2 ∉ [2] →
          (([2] : List ℕ).length : ℤ) = 1 ∧ ∀ page ∈ [2], ∃ points, (points, page) ∈
            ranked .ascii [lit "Title", lit "Fig. 1: the loop", lit "The WORKFLOW", lit "configure"] ∧
              Before (points, page) item) := by
  have hpages : candidateDiagramPages .ascii
      [lit "Title", lit "Fig. 1: the loop", lit "The WORKFLOW", lit "configure"] 1 = .ok [2] := by decide +kernel
  exact ⟨hpages, candidates_best hpages⟩

end DiagramPages

end NeuroLab.Research
