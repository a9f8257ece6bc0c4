import NeuroLab.Common.Interleaving
import NeuroLab.Common.Schedule
import NeuroLab.Research.LicencePages
import NeuroLab.Research.Licences

/-!
# The full-text cycles

`scripts/run_arxiv_fulltext_cycle.py` and `scripts/run_f1000_fulltext_cycle.py` verify the licence of
a paper first, then its PDF, and with `--persist` store both receipts, that of the licence first. Any
number of them may run beside each other and beside other scripts, and be killed at any point. The
storage itself accepts a document without evidence of its licence; these commands never leave one.
-/

namespace NeuroLab.Research

open Python Common Postgres

/-! ## The commands -/

/-- `str.upper` of an ASCII character. -/
def asciiUpper (c : ℕ) : ℕ := if 0x61 ≤ c ∧ c ≤ 0x7A then c - 0x20 else c

/-- What the commands take as given: `str.casefold` and `str.upper`, `HTMLParser` and `pypdf`. -/
structure Libraries where
  folding : CaseFolding
  upper : Str → Str
  upper_ascii : ∀ s, (∀ c ∈ s, c < 0x80) → upper s = s.map asciiUpper
  markup : Str → Except PyExc (List MarkupEvent)
  reader : PdfReader

/-- What a command meets: the day, the licence page, whether its output file can be written, and the ids and the clock of
its receipts. -/
structure Occasion where
  checkedOn : Str
  page : Str → Except VerifierError HtmlResponse
  written : Except PyExc Unit
  receiptId : Uuid
  documentId : Uuid
  now : ℕ

/-- A constructor raises for the first of its checks that fails. -/
def accept (checks : List (Bool × Str)) : Except VerifierError (PLift (require checks = .ok ())) :=
  match require checks with
  | .ok () => .ok ⟨rfl⟩
  | .error message => .error (.raised message)

namespace FullTextCycle

section Commands

variable (libraries : Libraries) (occasion : Occasion)

/-- The arguments of `run_arxiv_fulltext_cycle.py`. -/
structure ArxivArguments where
  sourceKey : Str
  arxivId : Str
  persist : Bool

/-- The arguments of `run_f1000_fulltext_cycle.py` and `run_f1000_html_evidence.py`. -/
structure F1000Arguments where
  sourceKey : Str
  articleId : Str
  version : ℤ := 1
  persist : Bool

/-- The receipts of `run_arxiv_fulltext_cycle.py`. -/
def arxivReceipts (pdf : Str → Except VerifierError PdfResponse) (arguments : ArxivArguments) :
    Except VerifierError (LicenseReceipt × FullTextReceipt) := do
  let page : ArxivLicenseFields := ⟨arguments.sourceKey, arguments.arxivId⟩
  let accepted ← accept page.checks
  let licence ← verifyArxivLicense occasion.page occasion.checkedOn ⟨page, accepted.down⟩
  let paper : OpenAccessPdfFields := ⟨arguments.sourceKey, arguments.arxivId, licence.licenseId⟩
  let accepted ← accept (paper.checks libraries.upper)
  let document ← verifyOpenAccessPdf libraries.reader pdf (⟨paper, accepted.down⟩ : OpenAccessPdfRequest libraries.upper)
  let _ ← occasion.written.mapError VerifierError.uncaught
  .ok (licence, document)

/-- The evidence of an F1000Research article. -/
def f1000Evidence (arguments : F1000Arguments) : Except VerifierError PublisherEvidence := do
  let page : F1000ArticleFields := ⟨arguments.sourceKey, arguments.articleId, arguments.version⟩
  let accepted ← accept page.checks
  verifyF1000Article libraries.folding libraries.markup occasion.page occasion.checkedOn ⟨page, accepted.down⟩

/-- The receipt of the PDF of an F1000Research article, or nothing while its download goes on. -/
def f1000Document (pdf : Str → Option (Except VerifierError PublisherPdfResponse)) (arguments : F1000Arguments)
    (evidence : PublisherEvidence) : Option (Except VerifierError FullTextReceipt) :=
  let paper : F1000OpenAccessPdfFields :=
    ⟨arguments.sourceKey, arguments.articleId, arguments.version, evidence.receipt.licenseId⟩
  match accept (paper.checks libraries.upper) with
  | .error e => some (.error e)
  | .ok accepted =>
    verifyF1000OpenAccessPdf libraries.reader pdf (⟨paper, accepted.down⟩ : F1000OpenAccessPdfRequest libraries.upper)

variable {py : Interpreter}

/-- A command of the repository on the corpus; one that ends may name a document that it says is stored. -/
abbrev Script (py : Interpreter) := Command (Call py) Str (Option FullTextReceipt)

/-- `main` of `run_arxiv_fulltext_cycle.py`. -/
def runArxivFulltextCycle (pdf : Str → Except VerifierError PdfResponse) (arguments : ArxivArguments) : Script py :=
  match arxivReceipts libraries occasion pdf arguments with
  | .error _ => .raise
  | .ok (licence, document) =>
    if arguments.persist then
      .call (.persistLicenseReceipt occasion.receiptId licence) fun _ =>
        .call (.persistFulltextReceipt occasion.documentId occasion.now document) fun _ => .pure (some document)
    else .pure none

/-- `main` of `run_f1000_fulltext_cycle.py`. A command whose download does not end makes no call. -/
def runF1000FulltextCycle (pdf : Str → Option (Except VerifierError PublisherPdfResponse)) (arguments : F1000Arguments) :
    Script py :=
  match f1000Evidence libraries occasion arguments with
  | .error _ => .raise
  | .ok evidence =>
    match f1000Document libraries pdf arguments evidence, occasion.written with
    | some (.ok document), .ok _ =>
      if arguments.persist then
        .call (.persistPublisherHtmlReceipt occasion.receiptId evidence.receipt) fun _ =>
          .call (.persistFulltextReceipt occasion.documentId occasion.now document) fun _ => .pure (some document)
      else .pure none
    | _, _ => .raise

/-- `main` of `run_f1000_html_evidence.py`. -/
def runF1000HtmlEvidence (arguments : F1000Arguments) : Script py :=
  match f1000Evidence libraries occasion arguments, occasion.written with
  | .ok evidence, .ok _ =>
    if arguments.persist then .call (.persistPublisherHtmlReceipt occasion.receiptId evidence.receipt) fun _ => .pure none
    else .pure none
  | _, _ => .raise

end Commands

variable {py : Interpreter}

/-- A call that stores no document. -/
def StoresNoDocument : Call py → Prop
  | .persistFulltextReceipt .. => False
  | _ => True

/-- The cycles, and whatever never stores a document: every script but `verify_open_access_pdf.py`. -/
inductive Admitted (libraries : Libraries) : Script py → Prop
  | arxiv (occasion : Occasion) (pdf : Str → Except VerifierError PdfResponse) (arguments : ArxivArguments) :
      Admitted libraries (runArxivFulltextCycle libraries occasion pdf arguments)
  | f1000 (occasion : Occasion) (pdf : Str → Option (Except VerifierError PublisherPdfResponse))
      (arguments : F1000Arguments) : Admitted libraries (runF1000FulltextCycle libraries occasion pdf arguments)
  | other (script : Script py) : script.Within StoresNoDocument (· = none) → Admitted libraries script

/-- `run_f1000_html_evidence.py` stores no document. -/
theorem admitted_runF1000HtmlEvidence (libraries : Libraries) (occasion : Occasion) (arguments : F1000Arguments) :
    Admitted libraries (runF1000HtmlEvidence libraries occasion arguments : Script py) := by
  refine .other _ ?_
  unfold runF1000HtmlEvidence
  split
  · split
    · exact ⟨trivial, fun _ => rfl⟩
    · rfl
  · trivial

/-- What a call does to the corpus. -/
def execute (site : Site) (db : Database) (call : Call site.host.py) : Outcome Database Str := call.run site db

/-- The scripts on one corpus, under any schedule. -/
def scripts (site : Site) : System (Pool Database (Call site.host.py) Str (Option FullTextReceipt))
    (Pool.Move (Call site.host.py) Str (Option FullTextReceipt)) :=
  Pool.interleaving (execute site) .empty

namespace Sample

/-- Libraries for ASCII texts, and a PDF of three pages. -/
def libraries : Libraries where
  folding := .ascii
  upper s := s.map asciiUpper
  upper_ascii _ _ := rfl
  markup page := .ok [.data page]
  reader _ := .ok (List.replicate 3 (.ok (some (lit "text"))))

/-- An abstract page with its licence. -/
def occasion : Occasion where
  checkedOn := lit "2024-01-03"
  page _ := .ok ⟨lit "text/html", (lit "<a href='HTTP://creativecommons.org/licenses/by/4.0'>").map UInt8.ofNat⟩
  written := .ok ()
  receiptId := 3
  documentId := 2
  now := 20

/-- The cycle of the preprint. -/
def cycle : Script Research.Sample.site.host.py :=
  runArxivFulltextCycle libraries occasion
    (fun _ => .ok ⟨lit "application/pdf", (lit "%PDF-1.7").map UInt8.ofNat⟩) ⟨Research.Sample.sourceKey, lit "2401.00001", true⟩

/-- The run that found the preprint. -/
def discovery : Script Research.Sample.site.host.py :=
  .call (.persistRun 1 10 Research.Sample.run (lit "runs/1.json")) fun _ => .pure none

/-- Two cycles of one paper beside each other, one of which is killed behind its licence receipt. -/
def schedule : List (Pool.Move (Call Research.Sample.site.host.py) Str (Option FullTextReceipt)) :=
  [.start discovery, .advance 0, .start cycle, .start cycle, .advance 1, .advance 2, .kill 1, .advance 2]

end Sample

/-! ## What the verifiers return -/

variable {libraries : Libraries} {occasion : Occasion} {site : Site} {db db' : Database}

/-- The identifier of a licence is in capitals. -/
theorem upper_name (license : License) : libraries.upper license.name = license.name := by
  cases license <;> exact (libraries.upper_ascii _ (by decide)).trans (by decide)

/-- A licence receipt names its source, arXiv and a licence. -/
theorem verifyArxivLicense_eq_ok {transport : Str → Except VerifierError HtmlResponse} {checkedOn : Str}
    {request : ArxivLicenseRequest} {receipt : LicenseReceipt}
    (h : verifyArxivLicense transport checkedOn request = .ok receipt) :
    receipt.sourceKey = request.sourceKey ∧ ∃ license : License, receipt.licenseId = license.name := by
  obtain ⟨response, -, h⟩ := bind_eq_ok_iff.mp h
  obtain ⟨_, -, h⟩ := bind_eq_ok_iff.mp h
  obtain ⟨_, -, h⟩ := bind_eq_ok_iff.mp h
  split at h
  · next licenseId address hfound =>
    cases h
    refine ⟨rfl, ?_⟩
    obtain ⟨pattern, hpattern, haddress⟩ := List.exists_of_findSome?_eq_some hfound
    obtain ⟨_, -, heq⟩ := Option.map_eq_some_iff.mp haddress
    cases heq
    rw [licensePatterns, List.mem_cons, List.mem_singleton] at hpattern
    rcases hpattern with rfl | rfl
    · exact ⟨.ccBy, rfl⟩
    · exact ⟨.ccZero, rfl⟩
  · cases h

/-- A full-text receipt names the source of its request, arXiv and the licence of its request, in capitals. -/
theorem verifyOpenAccessPdf_eq_ok {upper : Str → Str} {reader : PdfReader}
    {transport : Str → Except VerifierError PdfResponse} {request : OpenAccessPdfRequest upper} {receipt : FullTextReceipt}
    (h : verifyOpenAccessPdf reader transport request = .ok receipt) :
    receipt.sourceKey = request.sourceKey ∧ receipt.provider = lit "arxiv" ∧ receipt.licenseId = upper request.licenseId := by
  obtain ⟨response, -, h⟩ := bind_eq_ok_iff.mp h
  obtain ⟨⟨pageCount, text⟩, -, h⟩ := bind_eq_ok_iff.mp h
  simp only [receiptOf] at h
  split at h
  · cases h
  · cases h
    exact ⟨rfl, rfl, rfl⟩

/-- The receipts of a paper on arXiv are of one source and one licence. -/
theorem arxivReceipts_eq_ok {pdf : Str → Except VerifierError PdfResponse} {arguments : ArxivArguments}
    {licence : LicenseReceipt} {document : FullTextReceipt}
    (h : arxivReceipts libraries occasion pdf arguments = .ok (licence, document)) :
    document.sourceKey = licence.sourceKey ∧ document.provider = lit "arxiv" ∧ document.licenseId = licence.licenseId := by
  obtain ⟨accepted, -, h⟩ := bind_eq_ok_iff.mp h
  obtain ⟨licence, hlicence, h⟩ := bind_eq_ok_iff.mp h
  obtain ⟨accepted, -, h⟩ := bind_eq_ok_iff.mp h
  obtain ⟨document, hdocument, h⟩ := bind_eq_ok_iff.mp h
  obtain ⟨_, -, h⟩ := bind_eq_ok_iff.mp h
  cases h
  obtain ⟨hkey, license, hlicense⟩ := verifyArxivLicense_eq_ok hlicence
  obtain ⟨hkey', hprovider, hlicense'⟩ := verifyOpenAccessPdf_eq_ok hdocument
  refine ⟨hkey'.trans hkey.symm, hprovider, ?_⟩
  calc document.licenseId = libraries.upper licence.licenseId := hlicense'
    _ = licence.licenseId := by rw [hlicense, upper_name]

/-- The evidence of an article names its source. -/
theorem f1000Evidence_eq_ok {arguments : F1000Arguments} {evidence : PublisherEvidence}
    (h : f1000Evidence libraries occasion arguments = .ok evidence) : evidence.receipt.sourceKey = arguments.sourceKey := by
  obtain ⟨accepted, -, h⟩ := bind_eq_ok_iff.mp h
  obtain ⟨response, -, h⟩ := bind_eq_ok_iff.mp h
  obtain ⟨_, -, h⟩ := bind_eq_ok_iff.mp h
  obtain ⟨_, -, h⟩ := bind_eq_ok_iff.mp h
  obtain ⟨_, -, h⟩ := bind_eq_ok_iff.mp h
  split at h
  · cases h
  · obtain ⟨events, -, h⟩ := bind_eq_ok_iff.mp h
    obtain ⟨_, -, h⟩ := bind_eq_ok_iff.mp h
    split at h
    · cases h
    · cases h
      rfl

/-- The receipt of an article's PDF names its source and the publisher. -/
theorem f1000Document_eq_ok {pdf : Str → Option (Except VerifierError PublisherPdfResponse)} {arguments : F1000Arguments}
    {evidence : PublisherEvidence} {document : FullTextReceipt}
    (h : f1000Document libraries pdf arguments evidence = some (.ok document)) :
    document.sourceKey = arguments.sourceKey ∧ document.provider = lit "f1000research" := by
  simp only [f1000Document] at h
  split at h
  · cases h
  · obtain ⟨fetched, -, h⟩ := Option.map_eq_some_iff.mp h
    obtain ⟨response, -, h⟩ := bind_eq_ok_iff.mp h
    obtain ⟨⟨pageCount, text⟩, -, h⟩ := bind_eq_ok_iff.mp h
    simp only [receiptOf] at h
    split at h
    · cases h
    · cases h
      exact ⟨rfl, rfl⟩

/-! ## The guarantee -/

/-- Receipts stay with their source and licence, and documents with their source and digest. -/
structure ReceiptsKept (db db' : Database) : Prop where
  license : ∀ k r, db.licenseReceipts.find? k = some r → ∃ r', db'.licenseReceipts.find? k = some r' ∧
    r'.sourceKey = r.sourceKey ∧ r'.licenseId = r.licenseId
  publisher : ∀ k r, db.publisherReceipts.find? k = some r → ∃ r', db'.publisherReceipts.find? k = some r' ∧
    r'.sourceKey = r.sourceKey ∧ r'.licenseId = r.licenseId
  document : ∀ k d, db.documents.find? k = some d → ∃ d', db'.documents.find? k = some d' ∧ d'.receiptKey = d.receiptKey

theorem ReceiptsKept.refl (db : Database) : ReceiptsKept db db :=
  ⟨fun _ r hr => ⟨r, hr, rfl, rfl⟩, fun _ r hr => ⟨r, hr, rfl, rfl⟩, fun _ d hd => ⟨d, hd, rfl⟩⟩

/-- Every call keeps the receipts. -/
theorem receiptsKept (call : Call site.host.py) : ReceiptsKept db (call.run site db).1 := by
  have heffect : Effect site db call (call.run site db) := effect_of_run call
  generalize houtcome : call.run site db = outcome at heffect ⊢
  obtain ⟨db', reply⟩ := outcome
  refine ⟨fun k r hr => ?_, fun k r hr => ?_, fun k d hd => ?_⟩
  · cases heffect with
    | license _ _ hupserted =>
      rcases hupserted.kept_or_set hr with hr | hr
      · exact ⟨_, hr, rfl, rfl⟩
      · exact ⟨_, hr, rfl, rfl⟩
    | run hassessments _ _ hfold =>
      rw [(ingested_of_run hassessments hfold).frame]
      exact ⟨r, hr, rfl, rfl⟩
    | _ => exact ⟨r, hr, rfl, rfl⟩
  · cases heffect with
    | publisher _ _ hupserted =>
      rcases hupserted.kept_or_set hr with hr | hr
      · exact ⟨_, hr, rfl, rfl⟩
      · exact ⟨_, hr, rfl, rfl⟩
    | run hassessments _ _ hfold =>
      rw [(ingested_of_run hassessments hfold).frame]
      exact ⟨r, hr, rfl, rfl⟩
    | _ => exact ⟨r, hr, rfl, rfl⟩
  · obtain ⟨acquiredAt, extractionStatus, hd'⟩ := document_kept heffect hd
    exact ⟨_, hd', rfl⟩

/-- Every stored document has its evidence, and the publisher's receipts are under the one licence that is admitted. -/
structure Evidenced (db : Database) : Prop where
  licensed : Licensed db
  publisher : ∀ k r, db.publisherReceipts.find? k = some r → r.licenseId = .ccBy

/-- The receipt of a full text has its evidence. -/
def Backed (document : FullTextReceipt) (db : Database) : Prop :=
  ∀ id now row, newDocument id now document = some row → Evidence db row

theorem stable_backed (document : FullTextReceipt) : Stable ReceiptsKept (Backed document) :=
  fun _ _ hkept h id now row hrow => (h id now row hrow).mono hkept.license hkept.publisher

/-- The document of a receipt is stored. -/
def DocumentStored (document : FullTextReceipt) (db : Database) : Prop :=
  ∃ k d, db.documents.find? k = some d ∧ char64 document.sourceKey = some d.sourceKey ∧
    char64 document.sha256 = some d.pdfSha256

theorem stable_documentStored (document : FullTextReceipt) : Stable ReceiptsKept (DocumentStored document) := by
  intro db db' hkept h
  obtain ⟨k, d, hd, hkey, hdigest⟩ := h
  obtain ⟨d', hd', hsame⟩ := hkept.document k d hd
  obtain ⟨hsource, hpdf⟩ := Prod.mk.inj hsame
  exact ⟨k, d', hd', hsource ▸ hkey, hpdf ▸ hdigest⟩

/-- A new row of `publisher_html_receipts` is under the one licence that is admitted. -/
theorem newPublisher_eq_some {server : Server} {id : Uuid} {receipt : PublisherHtmlReceipt} {row : PublisherRow}
    (h : newPublisher server id receipt = some row) :
    char64 receipt.sourceKey = some row.sourceKey ∧ row.licenseId = .ccBy := by
  simp only [newPublisher, Option.bind_eq_bind, Option.bind_eq_some_iff] at h
  obtain ⟨key, hkey, _, -, license, -, _, -, _, -, _, -, _, -, h⟩ := h
  split at h
  · next hchecks =>
    cases h
    have hcheck := hchecks.2
    simp only [PublisherRow.check, Bool.and_eq_true, decide_eq_true_eq] at hcheck
    exact ⟨hkey, hcheck.1.1.2⟩
  · cases h

/-- A call leaves the corpus evidenced if it stores a document only where its evidence is found. -/
theorem Evidenced.call {call : Call site.host.py} (h : Evidenced db) (hfirst : EvidenceFirst db call) :
    Evidenced (call.run site db).1 := by
  refine ⟨(licensed_step h.licensed rfl).mpr hfirst, fun k r hr => ?_⟩
  have heffect : Effect site db call (call.run site db) := effect_of_run call
  generalize houtcome : call.run site db = outcome at heffect hr
  obtain ⟨db', reply⟩ := outcome
  cases heffect with
  | publisher hrow _ hupserted =>
    exact hupserted.forall h.publisher (newPublisher_eq_some hrow).2
      (fun r hr => h.publisher _ r (Indexed.taken?_eq_some hr).1) k r hr
  | run hassessments _ _ hfold =>
    replace hr : db'.publisherReceipts.find? k = some r := hr
    rw [(ingested_of_run hassessments hfold).frame] at hr
    exact h.publisher k r hr
  | _ => exact h.publisher k r hr

/-! ## The calls of a cycle -/

/-- The columns of a new document. -/
theorem newDocument_eq_some {id : Uuid} {now : ℕ} {document : FullTextReceipt} {row : DocumentRow}
    (h : newDocument id now document = some row) :
    char64 document.sourceKey = some row.sourceKey ∧ char64 document.sha256 = some row.pdfSha256 ∧
      DocumentProvider.ofName document.provider = some row.provider ∧
      License.ofName document.licenseId = some row.licenseId := by
  simp only [newDocument, Option.bind_eq_bind, Option.bind_eq_some_iff] at h
  obtain ⟨key, hkey, provider, hprovider, _, -, license, hlicense, digest, hdigest, _, -, _, -, h⟩ := h
  split at h
  · cases h
    exact ⟨hkey, hdigest, hprovider, hlicense⟩
  · cases h

/-- The columns of a new licence receipt. -/
theorem newLicense_eq_some {server : Server} {id : Uuid} {receipt : LicenseReceipt} {row : LicenseRow}
    (h : newLicense server id receipt = some row) :
    char64 receipt.sourceKey = some row.sourceKey ∧ License.ofName receipt.licenseId = some row.licenseId := by
  simp only [newLicense, Option.bind_eq_bind, Option.bind_eq_some_iff] at h
  obtain ⟨key, hkey, _, -, license, hlicense, _, -, _, -, h⟩ := h
  split at h
  · cases h
    exact ⟨hkey, hlicense⟩
  · cases h

/-- A stored licence receipt is evidence for a document on arXiv of the same source and licence. -/
theorem backed_of_license {id : Uuid} {licence : LicenseReceipt} {document : FullTextReceipt} {text : Str}
    (hkey : document.sourceKey = licence.sourceKey) (hprovider : document.provider = lit "arxiv")
    (hlicense : document.licenseId = licence.licenseId)
    (h : (Call.run site db (.persistLicenseReceipt id licence)).2 = .ok text) :
    Backed document (Call.run site db (.persistLicenseReceipt id licence)).1 := by
  have heffect : Effect site db _ (Call.run site db (.persistLicenseReceipt id licence)) := effect_of_run _
  generalize Call.run site db (.persistLicenseReceipt id licence) = outcome at h heffect ⊢
  cases heffect with
  | raised => cases h
  | @license _ _ row r receipts hrow _ hupserted =>
    intro id now d hd
    obtain ⟨hkey', -, hprovider', hlicense'⟩ := newDocument_eq_some hd
    obtain ⟨hrowKey, hrowLicense⟩ := newLicense_eq_some hrow
    have harxiv : d.provider = .arxiv := by
      rw [hprovider] at hprovider'
      exact Option.some.inj (hprovider'.symm.trans (by decide))
    have hsame := hupserted.alt_returned fun _ => rfl
    obtain ⟨hsource, hrest⟩ := Prod.mk.inj hsame
    rw [Evidence, harxiv]
    refine ⟨r.id, r, hupserted.find?_returned fun _ => rfl, ?_, ?_⟩
    · rw [hsource, ← Option.some.injEq, ← hrowKey, ← hkey', hkey]
    · rw [(Prod.mk.inj hrest).1, ← Option.some.injEq, ← hrowLicense, ← hlicense', hlicense]

/-- A stored receipt of a page is evidence for a document of the publisher of the same source. -/
theorem backed_of_publisher {id : Uuid} {receipt : PublisherHtmlReceipt} {document : FullTextReceipt} {text : Str}
    (hdb : Evidenced db) (hkey : document.sourceKey = receipt.sourceKey)
    (hprovider : document.provider = lit "f1000research")
    (h : (Call.run site db (.persistPublisherHtmlReceipt id receipt)).2 = .ok text) :
    Backed document (Call.run site db (.persistPublisherHtmlReceipt id receipt)).1 := by
  have hevidenced : Evidenced (Call.run site db (.persistPublisherHtmlReceipt id receipt)).1 := hdb.call trivial
  have heffect : Effect site db _ (Call.run site db (.persistPublisherHtmlReceipt id receipt)) := effect_of_run _
  generalize Call.run site db (.persistPublisherHtmlReceipt id receipt) = outcome at h heffect hevidenced ⊢
  cases heffect with
  | raised => cases h
  | @publisher _ _ row r receipts hrow _ hupserted =>
    intro id now d hd
    obtain ⟨hkey', -, hprovider', -⟩ := newDocument_eq_some hd
    have hpublisher : d.provider = .f1000research := by
      rw [hprovider] at hprovider'
      exact Option.some.inj (hprovider'.symm.trans (by decide))
    have hfound := hupserted.find?_returned fun _ => rfl
    obtain ⟨hsource, -⟩ := Prod.mk.inj (hupserted.alt_returned fun _ => rfl)
    rw [Evidence, hpublisher]
    refine ⟨r.id, r, hfound, ?_, hevidenced.publisher _ r hfound⟩
    rw [hsource, ← Option.some.injEq, ← (newPublisher_eq_some hrow).1, ← hkey', hkey]

/-- A full-text receipt that was accepted has its document. -/
theorem documentStored_of_call {id : Uuid} {now : ℕ} {document : FullTextReceipt} {text : Str}
    (h : (Call.run site db (.persistFulltextReceipt id now document)).2 = .ok text) :
    DocumentStored document (Call.run site db (.persistFulltextReceipt id now document)).1 := by
  have heffect : Effect site db _ (Call.run site db (.persistFulltextReceipt id now document)) := effect_of_run _
  generalize Call.run site db (.persistFulltextReceipt id now document) = outcome at h heffect ⊢
  cases heffect with
  | raised => cases h
  | @document _ _ _ row r documents hrow _ hupserted =>
    obtain ⟨hkey, hdigest, -, -⟩ := newDocument_eq_some hrow
    obtain ⟨hsource, hpdf⟩ := Prod.mk.inj (hupserted.alt_returned fun _ => rfl)
    refine ⟨r.id, r, hupserted.find?_returned fun _ => rfl, ?_, ?_⟩
    · rw [hkey, hsource]
    · rw [hdigest, hpdf]

/-! ## Every schedule -/

/-- What a script says it has stored is stored. -/
def Says : Option FullTextReceipt → Database → Prop
  | none, _ => True
  | some document, db => DocumentStored document db

/-- A script under the guarantee that receipts stay. -/
abbrev Safe (site : Site) (script : Script site.host.py) (P : Database → Prop) : Prop :=
  Assured (execute site) Evidenced ReceiptsKept Says script P

/-- Where its evidence is, a document may be stored. -/
theorem safe_document (site : Site) (id : Uuid) (now : ℕ) (document : FullTextReceipt) :
    Safe site (.call (.persistFulltextReceipt id now document) fun _ => .pure (some document)) (Backed document) := by
  refine ⟨fun db hdb hbacked => ⟨hdb.call fun row hrow => ?_, receiptsKept _⟩, fun _ => DocumentStored document,
    fun _ => stable_documentStored document, fun _ _ _ _ hreply => documentStored_of_call hreply, fun _ _ _ h => h⟩
  exact hbacked id now row (Option.filter_eq_some_iff.mp hrow).1

theorem safe_arxiv (site : Site) (occasion : Occasion) (pdf : Str → Except VerifierError PdfResponse)
    (arguments : ArxivArguments) :
    Safe site (runArxivFulltextCycle libraries occasion pdf arguments) fun _ => True := by
  unfold runArxivFulltextCycle
  split
  · trivial
  · next licence document hreceipts =>
    obtain ⟨hkey, hprovider, hlicense⟩ := arxivReceipts_eq_ok hreceipts
    split
    · exact ⟨fun _ hdb _ => ⟨hdb.call trivial, receiptsKept _⟩, fun _ => Backed document,
        fun _ => stable_backed document, fun _ _ _ _ hreply => backed_of_license hkey hprovider hlicense hreply,
        fun _ => safe_document site _ _ document⟩
    · exact fun _ _ _ => trivial

theorem safe_f1000 (site : Site) (occasion : Occasion) (pdf : Str → Option (Except VerifierError PublisherPdfResponse))
    (arguments : F1000Arguments) :
    Safe site (runF1000FulltextCycle libraries occasion pdf arguments) fun _ => True := by
  unfold runF1000FulltextCycle
  split
  · trivial
  next evidence hevidence =>
  split
  · next document _ hdocument _ =>
    obtain ⟨hkey, hprovider⟩ := f1000Document_eq_ok hdocument
    have hsame : document.sourceKey = evidence.receipt.sourceKey := hkey.trans (f1000Evidence_eq_ok hevidence).symm
    split
    · exact ⟨fun _ hdb _ => ⟨hdb.call trivial, receiptsKept _⟩, fun _ => Backed document,
        fun _ => stable_backed document, fun _ _ hdb _ hreply => backed_of_publisher hdb hsame hprovider hreply,
        fun _ => safe_document site _ _ document⟩
    · exact fun _ _ _ => trivial
  · trivial

/-- Every admitted script is safe. -/
theorem safe_of_admitted {script : Script site.host.py} (h : Admitted libraries script) :
    Safe site script fun _ => True := by
  cases h with
  | arxiv occasion pdf arguments => exact safe_arxiv site occasion pdf arguments
  | f1000 occasion pdf arguments => exact safe_f1000 site occasion pdf arguments
  | other _ hscript =>
    refine hscript.assured (fun call hcall db hdb => ⟨hdb.call ?_, receiptsKept call⟩) fun result hresult db _ => ?_
    · cases call with
      | persistFulltextReceipt => exact hcall.elim
      | _ => trivial
    · rw [hresult]
      trivial

variable {h : History (Pool Database (Call site.host.py) Str (Option FullTextReceipt))
    (Pool.Move (Call site.host.py) Str (Option FullTextReceipt))}
  {s : Pool Database (Call site.host.py) Str (Option FullTextReceipt)}

/-- Whatever the schedule of the scripts and wherever they are killed or lose an answer, every stored document has
evidence of its licence for the same source, and a cycle that ends has its document stored from then on. -/
theorem documents_licensed (hrun : (scripts site).Run h s)
    (hstarts : System.AllSteps (Pool.Starts (Admitted libraries)) h) :
    Licensed s.store ∧ ∀ document, Command.pure (some document) ∈ s.commands → DocumentStored document s.store := by
  have hinit : Evidenced Database.empty := by
    constructor
    · intro k d hd
      cases hd
    · intro k r hr
      cases hr
  have hsafe : ∀ script, Admitted libraries script → Safe site script fun _ => True := fun _ => safe_of_admitted
  have hsound := Pool.sound_of_run ReceiptsKept.refl hinit hsafe hrun hstarts
  exact ⟨hsound.kept.licensed, fun document hdocument => hsound.result hdocument⟩

/-- The document of one of two cycles beside each other. -/
theorem documents_licensed_beside :
    ∃ h s, (scripts Research.Sample.site).Run h s ∧ s.store.documents.rows.length = 1 ∧
      (Licensed s.store ∧ ∀ document, Command.pure (some document) ∈ s.commands → DocumentStored document s.store) := by
  obtain ⟨h, s, hrun, hmoves, htest⟩ := System.exists_run_moves (scripts Research.Sample.site) Sample.schedule
    (fun s => decide (s.store.documents.rows.length = 1)) (by decide +kernel)
  have hstarts : System.AllSteps (Pool.Starts (Admitted Sample.libraries)) h := by
    intro x hx
    have hmem : x.2 ∈ Sample.schedule := List.mem_reverse.mp (hmoves ▸ List.mem_map_of_mem hx)
    have hcycle : Admitted Sample.libraries Sample.cycle := .arxiv _ _ _
    have hdiscovery : Admitted Sample.libraries Sample.discovery := .other _ ⟨trivial, fun _ => rfl⟩
    simp only [Sample.schedule, List.mem_cons, List.not_mem_nil, or_false] at hmem
    rcases hmem with h | h | h | h | h | h | h | h <;> rw [h]
    · exact hdiscovery
    · trivial
    · exact hcycle
    · exact hcycle
    all_goals trivial
  exact ⟨h, s, hrun, of_decide_eq_true htest, documents_licensed hrun hstarts⟩

end FullTextCycle

end NeuroLab.Research
