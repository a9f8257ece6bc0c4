import NeuroLab.Research.DocumentUrls
import NeuroLab.Research.Preflight
import NeuroLab.Research.RangedDownload
import NeuroLab.Research.Storage

/-!
# The verifiers of full texts

`verify_open_access_pdf` for arXiv and `verify_f1000_open_access_pdf` for the publisher. Both fetch
one PDF, check it against the same limits and return a receipt; they differ in where the address
comes from, which for the publisher is a redirect of its server. What `pypdf` makes of a payload and
`str.upper` are taken as given.
-/

namespace NeuroLab.Research

open Python Postgres RangedDownload

/-! ## Examining a payload -/

/-- What `pypdf` makes of a payload: its pages, or what opening it raises; a page may raise in place of its text. -/
abbrev PdfReader := Bytes → Except PyExc (List (Except PyExc (Option Str)))

/-- The texts of the errors of a verifier. -/
structure VerifierErrors where
  contentType : Str
  signature : Str
  size : Str
  pages : Str
  extraction : Str
  characters : Str

/-- An error of a verifier, by its text, or an exception that passes through it. -/
inductive VerifierError
  | raised (message : Str)
  | uncaught (exc : PyExc)

/-- `b"%PDF-"`. -/
def pdfSignature : Bytes := [0x25, 0x50, 0x44, 0x46, 0x2D]

/-- `_MAX_PDF_PAGES`. -/
def maxPdfPages : ℕ := 100

/-- `_MAX_EXTRACTED_CHARS`. -/
def maxExtractedChars : ℕ := 1000000

/-- `"".join((page.extract_text() or "") for page in reader.pages)`. -/
def joinPages (pages : List (Except PyExc (Option Str))) : Except PyExc Str :=
  (pages.mapM id).map fun texts => (texts.map fun text => text.getD []).flatten

/-- A check of a verifier. -/
def refuseWhen (refused : Bool) (message : Str) : Except VerifierError Unit :=
  if refused then .error (.raised message) else .ok ()

/-- An exception inside the `try` of a verifier. -/
def guarded {α : Type} (message : Str) (result : Except PyExc α) : Except VerifierError α :=
  result.mapError fun _ => .raised message

/-- The number of pages and the text of a response that passes the checks. -/
def examine (errors : VerifierErrors) (contentTypes : List Str) (reader : PdfReader) (contentType : Str)
    (payload : Bytes) : Except VerifierError (ℕ × Str) := do
  refuseWhen (contentType ∉ contentTypes) errors.contentType
  refuseWhen (!pdfSignature.isPrefixOf payload) errors.signature
  refuseWhen (maxPdfBytes < payload.length) errors.size
  let pages ← guarded errors.extraction (reader payload)
  refuseWhen (maxPdfPages < pages.length) errors.pages
  let text ← guarded errors.extraction (joinPages pages)
  refuseWhen (maxExtractedChars < text.length) errors.characters
  .ok (pages.length, text)

/-- The receipt of a payload; a text with a surrogate has no digest. -/
def receiptOf (sourceKey provider documentUrl licenseId : Str) (payload : Bytes) (pageCount : ℕ) (text : Str) :
    Except VerifierError FullTextReceipt :=
  match utf8 text with
  | none => .error (.uncaught (.value (lit "UnicodeEncodeError")))
  | some bytes =>
    .ok {
      sourceKey
      provider
      documentUrl
      licenseId
      sha256 := sha256 (payload.map UInt8.toNat)
      byteCount := payload.length
      pageCount
      extractedTextSha256 := sha256 bytes
      extractedCharacterCount := text.length
      extractionStatus := lit "extracted_untrusted" }

/-! ## arXiv -/

/-- The fields of `OpenAccessPdfRequest`. -/
structure OpenAccessPdfFields where
  sourceKey : Str
  arxivId : Str
  licenseId : Str

/-- The checks of `OpenAccessPdfRequest`, in order. -/
def OpenAccessPdfFields.checks (request : OpenAccessPdfFields) (upper : Str → Str) : List (Bool × Str) :=
  [(isDigest request.sourceKey, lit "source key is malformed"),
    (isArxivId request.arxivId, lit "only modern arXiv identifiers are allowed"),
    (decide (upper request.licenseId ∈ [lit "CC-BY-4.0", lit "CC0-1.0", lit "PUBLIC-DOMAIN"]),
      lit "an explicit compatible open licence is required")]

/-- `OpenAccessPdfRequest`, with the checks of its constructor. -/
structure OpenAccessPdfRequest (upper : Str → Str) extends OpenAccessPdfFields where
  accepted : require (toOpenAccessPdfFields.checks upper) = .ok ()

/-- `OpenAccessPdfRequest.url`. -/
def OpenAccessPdfFields.url (request : OpenAccessPdfFields) : Str :=
  lit "https://export.arxiv.org/pdf/" ++ request.arxivId

/-- `PdfResponse`. -/
structure PdfResponse where
  contentType : Str
  payload : Bytes

/-- The errors of `verify_open_access_pdf`. -/
def openAccessErrors : VerifierErrors where
  contentType := lit "response is not a PDF"
  signature := lit "response does not have a PDF signature"
  size := lit "PDF exceeds the size limit"
  pages := lit "PDF exceeds the page limit"
  extraction := lit "PDF text extraction failed"
  characters := lit "extracted PDF text exceeds the limit"

variable {upper : Str → Str}

/-- `verify_open_access_pdf`. -/
def verifyOpenAccessPdf (reader : PdfReader) (transport : Str → Except VerifierError PdfResponse)
    (request : OpenAccessPdfRequest upper) : Except VerifierError FullTextReceipt := do
  let response ← transport request.url
  let (pageCount, text) ←
    examine openAccessErrors [lit "application/pdf"] reader response.contentType response.payload
  receiptOf request.sourceKey (lit "arxiv") request.url (upper request.licenseId) response.payload pageCount text

/-! ## F1000Research -/

/-- The fields of `F1000OpenAccessPdfRequest`. -/
structure F1000OpenAccessPdfFields where
  sourceKey : Str
  articleId : Str
  version : ℤ := 1
  licenseId : Str := lit "CC-BY-4.0"

/-- `_ARTICLE_ID`, over the whole text. -/
def isArticleId (s : Str) : Bool :=
  let rest := do
    let s ← dropRun 1 3 isDecimal s
    let s ← after? (lit "-") s
    dropRun 1 6 isDecimal s
  rest = some []

/-- The checks of `F1000OpenAccessPdfRequest`, in order. -/
def F1000OpenAccessPdfFields.checks (request : F1000OpenAccessPdfFields) (upper : Str → Str) : List (Bool × Str) :=
  [(isDigest request.sourceKey, lit "source key is malformed"),
    (isArticleId request.articleId, lit "article identifier is malformed"),
    (decide (1 ≤ request.version) && decide (request.version ≤ 99),
      lit "article version is outside the bounded range"),
    (decide (upper request.licenseId = lit "CC-BY-4.0"), lit "an explicit CC-BY-4.0 licence is required")]

/-- `F1000OpenAccessPdfRequest`, with the checks of its constructor. -/
structure F1000OpenAccessPdfRequest (upper : Str → Str) extends F1000OpenAccessPdfFields where
  accepted : require (toF1000OpenAccessPdfFields.checks upper) = .ok ()

/-- `F1000OpenAccessPdfRequest.publisher_url`. -/
def F1000OpenAccessPdfFields.publisherUrl (request : F1000OpenAccessPdfFields) : Str :=
  lit "https://f1000research.com/articles/" ++ request.articleId ++ lit "/v" ++ decimalInt request.version ++ lit "/pdf"

/-- `PdfResponse` of the publisher. -/
structure PublisherPdfResponse extends PdfResponse where
  documentUrl : Str

/-- `/articles/\d{1,3}-\d{1,6}/v\d{1,2}/pdf`, over the whole text. -/
def isArticlePath (s : Str) : Bool :=
  let rest := do
    let s ← after? (lit "/articles/") s
    let s ← dropRun 1 3 isDecimal s
    let s ← after? (lit "-") s
    let s ← dropRun 1 6 isDecimal s
    let s ← after? (lit "/v") s
    let s ← dropRun 1 2 isDecimal s
    after? (lit "/pdf") s
  rest = some []

/-- Whether a URL is on the allowlist of one host: HTTPS without user and password, on the usual port, with a path
and what follows it that are admitted. `urlparse` and `port` may raise a `ValueError` of their own. -/
def allowlisted (checks : UrlChecks) (host : Str) (admits : UrlPath → Bool) (url : Str) : Except PyExc Bool :=
  match checks.urlparse url with
  | none => .error (.value (lit "ValueError"))
  | some parsed =>
    if parsed.scheme ≠ lit "https" || parsed.hostname checks ≠ some host || !(parsed.userinfo.1.getD []).isEmpty ||
        !(parsed.userinfo.2.getD []).isEmpty then
      .ok false
    else match parsed.port with
      | none => .error (.value (lit "ValueError"))
      | some port => .ok ((port = none || port = some 443) && admits (urlPath url))

/-- A URL outside the allowlist is refused. -/
def requireAllowlisted (checks : UrlChecks) (host : Str) (admits : UrlPath → Bool) (url message : Str) :
    Except VerifierError Unit :=
  match allowlisted checks host admits url with
  | .error exc => .error (.uncaught exc)
  | .ok allowed => refuseWhen (!allowed) message

/-- `_validate_publisher_url`. -/
def validatePublisherUrl (checks : UrlChecks) (url : Str) : Except VerifierError Unit :=
  requireAllowlisted checks (lit "f1000research.com")
    (fun parsed => isArticlePath parsed.path && parsed.query.isEmpty && parsed.fragment.isEmpty) url
    (lit "publisher PDF target is outside the allowlist")

/-- `_stable_file_url`, which leaves the query out. -/
def stableFileUrl (checks : UrlChecks) (location : Str) : Except VerifierError Str := do
  requireAllowlisted checks (lit "f1000research-files.f1000.com")
    (fun parsed => isStaticPath parsed.path && parsed.fragment.isEmpty) location
    (lit "publisher PDF redirect is outside the static-file allowlist")
  .ok (lit "https://f1000research-files.f1000.com" ++ (urlPath location).path)

/-- How opening the publisher's route ends: with a response, with an `HTTPError` and its `Location`, with a `URLError`
or a `TimeoutError`, or with another exception. -/
inductive RouteAnswer
  | answered
  | httpError (code : ℕ) (location : Option Str)
  | unreachable
  | raised (exc : PyExc)

/-- The redirect of the publisher's route. -/
def redirectOf : RouteAnswer → Except VerifierError Str
  | .answered => .error (.raised (lit "publisher PDF route did not provide the expected static redirect"))
  | .unreachable => .error (.raised (lit "publisher PDF route failed"))
  | .raised exc => .error (.uncaught exc)
  | .httpError code location =>
    if code ∉ [301, 302, 303, 307, 308] then .error (.raised (lit "publisher PDF route failed"))
    else match location with
      | none => .error (.raised (lit "publisher PDF redirect has no location"))
      | some location => .ok location

/-- The exceptions of the download that become the module's own. -/
def isNetworkError (exc : PyExc) : Bool :=
  exc ∈ [.other (lit "HTTPError"), .other (lit "URLError"), .other (lit "TimeoutError")]

/-- What the download raises, as the transport raises it. -/
def downloadError : RangedDownload.Failure → VerifierError
  | .publisher message => .raised message
  | .uncaught exc => if isNetworkError exc then .raised (lit "publisher static PDF request failed") else .uncaught exc

/-- `default_f1000_pdf_transport`, whose download is cut off behind so many rounds. -/
def defaultF1000PdfTransport (checks : UrlChecks) (route : Str → RouteAnswer) (server : RangedDownload.Server) (rounds : ℕ)
    (url : Str) : Option (Except VerifierError PublisherPdfResponse) :=
  let target : Except VerifierError Str := do
    validatePublisherUrl checks url
    let location ← redirectOf (route url)
    stableFileUrl checks location
  match target with
  | .error e => some (.error e)
  | .ok documentUrl =>
    (readStaticPdfRanges server documentUrl rounds).map fun outcome =>
      (outcome.1.mapError downloadError).map fun read => { contentType := read.2, payload := read.1, documentUrl }

/-- The errors of `verify_f1000_open_access_pdf`. -/
def publisherErrors : VerifierErrors where
  contentType := lit "publisher response is not an allowed PDF MIME type"
  signature := lit "publisher response does not have a PDF signature"
  size := lit "publisher PDF exceeds the size limit"
  pages := lit "publisher PDF exceeds the page limit"
  extraction := lit "publisher PDF text extraction failed"
  characters := lit "publisher extracted text exceeds the limit"

/-- `verify_f1000_open_access_pdf`. -/
def verifyF1000OpenAccessPdf (reader : PdfReader)
    (transport : Str → Option (Except VerifierError PublisherPdfResponse)) (request : F1000OpenAccessPdfRequest upper) :
    Option (Except VerifierError FullTextReceipt) :=
  (transport request.publisherUrl).map fun fetched => do
    let response ← fetched
    let (pageCount, text) ← examine publisherErrors [lit "application/pdf", lit "application/octet-stream"] reader
      response.contentType response.payload
    receiptOf request.sourceKey (lit "f1000research") response.documentUrl (lit "CC-BY-4.0") response.payload pageCount
      text

end NeuroLab.Research
