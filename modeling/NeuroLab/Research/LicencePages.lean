import NeuroLab.Research.SchemaFit
import NeuroLab.Research.VisibleText
import NeuroLab.Python.Wire

/-!
# The verifiers of licence pages

`verify_arxiv_license` reads the licence of an arXiv paper off its abstract page, and
`verify_f1000_article` that of an article off the publisher's page. Both look for the address of a
licence anywhere in the page, ignoring case, and keep digests only. What `HTMLParser` tells of a page
is taken as given.
-/

namespace NeuroLab.Research

open Python Common Postgres
open RangedDownload (Bytes)

/-! ## Addresses of licences -/

/-- What `https?://ADDRESS/?` may match, as the matcher tries it. -/
def addressForms (address : String) : List Str :=
  [lit "https://" ++ lit address ++ lit "/", lit "https://" ++ lit address, lit "http://" ++ lit address ++ lit "/",
    lit "http://" ++ lit address]

/-- `pattern.search(payload)` with `re.IGNORECASE`: the first match, in lower case. -/
def searchAddress (address : String) : Str → Option Str
  | [] => none
  | c :: rest =>
    match (addressForms address).find? fun form => form.isPrefixOf ((c :: rest).map asciiLower) with
    | some form => some form
    | none => searchAddress address rest

/-- `_LICENSE_PATTERNS`. -/
def licensePatterns : List (String × Str) :=
  [("creativecommons.org/licenses/by/4.0", lit "CC-BY-4.0"), ("creativecommons.org/publicdomain/zero/1.0", lit "CC0-1.0")]

/-- `HtmlResponse`. -/
structure HtmlResponse where
  contentType : Str
  payload : Bytes

/-- The characters of a payload as numbers. -/
def HtmlResponse.octets (response : HtmlResponse) : Str := response.payload.map UInt8.toNat

/-- The media types of pages. -/
def htmlTypes : List Str := [lit "text/html", lit "application/xhtml+xml"]

/-! ## arXiv -/

/-- The fields of `ArxivLicenseRequest`. -/
structure ArxivLicenseFields where
  sourceKey : Str
  arxivId : Str

/-- The checks of `ArxivLicenseRequest`, in order. -/
def ArxivLicenseFields.checks (request : ArxivLicenseFields) : List (Bool × Str) :=
  [(isDigest request.sourceKey, lit "source key is malformed"),
    (isArxivId request.arxivId, lit "only modern arXiv identifiers are allowed")]

/-- `ArxivLicenseRequest`, with the checks of its constructor. -/
structure ArxivLicenseRequest extends ArxivLicenseFields where
  accepted : require toArxivLicenseFields.checks = .ok ()

/-- `ArxivLicenseRequest.url`. -/
def ArxivLicenseFields.url (request : ArxivLicenseFields) : Str := lit "https://arxiv.org/abs/" ++ request.arxivId

/-- `_MAX_HTML_BYTES` of `license_verification`. -/
def maxAbstractPageBytes : ℕ := 1000000

/-- `verify_arxiv_license`. -/
def verifyArxivLicense (transport : Str → Except VerifierError HtmlResponse) (checkedOn : Str)
    (request : ArxivLicenseRequest) : Except VerifierError LicenseReceipt := do
  let response ← transport request.url
  refuseWhen (response.contentType ∉ htmlTypes) (lit "licence response is not HTML")
  refuseWhen (maxAbstractPageBytes < response.payload.length) (lit "licence response exceeds the size limit")
  match licensePatterns.findSome? fun pattern =>
      (searchAddress pattern.1 response.octets).map fun address => (pattern.2, address) with
  | some (licenseId, address) =>
    .ok {
      sourceKey := request.sourceKey
      provider := lit "arxiv"
      metadataUrl := request.url
      licenseId
      evidenceSha256 := sha256 address
      checkedOn }
  | none => .error (.raised (lit "no compatible explicit open licence was found"))

/-! ## F1000Research -/

/-- The fields of `F1000ArticleRequest`. -/
structure F1000ArticleFields where
  sourceKey : Str
  articleId : Str
  version : ℤ := 1

/-- The checks of `F1000ArticleRequest`, in order. -/
def F1000ArticleFields.checks (request : F1000ArticleFields) : List (Bool × Str) :=
  [(isDigest request.sourceKey, lit "source key is malformed"),
    (isArticleId request.articleId, lit "article identifier is malformed"),
    (decide (1 ≤ request.version) && decide (request.version ≤ 99),
      lit "article version is outside the bounded range")]

/-- `F1000ArticleRequest`, with the checks of its constructor. -/
structure F1000ArticleRequest extends F1000ArticleFields where
  accepted : require toF1000ArticleFields.checks = .ok ()

/-- `F1000ArticleRequest.url`. -/
def F1000ArticleFields.url (request : F1000ArticleFields) : Str :=
  lit "https://f1000research.com/articles/" ++ request.articleId ++ lit "/v" ++ decimalInt request.version

/-- `_MAX_HTML_BYTES` of `publisher_evidence`. -/
def maxArticlePageBytes : ℕ := 2000000

/-- `PublisherEvidence`. -/
structure PublisherEvidence where
  receipt : PublisherHtmlReceipt
  excerpt : Str

/-- `verify_f1000_article`. -/
def verifyF1000Article (folding : CaseFolding) (markup : Str → Except PyExc (List MarkupEvent))
    (transport : Str → Except VerifierError HtmlResponse) (checkedOn : Str) (request : F1000ArticleRequest) :
    Except VerifierError PublisherEvidence := do
  let response ← transport request.url
  refuseWhen (response.contentType ∉ htmlTypes) (lit "publisher response is not HTML")
  refuseWhen (maxArticlePageBytes < response.payload.length) (lit "publisher response exceeds the size limit")
  refuseWhen (searchAddress "creativecommons.org/licenses/by/4.0" response.octets).isNone
    (lit "no explicit compatible open licence was found")
  match decodeUtf8 0 response.octets with
  | none => .error (.raised (lit "publisher response is not UTF-8 HTML"))
  | some page =>
    let events ← (markup page).mapError VerifierError.uncaught
    let visible := (VisibleText.feed folding events).text
    refuseWhen visible.isEmpty (lit "publisher page has no visible text")
    match utf8 visible with
    | none => .error (.uncaught (.value (lit "UnicodeEncodeError")))
    | some bytes =>
      .ok {
        receipt := {
          sourceKey := request.sourceKey
          provider := lit "f1000research"
          documentUrl := request.url
          licenseId := lit "CC-BY-4.0"
          htmlSha256 := sha256 response.octets
          visibleTextSha256 := sha256 bytes
          visibleCharacterCount := visible.length
          checkedOn
          verificationStatus := lit "publisher_html_verified" }
        excerpt := visible.take 2000 }

end NeuroLab.Research
