import NeuroLab.Python.AsciiJson
import NeuroLab.Python.Wire
import NeuroLab.Research.Sample
import NeuroLab.Research.SchemaFit

/-!
# Public repositories

`verify_public_repository` asks the API of GitHub for the metadata and the tree of one repository and keeps
its branch and licence, what kinds of paths there are, and a digest of all of that. The digest names the
content, whatever order and letter case the tree comes in, so that a repository is stored once for a claim
as long as it stays as it is.
-/

namespace NeuroLab.Research

open Python Common Postgres

/-! ## Requests -/

/-- The fields of `PublicRepositoryRequest`. -/
structure PublicRepositoryFields where
  sourceKey : Str
  claimId : Str
  repository : Str

/-- `_REPOSITORY.fullmatch`. -/
def isRepositoryName (s : Str) : Bool :=
  match s.splitOnP (· = 0x2F) with
  | [owner, name] => spans 1 39 isRepositoryChar owner && spans 1 100 isRepositoryChar name
  | _ => false

/-- The checks of `PublicRepositoryRequest`, in order. -/
def PublicRepositoryFields.checks (request : PublicRepositoryFields) : List (Bool × Str) :=
  [(isDigest request.sourceKey, lit "source key is malformed"),
    ((parseUuid request.claimId).isSome, lit "claim id is malformed"),
    (isRepositoryName request.repository, lit "repository must be an owner/name identifier")]

/-- `PublicRepositoryRequest`, with the checks of its constructor. -/
structure PublicRepositoryRequest extends PublicRepositoryFields where
  accepted : require toPublicRepositoryFields.checks = .ok ()

/-! ## Verification -/

/-- `_BRANCH.fullmatch`. -/
def isBranch (s : Str) : Bool := spans 1 128 (fun c => isRepositoryChar c || c = 0x2F) s

/-- `repository_url`. -/
def repositoryUrl (repository : Str) : Str := lit "https://api.github.com" ++ (lit "/repos/" ++ repository)

/-- `quote(branch, safe="")`: of the characters of a branch, only the slash is quoted. -/
def quoteBranch (branch : Str) : Str := branch.flatMap fun c => if c = 0x2F then lit "%2F" else [c]

/-- `tree_url`. -/
def treeUrl (repository branch : Str) : Str :=
  lit "https://api.github.com" ++ (lit "/repos/" ++ repository ++ lit "/git/trees/" ++ quoteBranch branch ++ lit "?recursive=1")

section Verification

variable (py : Interpreter) (folding : CaseFolding)

/-- `_json`. -/
def repositoryJson (payload : List ℕ) : Except VerifierError (List (Str × Json)) :=
  match decodeUtf8 0 payload with
  | none => .error (.raised (lit "repository API returned invalid JSON"))
  | some text =>
    match py.loads text with
    | .ok (.obj fields) => .ok fields
    | .ok _ => .error (.raised (lit "repository API envelope is invalid"))
    | .error exc =>
      if exc = .value (lit "JSONDecodeError") then .error (.raised (lit "repository API returned invalid JSON"))
      else .error (.uncaught exc)

/-- The default branch, if it is well formed. -/
def readBranch (metadata : List (Str × Json)) : Except VerifierError Str :=
  match getD metadata (lit "default_branch") .null with
  | .str branch =>
    if isBranch branch then .ok branch else .error (.raised (lit "repository default branch is malformed"))
  | _ => .error (.raised (lit "repository default branch is malformed"))

/-- `license_data.get("spdx_id")` of a `dict`. -/
def spdxId (metadata : List (Str × Json)) : Json :=
  match getD metadata (lit "license") .null with
  | .obj license => getD license (lit "spdx_id") .null
  | _ => .null

/-- The identifiers that name no licence. -/
def noLicences : List Str := [lit "NOASSERTION", lit "Other", []]

/-- The licence, if there is one that a machine can read. -/
def readLicence (metadata : List (Str × Json)) : Except VerifierError Str :=
  match spdxId metadata with
  | .str spdx =>
    if spdx ∈ noLicences then .error (.raised (lit "repository has no machine-readable code licence")) else .ok spdx
  | _ => .error (.raised (lit "repository has no machine-readable code licence"))

/-- The folded path of an entry of the tree, if it has one. -/
def entryPath : Json → Option Str
  | .obj entry =>
    match getD entry (lit "path") .null with
    | .str path => some (folding.casefold path)
    | _ => none
  | _ => none

/-- `paths`, of a complete tree. -/
def readPaths (tree : List (Str × Json)) : Except VerifierError (List Str) :=
  match getD tree (lit "tree") .null with
  | .arr entries =>
    if getD tree (lit "truncated") .null = .bool true then .error (.raised (lit "repository tree is incomplete"))
    else .ok (entries.filterMap (entryPath folding))
  | _ => .error (.raised (lit "repository tree is incomplete"))

/-- What is kept of a repository: its default branch, its licence and its folded paths. -/
structure RepositoryContent where
  branch : Str
  licence : Str
  paths : List Str

/-- `path.rsplit("/", 1)[-1]`. -/
def baseName (path : Str) : Str := afterLast 0x2F path

/-- The names of environment manifests. -/
def manifestNames : List Str :=
  [lit "pyproject.toml", lit "requirements.txt", lit "environment.yml", lit "environment.yaml", lit "dockerfile",
    lit "compose.yaml", lit "package-lock.json", lit "poetry.lock"]

/-- `has_readme`, `has_test_paths`, `has_manifest` and `has_data`, of one path. -/
def isReadme (path : Str) : Bool := startsWith (lit "readme") (baseName path)

def isTestPath (path : Str) : Bool :=
  startsWith (lit "test/") path || startsWith (lit "tests/") path || decide (lit "/test_" <:+: path)

def isManifest (path : Str) : Bool := decide (baseName path ∈ manifestNames)

def isDataPath (path : Str) : Bool :=
  startsWith (lit "data/") path || startsWith (lit "dataset/") path || startsWith (lit "datasets/") path

/-- The order of texts. -/
def Precedes (s t : Str) : Prop := lexLe s t = true

instance : DecidableRel Precedes := fun s t => inferInstanceAs (Decidable (lexLe s t = true))

instance : IsTrans Str Precedes := ⟨fun _ _ _ => lexLe_trans⟩

instance : Std.Total Precedes := ⟨lexLe_total⟩

/-- `sorted(paths)`. -/
def sortedPaths (paths : List Str) : List Str := paths.insertionSort Precedes

/-- `evidence`, before it is encoded. -/
def evidenceText (repository : Str) (content : RepositoryContent) : Str :=
  ensureAscii (compact py.floatRepr (.obj [(lit "repository", .str repository), (lit "branch", .str content.branch),
    (lit "licence", .str content.licence), (lit "paths", strings (sortedPaths content.paths))]))

/-- The receipt of a repository with this content. -/
def artifactReceipt (request : PublicRepositoryFields) (content : RepositoryContent) : PublicArtifactReceipt where
  sourceKey := request.sourceKey
  claimId := request.claimId
  repository := request.repository
  apiUrl := repositoryUrl request.repository
  htmlUrl := lit "https://github.com/" ++ request.repository
  defaultBranch := content.branch
  codeLicense := content.licence
  evidenceSha256 := sha256 (evidenceText py request.repository content)
  hasReadme := content.paths.any isReadme
  hasTestPaths := content.paths.any isTestPath
  hasEnvironmentManifest := content.paths.any isManifest
  hasDataPaths := content.paths.any isDataPath
  verificationStatus := lit "public_artifact_metadata_verified"

/-- `verify_public_repository`. -/
def verifyPublicRepository (transport : Str → Except VerifierError (List ℕ)) (request : PublicRepositoryRequest) :
    Except VerifierError PublicArtifactReceipt := do
  let payload ← transport (repositoryUrl request.repository)
  let metadata ← repositoryJson py payload
  refuseWhen (getD metadata (lit "archived") .null = .bool true ∨ getD metadata (lit "private") .null = .bool true)
    (lit "repository is not an active public artifact")
  let branch ← readBranch metadata
  refuseWhen (getD metadata (lit "html_url") .null ≠ .str (lit "https://github.com/" ++ request.repository))
    (lit "repository canonical URL is malformed")
  let licence ← readLicence metadata
  let payload ← transport (treeUrl request.repository branch)
  let tree ← repositoryJson py payload
  let paths ← readPaths folding tree
  .ok (artifactReceipt py request.toPublicRepositoryFields { branch, licence, paths })

end Verification

namespace Sample

/-- A repository on GitHub that shows its tree in this way. -/
def github (tree : Str) (url : Str) : Except VerifierError (List ℕ) :=
  if url = lit "https://api.github.com/repos/lab/memory" then
    .ok (lit "\x7b\"default_branch\":\"main\",\"html_url\":\"https://github.com/lab/memory\",\"license\":\x7b\"spdx_id\":\"MIT\"\x7d\x7d")
  else if url = lit "https://api.github.com/repos/lab/memory/git/trees/main?recursive=1" then
    .ok (lit "\x7b\"truncated\":false,\"tree\":[" ++ tree ++ lit "]\x7d")
  else .error (.raised (lit "repository API request failed"))

/-- A tree, and the same in another order and letter case. -/
def tree : Str := lit "\x7b\"path\":\"README.md\"\x7d,\x7b\"path\":\"tests/test_memory.py\"\x7d"

def shuffledTree : Str := lit "\x7b\"path\":\"Tests/Test_Memory.py\"\x7d,\x7b\"path\":\"readme.md\"\x7d"

/-- The repository, for the claim of an id. -/
def repository (claimId : Uuid) : PublicRepositoryFields := ⟨sourceKey, uuidText claimId, lit "lab/memory"⟩

def repositoryRequest : PublicRepositoryRequest := ⟨repository 7, by decide +kernel⟩

/-- What becomes of it. -/
def verified (tree : Str) : Except VerifierError PublicArtifactReceipt :=
  verifyPublicRepository site.host.py .ascii (github tree) repositoryRequest

/-- Both trees are accepted. -/
theorem exists_receipt {t : Str} (h : t ∈ [tree, shuffledTree]) : ∃ receipt, verified t = .ok receipt := by
  have hall : ∀ t ∈ [tree, shuffledTree], (verified t).isOk = true := by decide +kernel
  have hok : (verified t).isOk = true := hall t h
  cases hreceipt : verified t with
  | error e =>
    rw [hreceipt] at hok
    cases hok
  | ok receipt => exact ⟨receipt, rfl⟩

end Sample

/-! ## What a receipt says -/

variable {py : Interpreter} {folding : CaseFolding} {transport transport' : Str → Except VerifierError (List ℕ)}
  {request request' : PublicRepositoryRequest} {receipt receipt' : PublicArtifactReceipt}

/-- The API answers with this object. -/
def AnswersWith (py : Interpreter) (transport : Str → Except VerifierError (List ℕ)) (url : Str) (fields : List (Str × Json)) :
    Prop :=
  ∃ payload text, transport url = .ok payload ∧ decodeUtf8 0 payload = some text ∧ py.loads text = .ok (.obj fields)

theorem raised_ne_ok {ε α : Type} {e : ε} {a : α} : ¬ (.error e : Except ε α) = .ok a := by
  rintro ⟨⟩

theorem repositoryJson_eq_ok_iff {payload : List ℕ} {fields : List (Str × Json)} :
    repositoryJson py payload = .ok fields ↔ ∃ text, decodeUtf8 0 payload = some text ∧ py.loads text = .ok (.obj fields) := by
  unfold repositoryJson
  cases decodeUtf8 0 payload with
  | none => simp
  | some text =>
    simp only [Option.some.injEq, exists_eq_left']
    split
    · next fields' hloads => simp [hloads]
    · next v hv hloads =>
      refine iff_of_false raised_ne_ok fun h => ?_
      rw [hloads] at h
      cases h
      exact hv _ rfl
    · next exc hloads =>
      rw [hloads]
      split <;> exact iff_of_false raised_ne_ok raised_ne_ok

/-- A public repository with this content, as the API shows it. -/
structure Shown (py : Interpreter) (folding : CaseFolding) (transport : Str → Except VerifierError (List ℕ))
    (repository : Str) (content : RepositoryContent) (metadata tree : List (Str × Json)) : Prop where
  answered : AnswersWith py transport (repositoryUrl repository) metadata
  active : getD metadata (lit "archived") .null ≠ .bool true ∧ getD metadata (lit "private") .null ≠ .bool true
  branch : getD metadata (lit "default_branch") .null = .str content.branch ∧ isBranch content.branch = true
  canonical : getD metadata (lit "html_url") .null = .str (lit "https://github.com/" ++ repository)
  licence : spdxId metadata = .str content.licence ∧ content.licence ∉ noLicences
  listed : AnswersWith py transport (treeUrl repository content.branch) tree
  complete : getD tree (lit "truncated") .null ≠ .bool true
  paths : ∃ entries, getD tree (lit "tree") .null = .arr entries ∧ content.paths = entries.filterMap (entryPath folding)

theorem readBranch_eq_ok_iff {metadata : List (Str × Json)} {branch : Str} : readBranch metadata = .ok branch ↔
    getD metadata (lit "default_branch") .null = .str branch ∧ isBranch branch = true := by
  unfold readBranch
  split
  · next found hfound =>
    split
    · next hbranch =>
      simp only [hfound, Json.str.injEq, Except.ok.injEq]
      refine ⟨?_, And.left⟩
      rintro rfl
      exact ⟨rfl, hbranch⟩
    · next hbranch =>
      simp only [hfound, Json.str.injEq, reduceCtorEq, false_iff, not_and]
      rintro rfl
      exact hbranch
  · next hfound =>
    refine iff_of_false raised_ne_ok fun h => hfound _ h.1

theorem readLicence_eq_ok_iff {metadata : List (Str × Json)} {licence : Str} : readLicence metadata = .ok licence ↔
    spdxId metadata = .str licence ∧ licence ∉ noLicences := by
  unfold readLicence
  split
  · next found hfound =>
    split
    · next hnone =>
      simp only [hfound, Json.str.injEq, reduceCtorEq, false_iff, not_and, not_not]
      rintro rfl
      exact hnone
    · next hsome =>
      simp only [hfound, Json.str.injEq, Except.ok.injEq]
      refine ⟨?_, And.left⟩
      rintro rfl
      exact ⟨rfl, hsome⟩
  · next hfound =>
    refine iff_of_false raised_ne_ok fun h => hfound _ h.1

theorem readPaths_eq_ok_iff {tree : List (Str × Json)} {paths : List Str} : readPaths folding tree = .ok paths ↔
    getD tree (lit "truncated") .null ≠ .bool true ∧
      ∃ entries, getD tree (lit "tree") .null = .arr entries ∧ paths = entries.filterMap (entryPath folding) := by
  unfold readPaths
  split
  · next entries hentries =>
    split
    · next htruncated => exact iff_of_false raised_ne_ok fun h => h.1 htruncated
    · next hcomplete =>
      simp only [hentries, Json.arr.injEq, exists_eq_left', Except.ok.injEq, hcomplete, not_false_eq_true, ne_eq, true_and]
      exact eq_comm
  · next hentries =>
    refine iff_of_false raised_ne_ok ?_
    rintro ⟨-, entries, h, -⟩
    exact hentries _ h

/-- A verification accepts what the API shows it, and returns the receipt of that. -/
theorem verifyPublicRepository_eq_ok_iff : verifyPublicRepository py folding transport request = .ok receipt ↔
    ∃ content metadata tree, Shown py folding transport request.repository content metadata tree ∧
      receipt = artifactReceipt py request.toPublicRepositoryFields content := by
  constructor
  · intro h
    obtain ⟨payload, hpayload, h⟩ := bind_eq_ok_iff.mp h
    obtain ⟨metadata, hmetadata, h⟩ := bind_eq_ok_iff.mp h
    obtain ⟨_, hactive, h⟩ := bind_eq_ok_iff.mp h
    obtain ⟨branch, hbranch, h⟩ := bind_eq_ok_iff.mp h
    obtain ⟨_, hcanonical, h⟩ := bind_eq_ok_iff.mp h
    obtain ⟨licence, hlicence, h⟩ := bind_eq_ok_iff.mp h
    obtain ⟨listing, hlisting, h⟩ := bind_eq_ok_iff.mp h
    obtain ⟨tree, htree, h⟩ := bind_eq_ok_iff.mp h
    obtain ⟨paths, hpaths, h⟩ := bind_eq_ok_iff.mp h
    cases h
    obtain ⟨text, hdecoded, hloads⟩ := repositoryJson_eq_ok_iff.mp hmetadata
    obtain ⟨text', hdecoded', hloads'⟩ := repositoryJson_eq_ok_iff.mp htree
    rw [refuseWhen_eq_ok_iff, decide_eq_false_iff_not] at hactive hcanonical
    obtain ⟨hcomplete, hentries⟩ := readPaths_eq_ok_iff.mp hpaths
    exact ⟨_, metadata, tree, ⟨⟨payload, text, hpayload, hdecoded, hloads⟩, not_or.mp hactive, readBranch_eq_ok_iff.mp hbranch,
      not_not.mp hcanonical, readLicence_eq_ok_iff.mp hlicence, ⟨listing, text', hlisting, hdecoded', hloads'⟩, hcomplete,
      hentries⟩, rfl⟩
  · rintro ⟨content, metadata, tree, hshown, rfl⟩
    obtain ⟨payload, text, hpayload, hdecoded, hloads⟩ := hshown.answered
    obtain ⟨listing, text', hlisting, hdecoded', hloads'⟩ := hshown.listed
    refine bind_eq_ok_iff.mpr ⟨payload, hpayload, ?_⟩
    refine bind_eq_ok_iff.mpr ⟨metadata, repositoryJson_eq_ok_iff.mpr ⟨text, hdecoded, hloads⟩, ?_⟩
    refine bind_eq_ok_iff.mpr ⟨(), refuseWhen_eq_ok_iff.mpr (decide_eq_false (not_or.mpr hshown.active)), ?_⟩
    refine bind_eq_ok_iff.mpr ⟨content.branch, readBranch_eq_ok_iff.mpr hshown.branch, ?_⟩
    refine bind_eq_ok_iff.mpr ⟨(), refuseWhen_eq_ok_iff.mpr (decide_eq_false (not_not.mpr hshown.canonical)), ?_⟩
    refine bind_eq_ok_iff.mpr ⟨content.licence, readLicence_eq_ok_iff.mpr hshown.licence, ?_⟩
    refine bind_eq_ok_iff.mpr ⟨listing, hlisting, ?_⟩
    refine bind_eq_ok_iff.mpr ⟨tree, repositoryJson_eq_ok_iff.mpr ⟨text', hdecoded', hloads'⟩, ?_⟩
    exact bind_eq_ok_iff.mpr ⟨content.paths, readPaths_eq_ok_iff.mpr ⟨hshown.complete, hshown.paths⟩, rfl⟩

/-! ## Texts of an answer -/

/-- A member of an object that is not the default is one of its values. -/
theorem mem_of_getD {fields : List (Str × Json)} {k : Str} {v : Json} (h : getD fields k .null = v) (hv : v ≠ .null) :
    ∃ f ∈ fields, f.2 = v := by
  unfold getD at h
  cases hfound : get? fields k with
  | none =>
    rw [hfound] at h
    exact absurd h.symm hv
  | some w =>
    rw [hfound] at h
    unfold get? at hfound
    obtain ⟨f, hf, hw⟩ := Option.map_eq_some_iff.mp hfound
    exact ⟨f, List.mem_of_find?_eq_some hf, hw.trans h⟩

/-- The texts of a member are texts of the object. -/
theorem unpaired_of_getD {fields : List (Str × Json)} {k : Str} {v : Json} (h : getD fields k .null = v) (hv : v ≠ .null)
    (hfields : ∀ t ∈ (Json.obj fields).texts, Unpaired t) : ∀ t ∈ v.texts, Unpaired t := by
  obtain ⟨f, hf, rfl⟩ := mem_of_getD h hv
  exact fun t ht => hfields t (Json.mem_textsFields.mpr ⟨f, hf, .inr ht⟩)

/-- The API is read from UTF-8, so that no text of it has a pair of surrogates. -/
theorem AnswersWith.unpaired {url : Str} {fields : List (Str × Json)} (h : AnswersWith py transport url fields) :
    ∀ t ∈ (Json.obj fields).texts, Unpaired t := by
  obtain ⟨payload, text, -, hdecoded, hloads⟩ := h
  have hencodable : Encodable text := by
    rw [← isSome_utf8_iff, decodeUtf8_eq_some_iff.mp hdecoded]
    rfl
  unfold Interpreter.loads at hloads
  split at hloads
  · next v hv =>
    cases hloads
    exact unpaired_of_loads hv hencodable
  · cases hloads
  · cases hloads
  · cases hloads

/-- What `str.casefold` does with surrogates, which have no case, and with other characters. -/
structure KeepsPoints (folding : CaseFolding) : Prop where
  encodable : ∀ c, (utf8Char c).isSome = true → Encodable (folding.fold c)
  kept : ∀ c, folding.fold c ≠ []
  surrogate : ∀ c, 0xD800 ≤ c ∧ c ≤ 0xDFFF → folding.fold c = [c]

theorem keepsPoints_ascii : KeepsPoints .ascii where
  encodable c hc d hd := by
    rw [List.mem_singleton.mp hd]
    unfold asciiLower
    split
    · exact isSome_utf8Char_iff.mpr (by omega)
    · exact hc
  kept c := List.cons_ne_nil _ _
  surrogate c hc := by
    change [asciiLower c] = [c]
    rw [asciiLower, if_neg (by omega)]

/-- Folding a text makes no pair of surrogates, and puts none at its start. -/
theorem unpaired_casefold (hfolding : KeepsPoints folding) {s : Str} (h : Unpaired s) :
    Unpaired (folding.casefold s) ∧ ∀ d t, folding.casefold s = d :: t → isLowSurrogate d = true →
      ∃ c u, s = c :: u ∧ isLowSurrogate c = true := by
  induction s with
  | nil =>
    refine ⟨.nil, ?_⟩
    rintro d t ⟨⟩
  | cons c s ih =>
    obtain ⟨hs, hhead⟩ := ih h.tail
    rw [CaseFolding.casefold, List.flatMap_cons]
    by_cases hc : 0xD800 ≤ c ∧ c ≤ 0xDFFF
    · rw [hfolding.surrogate c hc]
      refine ⟨hs.cons (h.points c List.mem_cons_self) fun hhigh d t heq => ?_, ?_⟩
      · cases hd : isLowSurrogate d with
        | false => rfl
        | true =>
          obtain ⟨e, u, rfl, he⟩ := hhead d t heq hd
          rw [h.head hhigh] at he
          cases he
      · intro d t heq hd
        cases heq
        exact ⟨c, s, rfl, hd⟩
    · have hfold : Encodable (folding.fold c) :=
        hfolding.encodable c (isSome_utf8Char_iff.mpr ⟨h.points c List.mem_cons_self, hc⟩)
      refine ⟨.encodable_append hfold hs, fun d t heq hd => ?_⟩
      obtain ⟨e, r, hchar⟩ := List.exists_cons_of_ne_nil (hfolding.kept c)
      rw [hchar] at heq hfold
      cases heq
      obtain ⟨-, hscalar⟩ := isSome_utf8Char_iff.mp (hfold d List.mem_cons_self)
      simp only [isLowSurrogate, Bool.and_eq_true, decide_eq_true_eq] at hd
      omega

theorem mem_textsItems {vs : List Json} {v : Json} (hv : v ∈ vs) {t : Str} (ht : t ∈ v.texts) : t ∈ Json.textsItems vs := by
  induction vs with
  | nil => cases hv
  | cons w vs ih =>
    rw [Json.textsItems, List.mem_append]
    rcases List.mem_cons.mp hv with rfl | hv
    · exact .inl ht
    · exact .inr (ih hv)

/-- The texts that a verification keeps have no pair of surrogates. -/
structure RepositoryContent.Unpaired (content : RepositoryContent) : Prop where
  branch : Python.Unpaired content.branch
  licence : Python.Unpaired content.licence
  paths : ∀ path ∈ content.paths, Python.Unpaired path

theorem Shown.unpaired (hfolding : KeepsPoints folding) {repository : Str} {content : RepositoryContent}
    {metadata tree : List (Str × Json)} (h : Shown py folding transport repository content metadata tree) :
    content.Unpaired := by
  obtain ⟨entries, hentries, hpaths⟩ := h.paths
  constructor
  case branch => exact unpaired_of_getD h.branch.1 (by simp) h.answered.unpaired _ List.mem_cons_self
  case licence =>
    have hspdx := h.licence.1
    unfold spdxId at hspdx
    split at hspdx
    · next license hlicense =>
      have htexts := unpaired_of_getD hlicense (by simp) h.answered.unpaired
      exact unpaired_of_getD hspdx (by simp) htexts _ List.mem_cons_self
    · cases hspdx
  case paths =>
    intro path hpath
    rw [hpaths] at hpath
    obtain ⟨entry, hentry, hpath⟩ := List.mem_filterMap.mp hpath
    have htexts : ∀ t ∈ entry.texts, Python.Unpaired t := fun t ht =>
      unpaired_of_getD hentries (by simp) h.listed.unpaired t (mem_textsItems hentry ht)
    unfold entryPath at hpath
    split at hpath
    · next fields =>
      split at hpath
      · next p hp =>
        cases hpath
        exact (unpaired_casefold hfolding (unpaired_of_getD hp (by simp) htexts p List.mem_cons_self)).1
      · cases hpath
    · cases hpath

/-! ## What a digest identifies -/

/-- The same branch and licence, and the same paths in some order. -/
structure RepositoryContent.Same (content content' : RepositoryContent) : Prop where
  branch : content.branch = content'.branch
  licence : content.licence = content'.licence
  paths : content.paths.Perm content'.paths

theorem sortedPaths_eq_iff {ps qs : List Str} : sortedPaths ps = sortedPaths qs ↔ ps.Perm qs := by
  have hps : (sortedPaths ps).Perm ps := List.perm_insertionSort Precedes ps
  have hqs : (sortedPaths qs).Perm qs := List.perm_insertionSort Precedes qs
  constructor
  · exact fun h => hps.symm.trans (h ▸ hqs)
  · intro h
    have hperm : (sortedPaths ps).Perm (sortedPaths qs) := hps.trans (h.trans hqs.symm)
    exact hperm.eq_of_pairwise (fun _ _ _ _ hst hts => lexLe_antisymm hst hts) (List.pairwise_insertionSort Precedes ps)
      (List.pairwise_insertionSort Precedes qs)

/-- Receipts of one request do not tell two orders of a tree apart. -/
theorem artifactReceipt_congr {content content' : RepositoryContent} (h : content.Same content')
    (request : PublicRepositoryFields) : artifactReceipt py request content = artifactReceipt py request content' := by
  have htext : evidenceText py request.repository content = evidenceText py request.repository content' := by
    rw [evidenceText, evidenceText, h.branch, h.licence, sortedPaths_eq_iff.mpr h.paths]
  have hany : ∀ p : Str → Bool, content.paths.any p = content'.paths.any p := fun p => h.paths.any_eq
  rw [artifactReceipt, artifactReceipt, htext, h.branch, h.licence, hany, hany, hany, hany]

/-- The text behind a digest, piece by piece. -/
theorem evidenceText_eq (repository : Str) (content : RepositoryContent) : evidenceText py repository content =
    lit "\x7b\"repository\":" ++ (asciiStr repository ++ (lit ",\"branch\":" ++ (asciiStr content.branch ++
      (lit ",\"licence\":" ++ (asciiStr content.licence ++ (lit ",\"paths\":" ++
        (ensureAscii (compact py.floatRepr (.arr ((sortedPaths content.paths).map .str))) ++ lit "\x7d"))))))) := by
  have htext : evidenceText py repository content =
      ensureAscii (lit "\x7b\"repository\":" ++ (dumpsStr repository ++ (lit ",\"branch\":" ++ (dumpsStr content.branch ++
        (lit ",\"licence\":" ++ (dumpsStr content.licence ++ (lit ",\"paths\":" ++
          (compact py.floatRepr (.arr ((sortedPaths content.paths).map .str)) ++ lit "\x7d")))))))) := by
    rw [evidenceText]
    simp only [compact, compactFields, strings, List.append_assoc, List.cons_append]
    rfl
  rw [htext]
  simp only [ensureAscii_append]
  rfl

/-- The text behind a digest determines the repository and what is kept of it, up to the order of the paths. -/
theorem evidenceText_eq_iff {repository repository' : Str} {content content' : RepositoryContent}
    (hrepository : Python.Unpaired repository) (hrepository' : Python.Unpaired repository')
    (hcontent : content.Unpaired) (hcontent' : content'.Unpaired) :
    evidenceText py repository content = evidenceText py repository' content' ↔
      repository = repository' ∧ content.Same content' := by
  constructor
  · intro h
    rw [evidenceText_eq, evidenceText_eq, List.append_cancel_left_eq] at h
    obtain ⟨hname, h⟩ := eq_of_asciiStr hrepository hrepository' h
    obtain ⟨hbranch, h⟩ := eq_of_asciiStr hcontent.branch hcontent'.branch (List.append_cancel_left h)
    obtain ⟨hlicence, h⟩ := eq_of_asciiStr hcontent.licence hcontent'.licence (List.append_cancel_left h)
    have hsorted : ∀ {c : RepositoryContent}, c.Unpaired → ∀ path ∈ sortedPaths c.paths, Python.Unpaired path :=
      fun hc path hpath => hc.paths path ((List.perm_insertionSort Precedes _).subset hpath)
    obtain ⟨hpaths, -⟩ := eq_of_asciiArray (hsorted hcontent) (hsorted hcontent') (List.append_cancel_left h)
    exact ⟨hname, hbranch, hlicence, sortedPaths_eq_iff.mp hpaths⟩
  · rintro ⟨rfl, h⟩
    rw [evidenceText, evidenceText, h.branch, h.licence, sortedPaths_eq_iff.mpr h.paths]

/-! ## Names -/

/-- The characters of names and branches. -/
theorem repositoryChar_bounds {c : ℕ} (h : (isRepositoryChar c || decide (c = 0x2F)) = true) : 0x2D ≤ c ∧ c ≤ 0x7A := by
  have hdecide : ∀ c ∈ List.range 0x80, (isRepositoryChar c || decide (c = 0x2F)) = true → 0x2D ≤ c ∧ c ≤ 0x7A := by
    decide +kernel
  refine hdecide c (List.mem_range.mpr ?_) h
  by_contra hlarge
  simp only [isRepositoryChar, isLetter, isDigit, lit, Bool.or_eq_true, Bool.and_eq_true, decide_eq_true_eq] at h
  simp at h
  omega

/-- The name of a repository is that of its owner, a slash and its own. -/
theorem exists_of_isRepositoryName {s : Str} (h : isRepositoryName s = true) : ∃ owner name, s = owner ++ 0x2F :: name ∧
    (owner ≠ [] ∧ ∀ c ∈ owner, isRepositoryChar c = true) ∧ name ≠ [] ∧ ∀ c ∈ name, isRepositoryChar c = true := by
  have hjoin : [0x2F].intercalate (s.splitOnP (· = 0x2F)) = s := List.intercalate_splitOn 0x2F
  have hspans : ∀ {most : ℕ} {part : Str}, spans 1 most isRepositoryChar part = true →
      part ≠ [] ∧ ∀ c ∈ part, isRepositoryChar c = true := by
    intro most part hpart
    simp only [spans, Bool.and_eq_true, decide_eq_true_eq, List.all_eq_true] at hpart
    exact ⟨List.ne_nil_of_length_pos hpart.1.1, hpart.2⟩
  unfold isRepositoryName at h
  split at h
  · next owner name hparts =>
    rw [Bool.and_eq_true] at h
    rw [hparts] at hjoin
    exact ⟨owner, name, hjoin.symm.trans (by simp [List.intercalate]), hspans h.1, hspans h.2⟩
  · cases h

theorem startsWith_append (word s : Str) : startsWith word (word ++ s) = true := by
  rw [startsWith, after?_eq_some_iff.mpr rfl]
  rfl

theorem isRepository_of_name {s : Str} (h : isRepositoryName s = true) : isRepository s = true := by
  obtain ⟨owner, name, rfl, ⟨howner, hownerChars⟩, hname, hnameChars⟩ := exists_of_isRepositoryName h
  have hslash : dropPlus isRepositoryChar (owner ++ 0x2F :: name) = some (0x2F :: name) :=
    dropPlus_append howner hownerChars fun c hc => by
      rw [← Option.some.inj hc]
      decide
  have hrest : dropPlus isRepositoryChar (name ++ []) = some [] := dropPlus_append hname hnameChars (by simp)
  rw [List.append_nil] at hrest
  simp only [isRepository, hslash, Option.bind_eq_bind, Option.bind_some, decide_eq_true_eq]
  exact hrest

/-- A text of these characters has an encoding and can be stored. -/
theorem plain_of_repositoryChars {s : Str} (h : ∀ c ∈ s, (isRepositoryChar c || decide (c = 0x2F)) = true) :
    Encodable s ∧ storable s = true := by
  refine ⟨fun c hc => isSome_utf8Char_iff.mpr ?_, List.all_eq_true.mpr fun c hc => ?_⟩
  · have := repositoryChar_bounds (h c hc)
    omega
  · have := repositoryChar_bounds (h c hc)
    simp only [Bool.and_eq_true, decide_eq_true_eq, Bool.not_eq_true', Bool.and_eq_false_iff, decide_eq_false_iff_not]
    omega

theorem plain_of_name {s : Str} (h : isRepositoryName s = true) : Encodable s ∧ storable s = true := by
  obtain ⟨owner, name, rfl, ⟨-, hownerChars⟩, -, hnameChars⟩ := exists_of_isRepositoryName h
  refine plain_of_repositoryChars fun c hc => ?_
  rw [Bool.or_eq_true]
  rcases List.mem_append.mp hc with hc | hc
  · exact .inl (hownerChars c hc)
  · rcases List.mem_cons.mp hc with rfl | hc
    · exact .inr (decide_eq_true rfl)
    · exact .inl (hnameChars c hc)

theorem PublicRepositoryRequest.checked (request : PublicRepositoryRequest) :
    isDigest request.sourceKey = true ∧ isRepositoryName request.repository = true := by
  have hall := (require_eq_ok_iff _).mp request.accepted
  exact ⟨hall _ List.mem_cons_self, hall _ (List.mem_cons_of_mem _ (List.mem_cons_of_mem _ List.mem_cons_self))⟩

theorem PublicRepositoryRequest.unpaired (request : PublicRepositoryRequest) : Unpaired request.repository := by
  have happend := Unpaired.encodable_append (plain_of_name request.checked.2).1 .nil
  rwa [List.append_nil] at happend

/-- Two accepted verifications: the texts behind their digests are the same exactly if they are of one repository and
keep the same of it, whatever order its tree came in, and then their receipts say the same for their claims. -/
theorem evidence_identifies (hfolding : KeepsPoints folding)
    (h : verifyPublicRepository py folding transport request = .ok receipt)
    (h' : verifyPublicRepository py folding transport' request' = .ok receipt') :
    ∃ content content', (∃ metadata tree, Shown py folding transport request.repository content metadata tree) ∧
      (∃ metadata tree, Shown py folding transport' request'.repository content' metadata tree) ∧
      receipt.evidenceSha256 = sha256 (evidenceText py request.repository content) ∧
      receipt'.evidenceSha256 = sha256 (evidenceText py request'.repository content') ∧
      (evidenceText py request.repository content = evidenceText py request'.repository content' ↔
        request.repository = request'.repository ∧ content.Same content') ∧
      (request.repository = request'.repository → content.Same content' →
        receipt' = { receipt with sourceKey := request'.sourceKey, claimId := request'.claimId }) := by
  obtain ⟨content, metadata, tree, hshown, rfl⟩ := verifyPublicRepository_eq_ok_iff.mp h
  obtain ⟨content', metadata', tree', hshown', rfl⟩ := verifyPublicRepository_eq_ok_iff.mp h'
  refine ⟨content, content', ⟨metadata, tree, hshown⟩, ⟨metadata', tree', hshown'⟩, rfl, rfl, ?_, fun hname hsame => ?_⟩
  · exact evidenceText_eq_iff request.unpaired request'.unpaired (hshown.unpaired hfolding) (hshown'.unpaired hfolding)
  · rw [← artifactReceipt_congr hsame, artifactReceipt, artifactReceipt, hname]

/-- One repository twice, its tree in another order and letter case. -/
theorem evidence_identifies_shuffled :
    ∃ receipt receipt' content content', Sample.verified Sample.tree = .ok receipt ∧
      Sample.verified Sample.shuffledTree = .ok receipt' ∧
      (evidenceText Sample.site.host.py (lit "lab/memory") content = evidenceText Sample.site.host.py (lit "lab/memory") content' ↔
        content.Same content') := by
  obtain ⟨receipt, hreceipt⟩ := Sample.exists_receipt List.mem_cons_self
  obtain ⟨receipt', hreceipt'⟩ := Sample.exists_receipt (.tail _ List.mem_cons_self)
  obtain ⟨content, content', -, -, -, -, hiff, -⟩ := evidence_identifies keepsPoints_ascii hreceipt hreceipt'
  exact ⟨receipt, receipt', content, content', hreceipt, hreceipt', hiff.trans (and_iff_right rfl)⟩

end NeuroLab.Research
