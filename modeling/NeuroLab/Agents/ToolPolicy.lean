import NeuroLab.Python.Paths
import NeuroLab.Python.Interpreter
import NeuroLab.Python.Text

/-!
# The tool policy and the paths it lets through

A call is checked against the contract of its tool before any tool runs. A fixture path is
one file name. A repository path may hold dots and slashes in any order behind its first
character, `..` segments among them, so the directory it starts with is not always the
directory it names.
-/

namespace NeuroLab.Agents

open Python

/-! ## Contracts -/

/-- `ToolContract`. -/
structure ToolContract where
  name : Str
  required : List Str
  allowed : List Str

/-- `CONTRACTS`. -/
def contracts : List ToolContract :=
  [⟨lit "test.docs.lookup", [lit "query"], [lit "query"]⟩,
    ⟨lit "test.fixture.read", [lit "path"], [lit "path"]⟩,
    ⟨lit "test.git.diff", [lit "base", lit "path"], [lit "base", lit "path"]⟩]

/-- `[a-z0-9]`. -/
def isPlain (c : ℕ) : Bool := (0x61 ≤ c && c ≤ 0x7A) || isDigit c

/-- `[a-z0-9]` and at most so many characters of a class. -/
def isPlainWord (most : ℕ) (p : ℕ → Bool) : Str → Bool
  | [] => false
  | c :: rest => isPlain c && spans 0 most p rest

/-- `^fixtures/[a-z0-9][a-z0-9_-]{0,63}\.md$`. -/
def isFixturePath (path : Str) : Bool :=
  let file := path.drop 9
  let stem := file.take (file.length - 3)
  decide (path.take 9 = lit "fixtures/") && decide (file.drop (file.length - 3) = lit ".md") &&
    isPlainWord 63 (fun c => isPlain c || c ∈ lit "_-") stem

/-- The directories of `_REPOSITORY_PATH`. -/
def directories : List Str := [lit "src", lit "tests", lit "docs"]

/-- `_REPOSITORY_PATH`: a directory, and perhaps a slash, `[a-z0-9]` and at most 255 of `[a-z0-9_./]` and `-`. -/
def isRepositoryPath (path : Str) : Bool :=
  decide (path.takeWhile (· ≠ 0x2F) ∈ directories) &&
    match path.dropWhile (· ≠ 0x2F) with
    | [] => true
    | _ :: rest => isPlainWord 255 (fun c => isPlain c || c ∈ lit "_/.-") rest

/-- `normalized[key]`, where there is one. -/
def argument? (normalized : List (Str × Str)) (key : Str) : Option Str :=
  (normalized.find? fun f => f.1 = key).map Prod.snd

/-- The checks of the normalized arguments. -/
def checkNormalized (name : Str) (normalized : List (Str × Str)) : Except Str Unit :=
  if name = lit "test.docs.lookup" ∧ ¬ ∃ query ∈ argument? normalized (lit "query"), 1 ≤ query.length ∧ query.length ≤ 500 then
    .error (lit "query length is outside policy")
  else if name = lit "test.fixture.read" ∧ ¬ ∃ path ∈ argument? normalized (lit "path"), isFixturePath path = true then
    .error (lit "fixture path is outside allowlist")
  else if name = lit "test.git.diff" ∧ (argument? normalized (lit "base") ≠ some (lit "HEAD") ∨
      ¬ ∃ path ∈ argument? normalized (lit "path"), isRepositoryPath path = true) then
    .error (lit "git diff request is outside allowlist")
  else .ok ()

/-- `validate_tool_call`, or the text of its `McpPolicyError`. -/
def validateToolCall (name : Str) (arguments : Json) : Except Str (List (Str × Str)) :=
  match contracts.find? fun contract => contract.name = name with
  | none => .error (lit "tool is not allowlisted")
  | some contract =>
    match arguments with
    | .obj fields =>
      let keys := fields.map Prod.fst
      if !contract.required.all (· ∈ keys) then .error (lit "required argument is missing")
      else if !keys.all (· ∈ contract.allowed) then .error (lit "unknown argument is forbidden")
      else match fields.mapM fun f => match f.2 with
          | .str value => some (f.1, strip isSpace value)
          | _ => none with
        | none => .error (lit "arguments must be strings")
        | some normalized =>
          match checkNormalized name normalized with
          | .error message => .error message
          | .ok () => .ok normalized
    | _ => .error (lit "arguments must be an object")

/-- `mark_untrusted_result`. -/
def markUntrustedResult (content : Str) : List (Str × Json) :=
  [(lit "content", .str content), (lit "trusted", .bool false), (lit "origin", .str (lit "test-mcp"))]

/-! ## Servers -/

/-- `REPOSITORY_ROOT`. -/
def repositoryRoot : Str := lit "/repository"

/-- The command of `_git_diff`. -/
def gitCommand (path : Str) : List Str :=
  [lit "/usr/bin/git", lit "-c", lit "safe.directory=/repository", lit "-C", repositoryRoot, lit "diff",
    lit "--no-ext-diff", lit "--no-textconv", lit "--unified=3", lit "HEAD", lit "--", path]

/-- `_git_diff`, by what a command returns and prints, if it runs and ends in time. -/
def gitDiff (execute : List Str → Option (ℤ × Str)) (path : Str) : Option Str :=
  match execute (gitCommand path) with
  | none => none
  | some (returncode, stdout) => if returncode ≠ 0 then none else some stdout

/-- `FIXTURE_ROOT`, resolved. -/
def fixtureRoot : List Str := [lit "fixtures"]

/-- `_fixture_path`, where no segment is a symbolic link. -/
def fixturePath (isFile : List Str → Bool) (requestedPath : Str) : Option (List Str) :=
  let relative := if requestedPath.take 9 = lit "fixtures/" then requestedPath.drop 9 else requestedPath
  let candidate := resolve true (joinPath fixtureRoot relative)
  if !fixtureRoot.isPrefixOf candidate || !isFile candidate then none else some candidate

/-- `_call_tool` of the Git server: `none` for a blocked call. -/
def gitCallTool (execute : List Str → Option (ℤ × Str)) (name : Str) (arguments : Json) :
    Except PyExc (Option (List (Str × Json))) :=
  match validateToolCall name arguments with
  | .error _ => .ok none
  | .ok normalized =>
    match argument? normalized (lit "path") with
    | none => .error .key
    | some path => .ok ((gitDiff execute path).map markUntrustedResult)

/-- `_call_tool` of the fixture server: `none` for a blocked call. -/
def fixtureCallTool (isFile : List Str → Bool) (readText : List Str → Except PyExc Str) (name : Str) (arguments : Json) :
    Except PyExc (Option (List (Str × Json))) :=
  match validateToolCall name arguments with
  | .error _ => .ok none
  | .ok normalized =>
    match argument? normalized (lit "path") with
    | none => .error .key
    | some path =>
      match fixturePath isFile path with
      | none => .ok none
      | some fixture =>
        match readText fixture with
        | .error exc => .error exc
        | .ok content => .ok (some (markUntrustedResult content))

/-! ## What is confined -/

variable {name : Str} {arguments : Json} {normalized : List (Str × Str)} {path : Str}

theorem checkNormalized_of_validate (h : validateToolCall name arguments = .ok normalized) :
    checkNormalized name normalized = .ok () := by
  unfold validateToolCall at h
  split at h
  · cases h
  · split at h
    · simp only at h
      split at h
      · cases h
      · split at h
        · cases h
        · split at h
          · cases h
          next found _ =>
            split at h
            · cases h
            next hcheck =>
              cases h
              exact hcheck
    · cases h

/-- What an accepted call of the Git tool asks for. -/
theorem git_argument (h : validateToolCall (lit "test.git.diff") arguments = .ok normalized) :
    argument? normalized (lit "base") = some (lit "HEAD") ∧
      ∃ path, argument? normalized (lit "path") = some path ∧ isRepositoryPath path = true := by
  have hcheck := checkNormalized_of_validate h
  have hnames : lit "test.git.diff" ≠ lit "test.docs.lookup" ∧ lit "test.git.diff" ≠ lit "test.fixture.read" := by decide
  simp only [checkNormalized, hnames.1, hnames.2, false_and, if_false, true_and] at hcheck
  split at hcheck
  · cases hcheck
  next haccepted =>
    rw [not_or, not_not, not_not] at haccepted
    exact haccepted

/-- What an accepted call of the fixture tool asks for. -/
theorem fixture_argument (h : validateToolCall (lit "test.fixture.read") arguments = .ok normalized) :
    ∃ path, argument? normalized (lit "path") = some path ∧ isFixturePath path = true := by
  have hcheck := checkNormalized_of_validate h
  have hnames : lit "test.fixture.read" ≠ lit "test.docs.lookup" ∧ lit "test.fixture.read" ≠ lit "test.git.diff" := by
    decide
  simp only [checkNormalized, hnames.1, hnames.2, false_and, if_false, true_and] at hcheck
  split at hcheck
  · cases hcheck
  next haccepted => exact not_not.mp haccepted

/-- A fixture path is one file name. -/
theorem file_of_isFixturePath (h : isFixturePath path = true) :
    ∃ file, path = lit "fixtures/" ++ file ∧ isEntry file = true ∧ ∀ c ∈ file, c ≠ 0x2F := by
  simp only [isFixturePath, Bool.and_eq_true, decide_eq_true_eq] at h
  obtain ⟨⟨hroot, hsuffix⟩, hstem⟩ := h
  have hpath : path = lit "fixtures/" ++ path.drop 9 := by rw [← hroot, List.take_append_drop]
  generalize path.drop 9 = file at hpath hsuffix hstem
  have hfile : file = file.take (file.length - 3) ++ lit ".md" := by rw [← hsuffix, List.take_append_drop]
  generalize file.take (file.length - 3) = stem at hfile hstem
  refine ⟨file, hpath, ?_, ?_⟩
  · cases stem with
    | nil => cases hstem
    | cons c rest =>
      have hlength : 3 < file.length := by
        rw [hfile]
        simp [lit]
      have hidle : isIdle file = false := by
        rw [isIdle, Bool.or_eq_false_iff, decide_eq_false_iff_not, decide_eq_false_iff_not]
        constructor <;> rintro rfl <;> simp [lit] at hlength
      have hup : isUp file = false := by
        rw [isUp, decide_eq_false_iff_not]
        rintro rfl
        simp [lit] at hlength
      rw [isEntry, hidle, hup]
      rfl
  · have hplain : ∀ c, isPlain c = true → c ≠ 0x2F := by
      rintro c hc rfl
      cases hc
    rw [hfile]
    intro c hc
    rcases List.mem_append.mp hc with hc | hc
    · cases stem with
      | nil => cases hc
      | cons d rest =>
        simp only [isPlainWord, spans, Bool.and_eq_true, List.all_eq_true, Bool.or_eq_true, decide_eq_true_eq] at hstem
        rcases List.mem_cons.mp hc with rfl | hc
        · exact hplain _ hstem.1
        · rcases hstem.2.2 c hc with hc | hc
          · exact hplain c hc
          · have hmarks : ∀ c ∈ lit "_-", c ≠ 0x2F := by decide
            exact hmarks c hc
    · have hsuffix : ∀ c ∈ lit ".md", c ≠ 0x2F := by decide
      exact hsuffix c hc

/-- A fixture path resolves to a file that lies directly in the root. -/
theorem fixturePath_of_isFixturePath (h : isFixturePath path = true) {isFile : List Str → Bool} {candidate : List Str}
    (hcandidate : fixturePath isFile path = some candidate) : ∃ file, candidate = fixtureRoot ++ [file] := by
  obtain ⟨file, rfl, hentry, hfile⟩ := file_of_isFixturePath h
  have hrelative : (if (lit "fixtures/" ++ file).take 9 = lit "fixtures/" then (lit "fixtures/" ++ file).drop 9
      else lit "fixtures/" ++ file) = file := rfl
  have hsegments : segmentsOf file = [file] := List.splitOnP_eq_singleton fun c hc => by simpa using hfile c hc
  have hjoin : joinPath fixtureRoot file = fixtureRoot ++ [file] := by
    rw [joinPath, hsegments, if_neg]
    intro hhead
    exact hfile _ (List.mem_of_mem_head? hhead) rfl
  have hresolve : resolve true (fixtureRoot ++ [file]) = fixtureRoot ++ [file] := by
    have hroot : fixtureRoot.foldl (pushSegment true) [] = fixtureRoot := by decide
    rw [resolve, List.foldl_append, hroot, List.foldl_cons, List.foldl_nil, pushSegment_entry hentry]
    rfl
  unfold fixturePath at hcandidate
  simp only [hrelative, hjoin, hresolve] at hcandidate
  split at hcandidate
  · cases hcandidate
  · exact ⟨file, (Option.some.inj hcandidate).symm⟩

/-- What the Git server answers is what the command of an accepted call printed, marked as untrusted. -/
theorem gitCallTool_eq_ok {execute : List Str → Option (ℤ × Str)} {result : List (Str × Json)}
    (h : gitCallTool execute name arguments = .ok (some result)) :
    ∃ normalized path stdout, validateToolCall name arguments = .ok normalized ∧
      argument? normalized (lit "path") = some path ∧ execute (gitCommand path) = some (0, stdout) ∧
      result = markUntrustedResult stdout := by
  unfold gitCallTool at h
  split at h
  · cases h
  next normalized hvalid =>
  split at h
  · cases h
  next path hpath =>
  obtain ⟨stdout, hdiff, rfl⟩ := Option.map_eq_some_iff.mp (Except.ok.inj h)
  unfold gitDiff at hdiff
  split at hdiff
  · cases hdiff
  next returncode printed hexecute =>
  split at hdiff
  · cases hdiff
  next hcode =>
  cases hdiff
  exact ⟨normalized, path, stdout, hvalid, hpath, not_not.mp hcode ▸ hexecute, rfl⟩

/-- What the fixture server answers is the text of a file directly in its root, marked as untrusted. -/
theorem fixtureCallTool_eq_ok {isFile : List Str → Bool} {readText : List Str → Except PyExc Str}
    {result : List (Str × Json)} (h : fixtureCallTool isFile readText (lit "test.fixture.read") arguments = .ok (some result)) :
    ∃ file content, readText (fixtureRoot ++ [file]) = .ok content ∧ result = markUntrustedResult content := by
  unfold fixtureCallTool at h
  split at h
  · cases h
  next normalized hvalid =>
  obtain ⟨path, hpath, haccepted⟩ := fixture_argument hvalid
  rw [hpath] at h
  simp only at h
  split at h
  · cases h
  next fixture hfixture =>
  obtain ⟨file, rfl⟩ := fixturePath_of_isFixturePath haccepted hfixture
  split at h
  · cases h
  next content hcontent =>
  cases h
  exact ⟨file, content, hcontent, rfl⟩

/-- What an accepted call of this tool reaches: the Git tool a path under the directories, after resolution, the
fixture tool a file directly in its root. -/
def Confined (name : Str) (normalized : List (Str × Str)) : Prop :=
  (name = lit "test.git.diff" → ∃ path, argument? normalized (lit "path") = some path ∧
    ∃ directory ∈ directories, (normpath path).head? = some directory) ∧
  (name = lit "test.fixture.read" → ∃ path, argument? normalized (lit "path") = some path ∧
    ∀ isFile candidate, fixturePath isFile path = some candidate → ∃ file, candidate = fixtureRoot ++ [file])

/-- One of the directories stands at the root of the repository at some place of the path: before it the `..` are as
many as the names, and no stretch from the start or from there has more `..` than names. -/
def ComesDown (path : Str) : Prop :=
  ∃ before directory after, segmentsOf path = before ++ directory :: after ∧ directory ∈ directories ∧
    ups before = downs before ∧ StaysUnder 0 before ∧ StaysUnder 0 after

theorem comesDown_iff : ComesDown path ↔ ∃ directory ∈ directories, (normpath path).head? = some directory := by
  have hentries : ∀ directory ∈ directories, isEntry directory = true := by decide
  constructor
  · rintro ⟨before, directory, after, hpath, hmem, hbefore⟩
    exact ⟨directory, hmem, (head?_resolve_iff (hentries _ hmem)).mpr ⟨before, after, hpath, hbefore⟩⟩
  · rintro ⟨directory, hmem, hhead⟩
    obtain ⟨before, after, hpath, hbefore⟩ := (head?_resolve_iff (hentries _ hmem)).mp hhead
    exact ⟨before, directory, after, hpath, hmem, hbefore⟩

/-- An accepted call is confined exactly if it is not for the Git tool or its path comes down into a directory. -/
theorem confined_iff (h : validateToolCall name arguments = .ok normalized) :
    Confined name normalized ↔
      (name = lit "test.git.diff" → ∀ path, argument? normalized (lit "path") = some path → ComesDown path) := by
  constructor
  · rintro ⟨hgit, -⟩ rfl path hpath
    obtain ⟨path', hpath', hdirectory⟩ := hgit rfl
    cases hpath.symm.trans hpath'
    exact comesDown_iff.mpr hdirectory
  · intro hcomes
    constructor
    · rintro rfl
      obtain ⟨-, path, hpath, -⟩ := git_argument h
      exact ⟨path, hpath, comesDown_iff.mp (hcomes rfl path hpath)⟩
    · rintro rfl
      obtain ⟨path, hpath, haccepted⟩ := fixture_argument h
      exact ⟨path, hpath, fun isFile candidate hcandidate => fixturePath_of_isFixturePath haccepted hcandidate⟩

theorem confined_sample :
    let arguments : Json := .obj [(lit "base", .str (lit "HEAD")), (lit "path", .str (lit " src/a/../b.py "))]
    ∃ normalized, validateToolCall (lit "test.git.diff") arguments = .ok normalized ∧
      Confined (lit "test.git.diff") normalized := by
  intro arguments
  have hvalid : validateToolCall (lit "test.git.diff") arguments =
      .ok [(lit "base", lit "HEAD"), (lit "path", lit "src/a/../b.py")] := by decide +kernel
  refine ⟨_, hvalid, (confined_iff hvalid).mpr fun _ path hpath => ?_⟩
  have hpath' : argument? [(lit "base", lit "HEAD"), (lit "path", lit "src/a/../b.py")] (lit "path") =
      some (lit "src/a/../b.py") := by decide
  cases hpath'.symm.trans hpath
  refine comesDown_iff.mpr ⟨lit "src", by decide, ?_⟩
  decide +kernel

/-- An accepted path leaves its directory and the repository's three directories. -/
theorem unconfined_path :
    let arguments : Json := .obj [(lit "base", .str (lit "HEAD")), (lit "path", .str (lit "src/a/../../secret.txt"))]
    ∃ normalized, validateToolCall (lit "test.git.diff") arguments = .ok normalized ∧
      argument? normalized (lit "path") = some (lit "src/a/../../secret.txt") ∧
      normpath (lit "src/a/../../secret.txt") = [lit "secret.txt"] ∧
      (gitCommand (lit "src/a/../../secret.txt")).getLast? = some (lit "src/a/../../secret.txt") ∧
      ¬ Confined (lit "test.git.diff") normalized := by
  intro arguments
  have hvalid : validateToolCall (lit "test.git.diff") arguments =
      .ok [(lit "base", lit "HEAD"), (lit "path", lit "src/a/../../secret.txt")] := by decide +kernel
  have hpath : argument? [(lit "base", lit "HEAD"), (lit "path", lit "src/a/../../secret.txt")] (lit "path") =
      some (lit "src/a/../../secret.txt") := by decide
  have hresolved : normpath (lit "src/a/../../secret.txt") = [lit "secret.txt"] := by decide +kernel
  refine ⟨_, hvalid, hpath, hresolved, rfl, fun hconfined => ?_⟩
  obtain ⟨path, hpath', directory, hmem, hhead⟩ := hconfined.1 rfl
  cases hpath.symm.trans hpath'
  rw [hresolved] at hhead
  have houtside : ∀ directory ∈ directories, some (lit "secret.txt") ≠ some directory := by decide
  exact houtside directory hmem hhead

end NeuroLab.Agents
