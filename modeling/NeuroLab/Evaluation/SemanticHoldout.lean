import NeuroLab.Evaluation.Evolution
import NeuroLab.Python.Conversions
import NeuroLab.Python.Digests
import NeuroLab.Python.Escapes

/-!
# The sealed semantic holdout

An isolated evaluator signs one aggregate over the sealed cases. The signature is taken over
the canonical JSON of nine fields on its side, and over the canonical JSON of the record that
was read back on ours. A field that is read as another number than it was written as, an
integer as a float, changes the text that the signature is compared for.
-/

namespace NeuroLab.Evaluation

open Python Research

/-! ## The evaluator -/

/-- `SEMANTIC_HOLDOUT_VERSION`. -/
def semanticHoldoutVersion : Str := lit "semantic_holdout_v1"

/-- `SEMANTIC_HOLDOUT_CASE_IDS`. -/
def semanticHoldoutCaseIds : List Str :=
  (List.range' 1 20).map fun number => lit "sealed_semantic_" ++ [0x30 + number / 10, 0x30 + number % 10]

/-- `semantic_holdout_case_set_sha256`. -/
def semanticHoldoutCaseSetSha256 : Str := sha256 ([0x0A].intercalate semanticHoldoutCaseIds)

/-- `semantic_holdout_definition_sha256`. -/
def semanticHoldoutDefinitionSha256 : Str :=
  sha256 ([0x0A].intercalate
    [semanticHoldoutVersion, semanticHoldoutCaseSetSha256, lit "signed_aggregate_receipt_only",
      lit "no_prompts_outputs_rationales_or_per_case_results"])

/-- `semantic_holdout_evaluator`. -/
def semanticHoldoutEvaluator : EvaluatorVersion where
  evaluatorId :=
    uuidText (uuid5 namespaceUrl
      (lit "neurolab/response_quality/" ++ semanticHoldoutVersion ++ lit "/" ++ semanticHoldoutDefinitionSha256))
  kind := .responseQuality
  version := semanticHoldoutVersion
  proposedBy := lit "semantic_holdout_policy"
  definitionSha256 := semanticHoldoutDefinitionSha256
  frozenCaseIds := semanticHoldoutCaseIds
  activeCaseIds := semanticHoldoutCaseIds
  state := .shadow
  parentEvaluatorId := none
  identified := ⟨isUuid_uuidText _, rfl⟩
  described := ⟨by decide +kernel, by decide +kernel, isDigest_sha256 _⟩
  cases_distinct := by decide +kernel
  cases_named := by decide +kernel
  frozen_active := List.Subset.refl _

/-! ## Receipts -/

/-- What the gate raises: a `SemanticHoldoutError`, or an exception it does not catch. -/
inductive HoldoutError
  | semanticHoldout (message : Str)
  | uncaught (exc : PyExc)
deriving DecidableEq

/-- The nine fields under the signature. -/
structure UnsignedPayload where
  judgeId : Str
  judgeModelSha256 : Str
  candidateArtifactSha256 : Str
  candidateModelSha256 : Str
  caseSetSha256 : Str
  evaluatedCaseCount : Number
  primaryQuality : Number
  safetyQuality : Number
  calibrationQuality : Number
deriving DecidableEq

/-- The checks of a receipt with these fields and this signature. -/
def UnsignedPayload.checks (p : UnsignedPayload) (signatureSha256 : Str) : List (Bool × Str) :=
  [(isName p.judgeId, lit "judge identifier is malformed"),
    ([p.judgeModelSha256, p.candidateArtifactSha256, p.candidateModelSha256, p.caseSetSha256, signatureSha256].all
      isDigest, lit "receipt hash is malformed"),
    (decide (p.caseSetSha256 = semanticHoldoutCaseSetSha256), lit "receipt does not use the sealed semantic holdout"),
    (p.evaluatedCaseCount.equals semanticHoldoutCaseIds.length, lit "receipt must cover every sealed semantic case"),
    (decide (p.judgeModelSha256 ≠ p.candidateModelSha256), lit "judge model must be distinct from candidate model"),
    ([p.primaryQuality, p.safetyQuality, p.calibrationQuality].all Number.inUnit, lit "receipt metrics are malformed")]

/-- `SignedSemanticHoldoutReceipt`, with the checks of its constructor. -/
structure SignedSemanticHoldoutReceipt extends UnsignedPayload where
  signatureSha256 : Str
  accepted : ∀ check ∈ toUnsignedPayload.checks signatureSha256, check.1 = true

/-- The constructor, or the text of its `SemanticHoldoutError`. -/
def SignedSemanticHoldoutReceipt.make (p : UnsignedPayload) (signatureSha256 : Str) :
    Except Str SignedSemanticHoldoutReceipt :=
  match h : require (p.checks signatureSha256) with
  | .ok () => .ok ⟨p, signatureSha256, (require_eq_ok_iff _).mp h⟩
  | .error message => .error message

/-- `unsigned_payload`. -/
def UnsignedPayload.members (p : UnsignedPayload) : List (Str × Json) :=
  [(lit "candidate_artifact_sha256", .str p.candidateArtifactSha256),
    (lit "candidate_model_sha256", .str p.candidateModelSha256),
    (lit "calibration_quality", p.calibrationQuality.json),
    (lit "case_set_sha256", .str p.caseSetSha256),
    (lit "evaluated_case_count", p.evaluatedCaseCount.json),
    (lit "judge_id", .str p.judgeId),
    (lit "judge_model_sha256", .str p.judgeModelSha256),
    (lit "primary_quality", p.primaryQuality.json),
    (lit "safety_quality", p.safetyQuality.json)]

/-- The names that `from_json` expects. -/
def receiptNames : List Str :=
  [lit "judge_id", lit "judge_model_sha256", lit "candidate_artifact_sha256", lit "candidate_model_sha256",
    lit "case_set_sha256", lit "evaluated_case_count", lit "primary_quality", lit "safety_quality",
    lit "calibration_quality", lit "signature_sha256"]

/-- The conversions of `from_json`, and the constructor. -/
def readReceipt (py : Interpreter) (value : List (Str × Json)) : Except PyExc SignedSemanticHoldoutReceipt := do
  let item (name : String) : Json := getD value (lit name) .null
  let judgeId ← py.str (item "judge_id")
  let judgeModelSha256 ← py.str (item "judge_model_sha256")
  let candidateArtifactSha256 ← py.str (item "candidate_artifact_sha256")
  let candidateModelSha256 ← py.str (item "candidate_model_sha256")
  let caseSetSha256 ← py.str (item "case_set_sha256")
  let evaluatedCaseCount ← toInt (item "evaluated_case_count")
  let primaryQuality ← toFloat (item "primary_quality")
  let safetyQuality ← toFloat (item "safety_quality")
  let calibrationQuality ← toFloat (item "calibration_quality")
  let signatureSha256 ← py.str (item "signature_sha256")
  match SignedSemanticHoldoutReceipt.make
      { judgeId, judgeModelSha256, candidateArtifactSha256, candidateModelSha256, caseSetSha256,
        evaluatedCaseCount := .int evaluatedCaseCount, primaryQuality, safetyQuality, calibrationQuality }
      signatureSha256 with
  | .ok receipt => .ok receipt
  | .error _ => .error (.value (lit "SemanticHoldoutError"))

/-- `from_json`. -/
def fromJson (py : Interpreter) (raw : Str) : Except HoldoutError SignedSemanticHoldoutReceipt :=
  match Python.loads py.recursionLimit raw with
  | .error .valueError => .error (.semanticHoldout (lit "receipt is not JSON"))
  | .error .digitLimit => .error (.uncaught (.value (lit "ValueError")))
  | .error .recursionError => .error (.uncaught .recursion)
  | .ok (.obj value) =>
    if value.all (fun field => field.1 ∈ receiptNames) && receiptNames.all (· ∈ value.map Prod.fst) then
      match readReceipt py value with
      | .ok receipt => .ok receipt
      | .error exc =>
        .error (if exc.isKey || exc.isTypeOrValue then .semanticHoldout (lit "receipt fields are malformed")
          else .uncaught exc)
    else .error (.semanticHoldout (lit "receipt fields are not allowlisted"))
  | .ok _ => .error (.semanticHoldout (lit "receipt fields are not allowlisted"))

/-! ## Signatures -/

/-- The bytes that are signed. -/
def canonical (payload : List (Str × Json)) : List ℕ := ensureAscii (dumpsSorted PyFloat.text (.obj payload))

/-- `sign_semantic_holdout_payload`, under the keyed hash of the key's bytes and a message. -/
def signSemanticHoldoutPayload (hmac : List ℕ → List ℕ → Str) (payload : List (Str × Json)) (signingKey : Str) :
    Except HoldoutError Str :=
  if signingKey.isEmpty then .error (.semanticHoldout (lit "sealed receipt signing key is required"))
  else match utf8 signingKey with
    | some key => .ok (hmac key (canonical payload))
    | none => .error (.uncaught (.value (lit "UnicodeEncodeError")))

/-- What the checks of the constructor say. -/
structure UnsignedPayload.Accepted (p : UnsignedPayload) (signatureSha256 : Str) : Prop where
  judge : isName p.judgeId = true
  digests : ∀ digest ∈ [p.judgeModelSha256, p.candidateArtifactSha256, p.candidateModelSha256, p.caseSetSha256,
    signatureSha256], isDigest digest = true
  caseSet : p.caseSetSha256 = semanticHoldoutCaseSetSha256
  count : p.evaluatedCaseCount.equals 20 = true
  independent : p.judgeModelSha256 ≠ p.candidateModelSha256
  metrics : ∀ metric ∈ [p.primaryQuality, p.safetyQuality, p.calibrationQuality], metric.inUnit = true

theorem UnsignedPayload.forall_checks_iff {p : UnsignedPayload} {signatureSha256 : Str} :
    (∀ check ∈ p.checks signatureSha256, check.1 = true) ↔ p.Accepted signatureSha256 := by
  have hcount : (semanticHoldoutCaseIds.length : ℤ) = 20 := by decide
  rw [checks, hcount]
  simp only [List.forall_mem_cons, List.all_eq_true, decide_eq_true_eq, List.not_mem_nil, false_implies, implies_true,
    and_true]
  constructor
  · rintro ⟨h₁, h₂, h₃, h₄, h₅, h₆⟩
    exact ⟨h₁, by simpa using h₂, h₃, h₄, h₅, by simpa using h₆⟩
  · intro h
    exact ⟨h.judge, by simpa using h.digests, h.caseSet, h.count, h.independent, by simpa using h.metrics⟩

theorem SignedSemanticHoldoutReceipt.checked (r : SignedSemanticHoldoutReceipt) : r.Accepted r.signatureSha256 :=
  UnsignedPayload.forall_checks_iff.mp r.accepted

theorem SignedSemanticHoldoutReceipt.run_metrics (r : SignedSemanticHoldoutReceipt) :
    1 ≤ r.evaluatedCaseCount.value.floor ∧
      [r.primaryQuality.value, r.safetyQuality.value, r.calibrationQuality.value, 1].all isQuality = true := by
  have hunit : ∀ x : Number, x.inUnit = true → isQuality x.value = true := fun x hx => by
    rw [Number.inUnit, Bool.and_assoc, Bool.and_eq_true] at hx
    exact hx.2
  have hcount := r.checked.count
  rw [Number.equals, Bool.and_eq_true, decide_eq_true_eq] at hcount
  refine ⟨by rw [hcount.2]; decide +kernel, ?_⟩
  simp only [List.all_cons, List.all_nil, Bool.and_true, Bool.and_eq_true]
  exact ⟨hunit _ (r.checked.metrics _ (by simp)), hunit _ (r.checked.metrics _ (by simp)),
    hunit _ (r.checked.metrics _ (by simp)), by decide +kernel⟩

theorem SignedSemanticHoldoutReceipt.run_identified (r : SignedSemanticHoldoutReceipt) (id : Uuid) :
    isUuid (uuidText id) = true ∧ isUuid semanticHoldoutEvaluator.evaluatorId = true ∧ isDigest r.caseSetSha256 = true :=
  ⟨isUuid_uuidText id, isUuid_uuidText _, r.checked.digests _ (by simp)⟩

/-- The run that a receipt stands for. -/
def SignedSemanticHoldoutReceipt.run (r : SignedSemanticHoldoutReceipt) (id : Uuid) : EvaluationRun where
  runId := uuidText id
  evaluatorId := semanticHoldoutEvaluator.evaluatorId
  cohortSha256 := r.caseSetSha256
  assessor := r.judgeId
  assessorRole := .independentEvaluator
  metrics :=
    { primaryQuality := r.primaryQuality.value
      safetyQuality := r.safetyQuality.value
      calibrationQuality := r.calibrationQuality.value
      costEfficiency := 1
      evaluatedCaseCount := r.evaluatedCaseCount.value.floor
      accepted := r.run_metrics }
  identified := r.run_identified id
  assessor_named := r.checked.judge

/-- `verified_semantic_holdout_run`, with the id that is drawn for the run. -/
def verifiedSemanticHoldoutRun (hmac : List ℕ → List ℕ → Str) (id : Uuid) (receipt : SignedSemanticHoldoutReceipt)
    (signingKey expectedCandidateArtifactSha256 expectedCandidateModelSha256 : Str) :
    Except HoldoutError EvaluationRun :=
  if receipt.candidateArtifactSha256 ≠ expectedCandidateArtifactSha256 then
    .error (.semanticHoldout (lit "receipt candidate artifact does not match the evaluated asset"))
  else if receipt.candidateModelSha256 ≠ expectedCandidateModelSha256 then
    .error (.semanticHoldout (lit "receipt candidate model does not match the evaluated model"))
  else match signSemanticHoldoutPayload hmac receipt.members signingKey with
    | .error e => .error e
    | .ok expectedSignature =>
      if receipt.signatureSha256 ≠ expectedSignature then .error (.semanticHoldout (lit "receipt signature is invalid"))
      else .ok (receipt.run id)

/-! ## The canonical text -/

variable {p p' : UnsignedPayload} {signature : Str}

theorem ascii_of_isDigest {s : Str} (h : isDigest s = true) : Ascii s := by
  intro c hc
  have hlower := (isLowerHex_excludes ((isDigest_iff.mp h).2 c hc)).1
  have hhex := (isDigest_iff.mp h).2 c hc
  simp only [isLowerHex, Bool.or_eq_true, Bool.and_eq_true, decide_eq_true_eq] at hhex
  omega

theorem ascii_of_isName {s : Str} (h : isName s = true) : Ascii s := by
  cases s with
  | nil => cases h
  | cons c s =>
    simp only [isName, spans, Bool.and_eq_true, List.all_eq_true, Bool.or_eq_true, decide_eq_true_eq] at h
    refine .cons (by omega) fun d hd => ?_
    rcases h.2.2 d hd with (hlower | hdigit) | hmark
    · omega
    · exact Ascii.of_digits (s := [d]) (by simpa using hdigit) d (List.mem_singleton_self d)
    · have hmarks : ∀ d ∈ lit "_-", d < 0x7F := by decide
      exact hmarks d hmark

theorem scalar_of_inUnit {x : Number} (h : x.inUnit = true) : Scalar x.json := by
  cases x with
  | int n => rcases Number.inUnit_int.mp h with rfl | rfl <;> exact .int (by decide)
  | double d => exact .double d
  | infinite negative => cases h
  | nan => cases h

theorem scalar_of_equals {x : Number} (h : x.equals 20 = true) : Scalar x.json := by
  cases x with
  | int n =>
    obtain rfl := Number.equals_int.mp h
    exact .int (by decide)
  | double d => exact .double d
  | infinite negative => cases h
  | nan => cases h

/-- The fields of an accepted receipt are scalars. -/
theorem UnsignedPayload.Accepted.flat (h : p.Accepted signature) : Flat p.members := by
  simp only [Flat, members, List.forall_mem_cons, List.not_mem_nil, false_implies, implies_true, and_true]
  exact ⟨.str _, .str _, scalar_of_inUnit (h.metrics _ (by simp)), .str _, scalar_of_equals h.count, .str _,
    .str _, scalar_of_inUnit (h.metrics _ (by simp)), scalar_of_inUnit (h.metrics _ (by simp))⟩

theorem UnsignedPayload.Accepted.ascii (h : p.Accepted signature) : ∀ f ∈ p.members, AsciiMember f := by
  have hnames : ∀ f ∈ p.members, Ascii f.1 := by
    simp only [members, List.forall_mem_cons, List.not_mem_nil, false_implies, implies_true, and_true]
    unfold Ascii
    decide
  have hnumber : ∀ (x : Number) s, x.json = .str s → Ascii s := fun x s hs => by cases x <;> cases hs
  have htext : ∀ s t, Ascii s → Json.str s = .str t → Ascii t := fun s t hs heq => Json.str.inj heq ▸ hs
  have hdigest : ∀ s ∈ [p.judgeModelSha256, p.candidateArtifactSha256, p.candidateModelSha256, p.caseSetSha256, signature],
      Ascii s := fun s hs => ascii_of_isDigest (h.digests s hs)
  refine fun f hf => ⟨hnames f hf, ?_⟩
  revert f
  simp only [members, List.forall_mem_cons, List.not_mem_nil, false_implies, implies_true, and_true]
  exact ⟨fun t => htext _ t (hdigest _ (by simp)), fun t => htext _ t (hdigest _ (by simp)), hnumber _,
    fun t => htext _ t (hdigest _ (by simp)), hnumber _, fun t => htext _ t (ascii_of_isName h.judge),
    fun t => htext _ t (hdigest _ (by simp)), hnumber _, hnumber _⟩

/-- The names of the members are distinct. -/
theorem UnsignedPayload.names_nodup (p : UnsignedPayload) : (p.members.map Prod.fst).Nodup := by
  change ([lit "candidate_artifact_sha256", lit "candidate_model_sha256", lit "calibration_quality",
    lit "case_set_sha256", lit "evaluated_case_count", lit "judge_id", lit "judge_model_sha256", lit "primary_quality",
    lit "safety_quality"] : List Str).Nodup
  decide

/-- The signed bytes do not depend on the order of the members. -/
theorem canonical_congr (h : p.Accepted signature) {payload : List (Str × Json)} (hperm : payload.Perm p.members) :
    canonical payload = canonical p.members := by
  rw [canonical, canonical, dumpsSorted_congr h.flat hperm.symm p.names_nodup]

/-- The signed bytes determine the fields. -/
theorem eq_of_canonical {signature' : Str} (h : p.Accepted signature) (h' : p'.Accepted signature')
    (hbytes : canonical p.members = canonical p'.members) : p = p' := by
  rw [canonical, canonical, ensureAscii_of_ascii (h.flat.ascii_dumpsSorted h.ascii),
    ensureAscii_of_ascii (h'.flat.ascii_dumpsSorted h'.ascii)] at hbytes
  have hmembers := eq_of_perm_of_keys (perm_of_dumpsSorted h.flat h'.flat hbytes) rfl p.names_nodup
  simp only [UnsignedPayload.members, List.cons.injEq, Prod.mk.injEq, Json.str.injEq, Number.json_injective.eq_iff,
    true_and, and_true] at hmembers
  obtain ⟨hartifact, hmodel, hcalibration, hcaseSet, hcount, hjudge, hjudgeModel, hprimary, hsafety⟩ := hmembers
  cases p
  simp only at *
  subst_vars
  rfl

/-! ## Verified runs -/

variable {hmac : List ℕ → List ℕ → Str} {id : Uuid} {receipt receipt' : SignedSemanticHoldoutReceipt}
  {signingKey artifact model : Str} {run : EvaluationRun}

theorem signSemanticHoldoutPayload_eq_ok_iff {payload : List (Str × Json)} :
    signSemanticHoldoutPayload hmac payload signingKey = .ok signature ↔
      signingKey ≠ [] ∧ ∃ key, utf8 signingKey = some key ∧ hmac key (canonical payload) = signature := by
  unfold signSemanticHoldoutPayload
  cases signingKey with
  | nil => simp
  | cons c s => cases utf8 (c :: s) <;> simp

theorem verifiedSemanticHoldoutRun_eq_ok_iff :
    verifiedSemanticHoldoutRun hmac id receipt signingKey artifact model = .ok run ↔
      receipt.candidateArtifactSha256 = artifact ∧ receipt.candidateModelSha256 = model ∧
        signSemanticHoldoutPayload hmac receipt.members signingKey = .ok receipt.signatureSha256 ∧ receipt.run id = run := by
  unfold verifiedSemanticHoldoutRun
  split
  next hartifact => simp [hartifact]
  next hartifact =>
    split
    next hmodel => simp [hmodel]
    next hmodel =>
      rw [not_not] at hartifact hmodel
      cases signSemanticHoldoutPayload hmac receipt.members signingKey with
      | error e => simp
      | ok expected =>
        by_cases hsignature : receipt.signatureSha256 = expected
        · simp [hartifact, hmodel, hsignature]
        · simp [hsignature, Ne.symm hsignature]

/-- A constructor that returns took the fields and the signature. -/
theorem SignedSemanticHoldoutReceipt.make_eq_ok (h : SignedSemanticHoldoutReceipt.make p signature = .ok receipt) :
    receipt.toUnsignedPayload = p ∧ receipt.signatureSha256 = signature := by
  unfold SignedSemanticHoldoutReceipt.make at h
  split at h
  · cases h
    exact ⟨rfl, rfl⟩
  · cases h

theorem SignedSemanticHoldoutReceipt.exists_make (h : p.Accepted signature) :
    ∃ receipt, SignedSemanticHoldoutReceipt.make p signature = .ok receipt := by
  have hchecks := (require_eq_ok_iff _).mpr (UnsignedPayload.forall_checks_iff.mpr h)
  unfold SignedSemanticHoldoutReceipt.make
  split
  · exact ⟨_, rfl⟩
  next message herror => cases hchecks.symm.trans herror

/-- Accepted receipts with one signature have the same fields. -/
theorem fields_of_signature {signingKey : Str} (hinjective : ∀ key, utf8 signingKey = some key → Function.Injective (hmac key))
    (h : signSemanticHoldoutPayload hmac receipt.members signingKey = .ok receipt.signatureSha256)
    (h' : signSemanticHoldoutPayload hmac receipt'.members signingKey = .ok receipt'.signatureSha256)
    (hsignature : receipt.signatureSha256 = receipt'.signatureSha256) :
    receipt.toUnsignedPayload = receipt'.toUnsignedPayload := by
  obtain ⟨-, key, hkey, hmac₁⟩ := signSemanticHoldoutPayload_eq_ok_iff.mp h
  obtain ⟨-, key', hkey', hmac₂⟩ := signSemanticHoldoutPayload_eq_ok_iff.mp h'
  cases hkey.symm.trans hkey'
  exact eq_of_canonical receipt.checked receipt'.checked
    (hinjective key hkey (hmac₁.trans (hsignature.trans hmac₂.symm)))

namespace Sample

def half : Double := ⟨false, 2 ^ 52, 1021, by decide, by decide⟩

/-- A payload with this primary quality. -/
def payload (primaryQuality : Number) : UnsignedPayload where
  judgeId := lit "external_semantic_judge"
  judgeModelSha256 := List.replicate 64 0x61
  candidateArtifactSha256 := List.replicate 64 0x62
  candidateModelSha256 := List.replicate 64 0x63
  caseSetSha256 := semanticHoldoutCaseSetSha256
  evaluatedCaseCount := .int 20
  primaryQuality
  safetyQuality := .double half
  calibrationQuality := .double half

theorem half_inUnit : (Number.double half).inUnit = true := by decide +kernel

theorem payload_accepted {primaryQuality : Number} (hquality : primaryQuality.inUnit = true)
    (hsignature : isDigest signature = true) : (payload primaryQuality).Accepted signature where
  judge := show isName (lit "external_semantic_judge") = true by decide
  digests := by
    have hletters : ∀ c ∈ [0x61, 0x62, 0x63], isDigest (List.replicate 64 c) = true := by decide
    simp only [List.forall_mem_cons, List.not_mem_nil, false_implies, implies_true, and_true] at hletters ⊢
    exact ⟨hletters.1, hletters.2.1, hletters.2.2, isDigest_sha256 _, hsignature⟩
  caseSet := rfl
  count := Number.equals_int.mpr rfl
  independent := show List.replicate 64 0x61 ≠ List.replicate 64 0x63 by decide
  metrics := by
    simp only [List.forall_mem_cons, List.not_mem_nil, false_implies, implies_true, and_true]
    exact ⟨hquality, half_inUnit, half_inUnit⟩

end Sample

/-- Under a key for which the keyed hash is injective, two verified receipts with one signature have the same fields;
other fields under the signature of a verified receipt are refused; and a verified run was judged by another model
than the candidate's, over the whole sealed case set, for the expected candidate. -/
theorem signature_binds_receipt {signingKey : Str}
    (hinjective : ∀ key, utf8 signingKey = some key → Function.Injective (hmac key)) :
    (∀ receipt receipt' id id' artifact artifact' model model' run run',
        verifiedSemanticHoldoutRun hmac id receipt signingKey artifact model = .ok run →
        verifiedSemanticHoldoutRun hmac id' receipt' signingKey artifact' model' = .ok run' →
        receipt.signatureSha256 = receipt'.signatureSha256 → receipt.toUnsignedPayload = receipt'.toUnsignedPayload) ∧
      (∀ receipt id artifact model run, verifiedSemanticHoldoutRun hmac id receipt signingKey artifact model = .ok run →
        ∀ p : UnsignedPayload, p ≠ receipt.toUnsignedPayload →
          ∀ receipt', SignedSemanticHoldoutReceipt.make p receipt.signatureSha256 = .ok receipt' →
            ∀ id' artifact' model', ∃ e, verifiedSemanticHoldoutRun hmac id' receipt' signingKey artifact' model' = .error e) ∧
      ∀ receipt id artifact model run, verifiedSemanticHoldoutRun hmac id receipt signingKey artifact model = .ok run →
        receipt.judgeModelSha256 ≠ receipt.candidateModelSha256 ∧
          receipt.caseSetSha256 = semanticHoldoutCaseSetSha256 ∧ run.cohortSha256 = semanticHoldoutCaseSetSha256 ∧
          receipt.evaluatedCaseCount.value = semanticHoldoutCaseIds.length ∧
          run.metrics.evaluatedCaseCount = semanticHoldoutCaseIds.length ∧
          receipt.candidateArtifactSha256 = artifact ∧ receipt.candidateModelSha256 = model := by
  refine ⟨?_, ?_, ?_⟩
  · intro receipt receipt' id id' artifact artifact' model model' run run' h h'
    exact fields_of_signature hinjective (verifiedSemanticHoldoutRun_eq_ok_iff.mp h).2.2.1
      (verifiedSemanticHoldoutRun_eq_ok_iff.mp h').2.2.1
  · intro receipt id artifact model run h p hne receipt' hmake id' artifact' model'
    obtain ⟨hfields, hsignature⟩ := SignedSemanticHoldoutReceipt.make_eq_ok hmake
    cases h' : verifiedSemanticHoldoutRun hmac id' receipt' signingKey artifact' model' with
    | error e => exact ⟨e, rfl⟩
    | ok run' =>
      have hsame := fields_of_signature hinjective (verifiedSemanticHoldoutRun_eq_ok_iff.mp h').2.2.1
        (verifiedSemanticHoldoutRun_eq_ok_iff.mp h).2.2.1 hsignature
      exact absurd (hfields.symm.trans hsame) hne
  · intro receipt id artifact model run h
    obtain ⟨hartifact, hmodel, -, rfl⟩ := verifiedSemanticHoldoutRun_eq_ok_iff.mp h
    have hlength : semanticHoldoutCaseIds.length = 20 := by decide
    have hcount := (Number.equals_iff.mp receipt.checked.count).2
    refine ⟨receipt.checked.independent, receipt.checked.caseSet, receipt.checked.caseSet, ?_, ?_, hartifact, hmodel⟩
    · rw [hcount, hlength]
      rfl
    · change receipt.evaluatedCaseCount.value.floor = _
      rw [hcount, hlength]
      rfl

theorem signature_binds_receipt_sample :
    let payload := Sample.payload (.double Sample.half)
    let bytes := canonical payload.members
    let hmac := fun key => Equiv.swap bytes (hmacSha256 key bytes)
    (∀ key, hmac key bytes = hmacSha256 key bytes) ∧
      ∃ receipt run, verifiedSemanticHoldoutRun (fun key => hmac key) 0 receipt (lit "key") payload.candidateArtifactSha256
          payload.candidateModelSha256 = .ok run ∧
        ∀ p : UnsignedPayload, p ≠ receipt.toUnsignedPayload →
          ∀ receipt', SignedSemanticHoldoutReceipt.make p receipt.signatureSha256 = .ok receipt' →
            ∀ id' artifact' model', ∃ e,
              verifiedSemanticHoldoutRun (fun key => hmac key) id' receipt' (lit "key") artifact' model' = .error e := by
  intro payload bytes hmac
  have hagrees : ∀ key, hmac key bytes = hmacSha256 key bytes := fun key => Equiv.swap_apply_left _ _
  have hkey : utf8 (lit "key") = some (lit "key") := by decide
  obtain ⟨receipt, hreceipt⟩ := SignedSemanticHoldoutReceipt.exists_make
    (Sample.payload_accepted Sample.half_inUnit (isDigest_hmacSha256 (lit "key") bytes))
  obtain ⟨hfields, hsignature⟩ := SignedSemanticHoldoutReceipt.make_eq_ok hreceipt
  have hverified : verifiedSemanticHoldoutRun (fun key => hmac key) 0 receipt (lit "key")
      payload.candidateArtifactSha256 payload.candidateModelSha256 = .ok (receipt.run 0) := by
    refine verifiedSemanticHoldoutRun_eq_ok_iff.mpr ⟨by rw [hfields], by rw [hfields], ?_, rfl⟩
    refine signSemanticHoldoutPayload_eq_ok_iff.mpr ⟨by decide, _, hkey, ?_⟩
    rw [hfields, hsignature]
    exact hagrees _
  exact ⟨hagrees, receipt, _, hverified,
    (signature_binds_receipt fun key _ => (hmac key).injective).2.1 receipt 0 _ _ _ hverified⟩

/-! ## Receipts read back -/

/-- The integers of the unit interval are doubles. -/
theorem exists_ofInt {n : ℤ} (h : n = 0 ∨ n = 1) : ∃ d, Double.ofInt n = some d ∧ d.value = n := by
  have hends : ∀ n ∈ [(0 : ℤ), 1], (Double.ofInt n).map Double.value = some (n : ℚ) := by decide +kernel
  have hmem : n ∈ [(0 : ℤ), 1] := by simpa using h
  exact Option.map_eq_some_iff.mp (hends n hmem)

/-- A number of the unit interval is a double of the same value when it is read as a float. -/
theorem asFloat_of_inUnit {x : Number} (h : x.inUnit = true) :
    ∃ d, x.asFloat = .double d ∧ d.value = x.value := by
  cases x with
  | int n =>
    obtain ⟨d, hd, hvalue⟩ := exists_ofInt (Number.inUnit_int.mp h)
    exact ⟨d, Number.asFloat_int hd, hvalue⟩
  | double d => exact ⟨d, rfl, rfl⟩
  | infinite negative => cases h
  | nan => cases h

theorem value_asFloat {x : Number} (h : x.inUnit = true) : x.asFloat.value = x.value := by
  obtain ⟨d, hd, hvalue⟩ := asFloat_of_inUnit h
  rw [hd, ← hvalue]
  rfl

theorem inUnit_asFloat {x : Number} (h : x.inUnit = true) : x.asFloat.inUnit = true := by
  obtain ⟨d, hd, hvalue⟩ := asFloat_of_inUnit h
  have hunit := (Number.inUnit_iff.mp h).2
  rw [← hvalue] at hunit
  rw [hd]
  exact Number.inUnit_iff.mpr ⟨rfl, hunit⟩

/-- `float` of the value that was written for a number of the unit interval. -/
theorem toFloat_of_denotes {x : Number} (h : x.inUnit = true) {v : Json} (hv : Denotes v x.json) :
    toFloat v = .ok x.asFloat := by
  cases x with
  | int n =>
    obtain ⟨d, hd, -⟩ := exists_ofInt (Number.inUnit_int.mp h)
    have hint : v = .int n := Denotes.eq_int hv
    rw [hint, Number.asFloat_int hd]
    exact floatOfInt_eq hd
  | double d =>
    obtain ⟨y, rfl, hy⟩ := hv.eq_float
    rw [toFloat, number_of_double hy]
    rfl
  | infinite negative => cases h
  | nan => cases h

/-- `int` of the value that was written for a positive natural number. -/
theorem toInt_of_denotes {x : Number} {n : ℕ} (hn : 0 < n) (h : x.equals n = true) {v : Json} (hv : Denotes v x.json) :
    toInt v = .ok n := by
  cases x with
  | int m =>
    rw [hv.eq_int, toInt, Number.equals_int.mp h]
  | double d =>
    obtain ⟨y, rfl, hy⟩ := hv.eq_float
    have hvalue : d.value = n := (Number.equals_iff.mp h).2.trans (Int.cast_natCast n)
    have htruncate := truncate_eq hn hvalue
    cases y with
    | finite negative mantissa exponent => 
      rw [toInt]
      simp only [hy, htruncate]
      nofun
    | infinite negative => cases hy
    | nan => cases hy
  | infinite negative => cases h
  | nan => cases h

/-- The fields as `from_json` reads them back. -/
def UnsignedPayload.read (p : UnsignedPayload) : UnsignedPayload :=
  { p with
    evaluatedCaseCount := .int 20
    primaryQuality := p.primaryQuality.asFloat
    safetyQuality := p.safetyQuality.asFloat
    calibrationQuality := p.calibrationQuality.asFloat }

/-- The numbers are of the types that the receipt declares: the count an integer, the metrics floats. -/
structure UnsignedPayload.Typed (p : UnsignedPayload) : Prop where
  count : ∃ n, p.evaluatedCaseCount = .int n
  metrics : ∀ metric ∈ [p.primaryQuality, p.safetyQuality, p.calibrationQuality], ∃ d, metric = .double d

theorem asFloat_eq_iff {x : Number} (h : x.inUnit = true) : x.asFloat = x ↔ ∃ d, x = .double d := by
  constructor
  · intro hsame
    obtain ⟨d, hd, -⟩ := asFloat_of_inUnit h
    exact ⟨d, hsame.symm.trans hd⟩
  · rintro ⟨d, rfl⟩
    rfl

/-- Exactly the payloads of the declared types are read back as they were. -/
theorem UnsignedPayload.Accepted.read_eq_iff (h : p.Accepted signature) : p.read = p ↔ p.Typed := by
  have hmetrics := h.metrics
  simp only [List.forall_mem_cons, List.not_mem_nil, false_implies, implies_true, and_true] at hmetrics
  obtain ⟨hprimary, hsafety, hcalibration⟩ := hmetrics
  constructor
  · intro hread
    have hcount : .int 20 = p.evaluatedCaseCount := congrArg evaluatedCaseCount hread
    refine ⟨⟨20, hcount.symm⟩, ?_⟩
    simp only [List.forall_mem_cons, List.not_mem_nil, false_implies, implies_true, and_true]
    exact ⟨(asFloat_eq_iff hprimary).mp (congrArg primaryQuality hread),
      (asFloat_eq_iff hsafety).mp (congrArg safetyQuality hread),
      (asFloat_eq_iff hcalibration).mp (congrArg calibrationQuality hread)⟩
  · rintro ⟨⟨n, hn⟩, hdoubles⟩
    simp only [List.forall_mem_cons, List.not_mem_nil, false_implies, implies_true, and_true] at hdoubles
    have hcount := h.count
    rw [hn, Number.equals_int] at hcount
    rw [read, (asFloat_eq_iff hprimary).mpr hdoubles.1, (asFloat_eq_iff hsafety).mpr hdoubles.2.1,
      (asFloat_eq_iff hcalibration).mpr hdoubles.2.2, ← hcount, ← hn]

theorem UnsignedPayload.Accepted.read (h : p.Accepted signature) : p.read.Accepted signature where
  judge := h.judge
  digests := h.digests
  caseSet := h.caseSet
  count := Number.equals_int.mpr rfl
  independent := h.independent
  metrics := by
    have hmetrics := h.metrics
    simp only [List.forall_mem_cons, List.not_mem_nil, false_implies, implies_true, and_true] at hmetrics ⊢
    exact ⟨inUnit_asFloat hmetrics.1, inUnit_asFloat hmetrics.2.1, inUnit_asFloat hmetrics.2.2⟩

/-- The members that are shipped. -/
def UnsignedPayload.signed (p : UnsignedPayload) (signature : Str) : List (Str × Json) :=
  p.members ++ [(lit "signature_sha256", .str signature)]

theorem UnsignedPayload.signed_names (p : UnsignedPayload) (signature : Str) :
    ((p.signed signature).map Prod.fst).Perm receiptNames ∧ receiptNames.Nodup := by
  have hnames : (p.signed signature).map Prod.fst =
      [lit "candidate_artifact_sha256", lit "candidate_model_sha256", lit "calibration_quality", lit "case_set_sha256",
        lit "evaluated_case_count", lit "judge_id", lit "judge_model_sha256", lit "primary_quality",
        lit "safety_quality", lit "signature_sha256"] := rfl
  rw [hnames]
  decide

/-- `json.dumps` ships a receipt. -/
theorem UnsignedPayload.Accepted.encodes_signed (h : p.Accepted signature) (py : Interpreter) :
    Encodes py.recursionLimit (dumps PyFloat.text (.obj (p.signed signature))) (p.signed signature) := by
  have hflat : Flat (p.signed signature) :=
    List.forall_mem_append.mpr ⟨h.flat, by simpa [List.forall_mem_cons] using Scalar.str signature⟩
  have hkeys := (p.signed_names signature).1.nodup_iff.mpr (p.signed_names signature).2
  have hlimit : 0 < py.recursionLimit := lt_of_lt_of_le (by decide) py.leastNesting_le_recursionLimit
  exact encodes_dumps hflat (List.cons_ne_nil _ _) hkeys hlimit

/-- A shipped receipt is read back, its numbers converted. -/
theorem readReceipt_of_encodes (py : Interpreter) {gs fs : List (Str × Json)} (h : p.Accepted signature) (hread : ReadAs gs fs)
    (hperm : fs.Perm (p.signed signature)) :
    ∃ receipt, readReceipt py gs = .ok receipt ∧ SignedSemanticHoldoutReceipt.make p.read signature = .ok receipt := by
  obtain ⟨receipt, hmake⟩ := SignedSemanticHoldoutReceipt.exists_make h.read
  have hkeys : (fs.map Prod.fst).Nodup :=
    ((hperm.map _).trans (p.signed_names signature).1).nodup_iff.mpr (p.signed_names signature).2
  have hmetrics := h.metrics
  simp only [List.forall_mem_cons, List.not_mem_nil, false_implies, implies_true, and_true] at hmetrics
  obtain ⟨hprimary, hsafety, hcalibration⟩ := hmetrics
  have hitem : ∀ k v, (k, v) ∈ p.signed signature → Denotes (getD gs k .null) v := by
    intro k v hmem
    obtain ⟨v', hv', hdenotes⟩ := hread.get? hkeys (hperm.mem_iff.mpr hmem)
    rwa [getD, hv']
  have hstr : ∀ k s, (k, Json.str s) ∈ p.signed signature → py.str (getD gs k .null) = .ok s := by
    intro k s hmem
    rw [(hitem k _ hmem).eq_str, Interpreter.str_str]
  have hcount : toInt (getD gs (lit "evaluated_case_count") .null) = .ok 20 :=
    toInt_of_denotes (by decide : 0 < 20) h.count (hitem _ _ (by simp [UnsignedPayload.signed, UnsignedPayload.members]))
  have hfloat : ∀ k x, (k, Number.json x) ∈ p.signed signature → x.inUnit = true →
      toFloat (getD gs k .null) = .ok x.asFloat := fun k x hmem hx => toFloat_of_denotes hx (hitem k _ hmem)
  refine ⟨receipt, ?_, hmake⟩
  have hjudge := hstr (lit "judge_id") p.judgeId (by simp [UnsignedPayload.signed, UnsignedPayload.members])
  have hjudgeModel := hstr (lit "judge_model_sha256") p.judgeModelSha256
    (by simp [UnsignedPayload.signed, UnsignedPayload.members])
  have hartifact := hstr (lit "candidate_artifact_sha256") p.candidateArtifactSha256
    (by simp [UnsignedPayload.signed, UnsignedPayload.members])
  have hmodel := hstr (lit "candidate_model_sha256") p.candidateModelSha256
    (by simp [UnsignedPayload.signed, UnsignedPayload.members])
  have hcaseSet := hstr (lit "case_set_sha256") p.caseSetSha256 (by simp [UnsignedPayload.signed, UnsignedPayload.members])
  have hsignature := hstr (lit "signature_sha256") signature (by simp [UnsignedPayload.signed, UnsignedPayload.members])
  have hprimary := hfloat (lit "primary_quality") p.primaryQuality
    (by simp [UnsignedPayload.signed, UnsignedPayload.members]) hprimary
  have hsafety := hfloat (lit "safety_quality") p.safetyQuality
    (by simp [UnsignedPayload.signed, UnsignedPayload.members]) hsafety
  have hcalibration := hfloat (lit "calibration_quality") p.calibrationQuality
    (by simp [UnsignedPayload.signed, UnsignedPayload.members]) hcalibration
  have hmake : SignedSemanticHoldoutReceipt.make
      { judgeId := p.judgeId, judgeModelSha256 := p.judgeModelSha256,
        candidateArtifactSha256 := p.candidateArtifactSha256, candidateModelSha256 := p.candidateModelSha256,
        caseSetSha256 := p.caseSetSha256, evaluatedCaseCount := .int 20, primaryQuality := p.primaryQuality.asFloat,
        safetyQuality := p.safetyQuality.asFloat, calibrationQuality := p.calibrationQuality.asFloat }
      signature = .ok receipt := hmake
  simp only [readReceipt, hjudge, hjudgeModel, hartifact, hmodel, hcaseSet, hsignature, hcount, hprimary, hsafety,
    hcalibration, hmake, bind, Except.bind]

theorem fromJson_of_encodes {py : Interpreter} {raw : Str} (h : p.Accepted signature)
    (hraw : Encodes py.recursionLimit raw (p.signed signature)) :
    ∃ receipt, fromJson py raw = .ok receipt ∧ SignedSemanticHoldoutReceipt.make p.read signature = .ok receipt := by
  obtain ⟨gs, fs, hloads, hread, hperm⟩ := hraw
  obtain ⟨receipt, hreceipt, hmake⟩ := readReceipt_of_encodes py h hread hperm
  have hnames : (gs.map Prod.fst).Perm receiptNames := by
    rw [hread.keys]
    exact (hperm.map _).trans (p.signed_names signature).1
  have hallowed : gs.all (fun field => field.1 ∈ receiptNames) = true :=
    List.all_eq_true.mpr fun field hfield =>
      decide_eq_true (hnames.mem_iff.mp (List.mem_map_of_mem hfield))
  have hcomplete : receiptNames.all (· ∈ gs.map Prod.fst) = true :=
    List.all_eq_true.mpr fun name hname => decide_eq_true (hnames.mem_iff.mpr hname)
  refine ⟨receipt, ?_, hmake⟩
  rw [fromJson, hloads]
  simp only [hallowed, hcomplete, Bool.and_self, if_true, hreceipt]

/-- For every key and every payload within the bounds, what the evaluator signs and ships verifies as a run with the same
metrics exactly when its numbers are of the declared types, or else two different texts have one HMAC. -/
theorem signed_receipt_verifies_iff {py : Interpreter} {payload : List (Str × Json)} {signingKey raw : Str} {id : Uuid}
    (hbounds : p.Accepted signature) (hpayload : payload.Perm p.members)
    (hsigned : signSemanticHoldoutPayload hmacSha256 payload signingKey = .ok signature)
    (hraw : Encodes py.recursionLimit raw (p.signed signature)) :
    (∃ receipt run, fromJson py raw = .ok receipt ∧
        verifiedSemanticHoldoutRun hmacSha256 id receipt signingKey p.candidateArtifactSha256 p.candidateModelSha256 =
          .ok run ∧
        run.metrics.primaryQuality = p.primaryQuality.value ∧ run.metrics.safetyQuality = p.safetyQuality.value ∧
        run.metrics.calibrationQuality = p.calibrationQuality.value ∧
        run.metrics.evaluatedCaseCount = p.evaluatedCaseCount.value) ↔
      p.Typed ∨ ∃ key, utf8 signingKey = some key ∧ canonical p.read.members ≠ canonical p.members ∧
        hmacSha256 key (canonical p.read.members) = hmacSha256 key (canonical p.members) := by
  obtain ⟨receipt, hjson, hmake⟩ := fromJson_of_encodes hbounds hraw
  obtain ⟨hfields, hsignature⟩ := SignedSemanticHoldoutReceipt.make_eq_ok hmake
  obtain ⟨hnonempty, key, hkey, hhmac⟩ := signSemanticHoldoutPayload_eq_ok_iff.mp hsigned
  rw [canonical_congr hbounds hpayload] at hhmac
  have hverified : ∀ run, verifiedSemanticHoldoutRun hmacSha256 id receipt signingKey p.candidateArtifactSha256
      p.candidateModelSha256 = .ok run ↔
        hmacSha256 key (canonical p.read.members) = hmacSha256 key (canonical p.members) ∧ receipt.run id = run := by
    intro run
    rw [verifiedSemanticHoldoutRun_eq_ok_iff, signSemanticHoldoutPayload_eq_ok_iff, hfields, hsignature, hhmac]
    constructor
    · rintro ⟨-, -, ⟨-, key', hkey', hsame⟩, hrun⟩
      cases hkey.symm.trans hkey'
      exact ⟨hsame, hrun⟩
    · rintro ⟨hsame, hrun⟩
      exact ⟨rfl, rfl, ⟨hnonempty, key, hkey, hsame⟩, hrun⟩
  have hsame : hmacSha256 key (canonical p.read.members) = hmacSha256 key (canonical p.members) ↔
      p.Typed ∨ ∃ key, utf8 signingKey = some key ∧ canonical p.read.members ≠ canonical p.members ∧
        hmacSha256 key (canonical p.read.members) = hmacSha256 key (canonical p.members) := by
    constructor
    · intro hsame
      by_cases htext : canonical p.read.members = canonical p.members
      · exact .inl (hbounds.read_eq_iff.mp (eq_of_canonical hbounds.read hbounds htext))
      · exact .inr ⟨key, hkey, htext, hsame⟩
    · rintro (htyped | ⟨key', hkey', -, hsame⟩)
      · rw [hbounds.read_eq_iff.mpr htyped]
      · cases hkey.symm.trans hkey'
        exact hsame
  rw [← hsame]
  constructor
  · rintro ⟨receipt', run, hreceipt', hrun, -⟩
    cases hjson.symm.trans hreceipt'
    exact ((hverified run).mp hrun).1
  · intro hequal
    have hmetrics := hbounds.metrics
    simp only [List.forall_mem_cons, List.not_mem_nil, false_implies, implies_true, and_true] at hmetrics
    have hcount : p.evaluatedCaseCount.value = 20 := (Number.equals_iff.mp hbounds.count).2
    refine ⟨receipt, receipt.run id, hjson, (hverified _).mpr ⟨hequal, rfl⟩, ?_, ?_, ?_, ?_⟩
    · exact (congrArg (·.primaryQuality.value) hfields).trans (value_asFloat hmetrics.1)
    · exact (congrArg (·.safetyQuality.value) hfields).trans (value_asFloat hmetrics.2.1)
    · exact (congrArg (·.calibrationQuality.value) hfields).trans (value_asFloat hmetrics.2.2)
    · rw [hcount]
      have hfloor : (receipt.run id).metrics.evaluatedCaseCount = p.read.evaluatedCaseCount.value.floor :=
        congrArg (·.evaluatedCaseCount.value.floor) hfields
      rw [hfloor]
      rfl

/-- The converse at the sample: its numbers are of the declared types. -/
theorem signed_receipt_verifies_sample :
    let p := Sample.payload (.double Sample.half)
    let signature := hmacSha256 (lit "key") (canonical p.members)
    p.Typed ∧ signSemanticHoldoutPayload hmacSha256 p.members (lit "key") = .ok signature ∧
      ∀ py : Interpreter, ∃ receipt run, fromJson py (dumps PyFloat.text (.obj (p.signed signature))) = .ok receipt ∧
        verifiedSemanticHoldoutRun hmacSha256 0 receipt (lit "key") p.candidateArtifactSha256 p.candidateModelSha256 =
          .ok run ∧
        run.metrics.primaryQuality = Sample.half.value := by
  intro p signature
  have hbounds : p.Accepted signature := Sample.payload_accepted Sample.half_inUnit (isDigest_hmacSha256 _ _)
  have htyped : p.Typed := ⟨⟨20, rfl⟩, by
    simp only [List.forall_mem_cons, List.not_mem_nil, false_implies, implies_true, and_true]
    exact ⟨⟨_, rfl⟩, ⟨_, rfl⟩, ⟨_, rfl⟩⟩⟩
  have hsigned : signSemanticHoldoutPayload hmacSha256 p.members (lit "key") = .ok signature :=
    signSemanticHoldoutPayload_eq_ok_iff.mpr ⟨by decide, lit "key", by decide, rfl⟩
  refine ⟨htyped, hsigned, fun py => ?_⟩
  have hraw := hbounds.encodes_signed py
  obtain ⟨receipt, run, hreceipt, hrun, hprimary, -⟩ :=
    (@signed_receipt_verifies_iff p signature py p.members (lit "key") _ 0 hbounds (.refl _) hsigned hraw).mpr (.inl htyped)
  exact ⟨receipt, run, hreceipt, hrun, hprimary⟩

/-- A primary quality that is given as the integer 1 is signed as `1` and checked as `1.0`. -/
theorem signed_receipt_fails_of_integer_metric :
    let p := Sample.payload (.int 1)
    let signature := hmacSha256 (lit "key") (canonical p.members)
    p.Accepted signature ∧ signSemanticHoldoutPayload hmacSha256 p.members (lit "key") = .ok signature ∧
      ∀ py : Interpreter, ∃ receipt, fromJson py (dumps PyFloat.text (.obj (p.signed signature))) = .ok receipt ∧
        ∀ id, verifiedSemanticHoldoutRun hmacSha256 id receipt (lit "key") p.candidateArtifactSha256
          p.candidateModelSha256 = .error (.semanticHoldout (lit "receipt signature is invalid")) := by
  intro p signature
  have hbounds : p.Accepted signature :=
    Sample.payload_accepted (Number.inUnit_int.mpr (.inr rfl)) (isDigest_hmacSha256 _ _)
  have hsigned : signSemanticHoldoutPayload hmacSha256 p.members (lit "key") = .ok signature :=
    signSemanticHoldoutPayload_eq_ok_iff.mpr ⟨by decide, lit "key", by decide, rfl⟩
  have hdiffer : signature ≠ hmacSha256 (lit "key") (canonical p.read.members) := by
    decide +kernel
  refine ⟨hbounds, hsigned, fun py => ?_⟩
  obtain ⟨receipt, hjson, hmake⟩ := fromJson_of_encodes hbounds (hbounds.encodes_signed py)
  obtain ⟨hfields, hsignature⟩ := SignedSemanticHoldoutReceipt.make_eq_ok hmake
  refine ⟨receipt, hjson, fun id => ?_⟩
  have hexpected : signSemanticHoldoutPayload hmacSha256 receipt.members (lit "key") =
      .ok (hmacSha256 (lit "key") (canonical p.read.members)) :=
    signSemanticHoldoutPayload_eq_ok_iff.mpr ⟨by decide, lit "key", by decide, by rw [hfields]⟩
  have hartifact : receipt.candidateArtifactSha256 = p.candidateArtifactSha256 := congrArg (·.candidateArtifactSha256) hfields
  have hmodel : receipt.candidateModelSha256 = p.candidateModelSha256 := congrArg (·.candidateModelSha256) hfields
  rw [verifiedSemanticHoldoutRun, if_neg (not_not.mpr hartifact), if_neg (not_not.mpr hmodel), hexpected]
  simp only [hsignature, hdiffer, ne_eq, not_false_eq_true, if_true]

end NeuroLab.Evaluation
