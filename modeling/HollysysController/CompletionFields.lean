import HollysysController.Json.Fields
import HollysysController.Models

/-! # The fields of a completion

`CompletionMetadata` as its class declares it: the types of the fields, the
models among them with their validators, and the record that the validator of
the stage contract looks at. -/

namespace HollysysController

open JsonSchema

/-! ## Patterns -/

/-- A literal, then `count` characters of a class. -/
def literalThen (lit : String) (count : Nat → Bool) (cls : Char → Bool) (s : String) : Bool :=
  let rest := s.toList.drop lit.length
  lit.toList.isPrefixOf s.toList && count rest.length && rest.all cls

def lowerHex (c : Char) : Bool := c.isDigit || ('a' ≤ c && c ≤ 'f')

def lowerAlnum (c : Char) : Bool := c.isDigit || c.isLower

def cardChar (c : Char) : Bool := c.isAlphanum || c == '_' || c == '-'

def runKeyPattern : Pattern := ⟨"^hollysys-[a-z0-9]\x7b20\x7d$", literalThen "hollysys-" (· == 20) lowerAlnum⟩

def sourceKeyPattern : Pattern := ⟨"^source-[a-z0-9]\x7b20\x7d$", literalThen "source-" (· == 20) lowerAlnum⟩

def runGenerationPattern : Pattern := ⟨"^[a-z0-9]\x7b20\x7d$", literalThen "" (· == 20) lowerAlnum⟩

def cardIdPattern : Pattern := ⟨"^t_[A-Za-z0-9_-]+$", literalThen "t_" (1 ≤ ·) cardChar⟩

def shaPattern : Pattern := ⟨"^[0-9a-f]\x7b40\x7d$", literalThen "" (· == 40) lowerHex⟩

def digestPattern : Pattern := ⟨"^[0-9a-f]\x7b64\x7d$", literalThen "" (· == 64) lowerHex⟩

def reviewerPattern : Pattern where
  text := "^id:[1-9][0-9]*$"
  holds s := literalThen "id:" (1 ≤ ·) (·.isDigit) s && (s.toList.drop 3).head? != some '0'

def errorCodePattern : Pattern :=
  ⟨"^[a-z0-9_]+$", literalThen "" (1 ≤ ·) fun c => lowerAlnum c || c == '_'⟩

/-! ## Enumerations -/

def stages : List Stage :=
  [.specWrite, .specReview, .planWrite, .planReview, .tasksWrite, .tasksReview, .implement, .test,
    .codeReview]

def workModes : List WorkMode := [.normal, .finalization]

def outcomes : List Outcome := [.pass, .fail, .cancelled]

def testDispositions : List TestDisposition := [.executed, .skippedUnavailable]

def baselineDispositions : List BaselineDisposition := [.source, .reviewed, .forcedAfterReviewLimit]

def dispositionText : BaselineDisposition → String
  | .source => "source"
  | .reviewed => "reviewed"
  | .forcedAfterReviewLimit => "forced_after_review_limit"

def gatePhases : List GatePhase :=
  [.implementationEntry, .implementationCompletion, .migrationExecution, .deploymentEntry,
    .releaseAcceptance]

def gatePhaseText : GatePhase → String
  | .implementationEntry => "implementation_entry"
  | .implementationCompletion => "implementation_completion"
  | .migrationExecution => "migration_execution"
  | .deploymentEntry => "deployment_entry"
  | .releaseAcceptance => "release_acceptance"

def gateDecisions : List GateDecision := [.approved, .rejected]

def gateDecisionText : GateDecision → String
  | .approved => "approved"
  | .rejected => "rejected"

def changeStrategies : List String := ["extend_existing", "modify_existing", "extend_and_modify"]

/-! ## Reading validated values -/

/-- The text of a field, stripped. -/
def textOf (j : Json) (key : String) : Option String :=
  match j.get key with
  | some (.str s) => some (JsonSchema.strip s)
  | _ => none

def textsOf (j : Json) (key : String) : List String :=
  match j.get key with
  | some (.arr xs) => xs.filterMap fun
    | .str s => some (JsonSchema.strip s)
    | _ => none
  | _ => []

def natOf (j : Json) (key : String) : Option Nat :=
  match j.get key with
  | some (.number q) => some q.num.toNat
  | _ => none

/-- The member of an enumeration that a field names. -/
def choiceOf {α : Type} (members : List α) (value : α → String) (j : Json) (key : String) :
    Option α :=
  match j.get key with
  | some (.str s) => members.find? (value · == s)
  | _ => none

/-- A nested model. -/
def modelOf {α : Type} (read : Json → α) (j : Json) (key : String) : Option α :=
  match j.get key with
  | some (.obj fields) => some (read (.obj fields))
  | _ => none

/-! ## The nested models -/

def required (name : String) (t : Ty) : String × Bool × Ty := (name, true, t)

def optional (name : String) (t : Ty) : String × Bool × Ty := (name, false, t)

/-- `ForcedAdvance`. -/
def forcedAdvanceModel : Ty :=
  .record
    [required "review_limit" (.atLeast 1),
     required "final_review_card_id" (.pattern cardIdPattern),
     required "final_review_url" .url,
     required "decision_url" .url,
     required "baseline_commit_sha" (.pattern shaPattern),
     required "artifact_paths" (.list 1 .text),
     required "artifact_digest" (.pattern digestPattern),
     required "key_decisions" (.list 1 .text),
     optional "unresolved_findings" (.list 0 .text),
     optional "residual_risks" (.list 0 .text)]
    fun _ => true

def readForcedAdvance (cardId : String → CardId) (j : Json) : ForcedAdvance where
  reviewLimit := (natOf j "review_limit").getD 0
  finalReviewCardId := cardId ((textOf j "final_review_card_id").getD "")
  finalReviewUrl := (textOf j "final_review_url").getD ""
  decisionUrl := (textOf j "decision_url").getD ""
  baselineCommitSha := (textOf j "baseline_commit_sha").getD ""
  artifactPaths := textsOf j "artifact_paths"
  artifactDigest := (textOf j "artifact_digest").getD ""
  keyDecisions := textsOf j "key_decisions"
  unresolvedFindings := textsOf j "unresolved_findings"
  residualRisks := textsOf j "residual_risks"

/-- `validate_repository_paths`. -/
def repositoryPathsOk (paths : List String) : Bool :=
  decide paths.Nodup && !paths.any unsafePath

/-- `RepositoryEvidence`. -/
def repositoryEvidenceModel : Ty :=
  .record
    [required "repository_base_sha" (.pattern shaPattern),
     required "inspected_paths" (.list 1 .nonEmpty),
     required "existing_capabilities" (.list 1 .nonEmpty),
     required "change_strategy" (.enum changeStrategies),
     required "reuse_decisions" (.list 1 .nonEmpty)]
    fun j => repositoryPathsOk (textsOf j "inspected_paths")

def readRepositoryEvidence (j : Json) : RepositoryEvidence where
  repositoryBaseSha := (textOf j "repository_base_sha").getD ""
  inspectedPaths := textsOf j "inspected_paths"

def readDeterministicCheck (j : Json) : DeterministicCheck where
  validator := (textOf j "validator").getD ""
  validatorVersion := (textOf j "validator_version").getD ""
  inputDigest := (textOf j "input_digest").getD ""
  resultDigest := (textOf j "result_digest").getD ""
  passed := match j.get "passed" with
    | some (.bool b) => b
    | _ => false
  errorCodes := textsOf j "error_codes"

/-- `validate_result`. -/
def resultOk (c : DeterministicCheck) : Bool :=
  !(c.passed && !c.errorCodes.isEmpty) && !(!c.passed && c.errorCodes.isEmpty) &&
    decide c.errorCodes.Nodup

/-- `DeterministicCheck`. -/
def deterministicCheckModel : Ty :=
  .record
    [required "validator" .nonEmpty,
     required "validator_version" .nonEmpty,
     required "input_digest" (.pattern digestPattern),
     required "passed" .boolean,
     required "error_codes" (.list 0 (.pattern errorCodePattern)),
     required "result_digest" (.pattern digestPattern)]
    fun j => resultOk (readDeterministicCheck j)

/-! ## The completion -/

/-- The fields of `CompletionMetadata`. -/
def completionFields : List (String × Bool × Ty) :=
  [required "protocol_version" (.literal "hollysys-controller/v4"),
   required "run_key" (.pattern runKeyPattern),
   required "source_key" (.pattern sourceKeyPattern),
   required "run_generation" (.pattern runGenerationPattern),
   required "context_digest" (.pattern digestPattern),
   required "stage" (.enum (stages.map (·.value))),
   required "iteration" (.atLeast 1),
   optional "mode" (.enum (workModes.map (·.value))),
   required "outcome" (.enum (outcomes.map (·.value))),
   required "project_id" (.above 0),
   required "project_path" .text,
   required "checkout" .text,
   required "worktree" .text,
   required "branch" .text,
   required "target_branch" .text,
   required "prd_path" .text,
   required "prd_commit_sha" (.pattern shaPattern),
   required "prd_blob_sha" (.pattern shaPattern),
   required "prd_mr_url" .url,
   required "kanban_card_id" (.pattern cardIdPattern),
   optional "mr_iid" (.nullable (.above 0)),
   optional "mr_url" (.nullable .url),
   required "head_before_sha" (.nullable (.pattern shaPattern)),
   optional "head_sha" (.nullable (.pattern shaPattern)),
   optional "artifact_commit_sha" (.nullable (.pattern shaPattern)),
   optional "artifact_digest" (.nullable (.pattern digestPattern)),
   optional "artifact_paths" (.list 0 .text),
   optional "baseline_disposition" (.nullable (.enum (baselineDispositions.map dispositionText))),
   optional "forced_advance" (.nullable forcedAdvanceModel),
   optional "repository_evidence" (.nullable repositoryEvidenceModel),
   optional "test_disposition" (.nullable (.enum (testDispositions.map (·.value)))),
   optional "skip_reason" (.nullable .nonEmpty),
   optional "verification" (.list 0 .text),
   optional "gitlab_urls" (.list 0 .url),
   optional "key_decisions" (.list 0 .text),
   optional "issues" (.list 0 .text),
   optional "residual_risk" (.list 0 .text),
   optional "gate_phase" (.nullable (.enum (gatePhases.map gatePhaseText))),
   optional "gate_decision" (.nullable (.enum (gateDecisions.map gateDecisionText))),
   optional "gate_reviewer" (.nullable (.pattern reviewerPattern)),
   optional "gate_reviewed_at" (.nullable .datetime),
   optional "gate_reason" (.nullable .nonEmpty),
   optional "gate_evidence_refs" (.list 0 .nonEmpty),
   optional "gate_artifact_paths" (.list 0 .nonEmpty),
   optional "gate_artifact_commit_sha" (.nullable (.pattern shaPattern)),
   optional "gate_artifact_digest" (.nullable (.pattern digestPattern)),
   optional "contract_refs" (.list 0 .nonEmpty),
   optional "requirement_ids" (.list 0 .nonEmpty),
   required "deterministic_checks" (.list 0 deterministicCheckModel)]

/-- The time of the gate, with whether its text names a time zone. -/
def reviewedAt (r : Readers) (j : Json) : Option (Nat × Bool) :=
  match j.get "gate_reviewed_at" with
  | some (.str s) => r.datetime s
  | _ => none

/-- The completion that the validated fields make. -/
def readCompletion (r : Readers) (cardId : String → CardId) (j : Json) : CompletionPayload where
  runKey := (textOf j "run_key").getD ""
  sourceKey := (textOf j "source_key").getD ""
  runGeneration := (textOf j "run_generation").getD ""
  contextDigest := (textOf j "context_digest").getD ""
  stage := (choiceOf stages (·.value) j "stage").getD .specWrite
  iteration := (natOf j "iteration").getD 0
  mode := (choiceOf workModes (·.value) j "mode").getD .normal
  outcome := (choiceOf outcomes (·.value) j "outcome").getD .pass
  projectId := (natOf j "project_id").getD 0
  projectPath := (textOf j "project_path").getD ""
  checkout := (textOf j "checkout").getD ""
  worktree := (textOf j "worktree").getD ""
  branch := (textOf j "branch").getD ""
  targetBranch := (textOf j "target_branch").getD ""
  prdPath := (textOf j "prd_path").getD ""
  prdCommitSha := (textOf j "prd_commit_sha").getD ""
  prdBlobSha := (textOf j "prd_blob_sha").getD ""
  prdMrUrl := (textOf j "prd_mr_url").getD ""
  kanbanCardId := cardId ((textOf j "kanban_card_id").getD "")
  mrIid := natOf j "mr_iid"
  mrUrl := textOf j "mr_url"
  headBeforeSha := textOf j "head_before_sha"
  headSha := textOf j "head_sha"
  artifactCommitSha := textOf j "artifact_commit_sha"
  artifactDigest := textOf j "artifact_digest"
  artifactPaths := textsOf j "artifact_paths"
  baselineDisposition := choiceOf baselineDispositions dispositionText j "baseline_disposition"
  forcedAdvance := modelOf (readForcedAdvance cardId) j "forced_advance"
  repositoryEvidence := modelOf readRepositoryEvidence j "repository_evidence"
  testDisposition := choiceOf testDispositions (·.value) j "test_disposition"
  skipReason := textOf j "skip_reason"
  verification := textsOf j "verification"
  gitlabUrls := textsOf j "gitlab_urls"
  keyDecisions := textsOf j "key_decisions"
  issues := textsOf j "issues"
  residualRisk := textsOf j "residual_risk"
  gatePhase := choiceOf gatePhases gatePhaseText j "gate_phase"
  gateDecision := choiceOf gateDecisions gateDecisionText j "gate_decision"
  gateReviewer := textOf j "gate_reviewer"
  gateReviewedAt := (reviewedAt r j).map (·.1)
  gateReason := textOf j "gate_reason"
  gateEvidenceRefs := textsOf j "gate_evidence_refs"
  gateArtifactPaths := textsOf j "gate_artifact_paths"
  gateArtifactCommitSha := textOf j "gate_artifact_commit_sha"
  gateArtifactDigest := textOf j "gate_artifact_digest"
  contractRefs := textsOf j "contract_refs"
  requirementIds := textsOf j "requirement_ids"
  deterministicChecks := match j.get "deterministic_checks" with
    | some (.arr xs) => xs.map readDeterministicCheck
    | _ => []

/-- `validate_stage_contract`, with the time zone of the gate. -/
def meetsContract (r : Readers) (cardId : String → CardId) (j : Json) : Bool :=
  let p := readCompletion r cardId j
  p.stageContract.all (!·.1) && !(p.gateDecided && (reviewedAt r j).any (!·.2))

/-- `CompletionMetadata`. -/
def completionModel (r : Readers) (cardId : String → CardId) : Ty :=
  .record completionFields (meetsContract r cardId)

end HollysysController
