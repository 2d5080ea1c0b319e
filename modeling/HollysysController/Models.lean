import Mathlib.Data.List.Infix

/-! # Protocol records

The records that the Controller, its cards and the workers exchange. A
completion carries the proof that it meets the contract of its stage, so that
a `CompletionMetadata` is always one the validator let through. -/

namespace HollysysController

/-- A Hermes task id. The text form is `t_` and the number. -/
structure CardId where
  number : Nat
  deriving DecidableEq, Repr

def CardId.text (c : CardId) : String := "t_" ++ toString c.number

inductive Stage where
  | specWrite | specReview | planWrite | planReview | tasksWrite | tasksReview
  | implement | test | codeReview
  deriving DecidableEq, Repr

def Stage.value : Stage → String
  | .specWrite => "spec-write"
  | .specReview => "spec-review"
  | .planWrite => "plan-write"
  | .planReview => "plan-review"
  | .tasksWrite => "tasks-write"
  | .tasksReview => "tasks-review"
  | .implement => "implement"
  | .test => "test"
  | .codeReview => "code-review"

inductive Phase where
  | spec | plan | tasks | code
  deriving DecidableEq, Repr

def Phase.value : Phase → String
  | .spec => "spec"
  | .plan => "plan"
  | .tasks => "tasks"
  | .code => "code"

inductive WorkMode where
  | normal | finalization
  deriving DecidableEq, Repr

def WorkMode.value : WorkMode → String
  | .normal => "normal"
  | .finalization => "finalization"

inductive RepairKind where
  | reviewFailure | codeGateFailure | frozenArtifactViolation
  deriving DecidableEq, Repr

inductive BaselineDisposition where
  | source | reviewed | forcedAfterReviewLimit
  deriving DecidableEq, Repr

inductive TestDisposition where
  | executed | skippedUnavailable
  deriving DecidableEq, Repr

def TestDisposition.value : TestDisposition → String
  | .executed => "executed"
  | .skippedUnavailable => "skipped_unavailable"

inductive GatePhase where
  | implementationEntry | implementationCompletion | migrationExecution
  | deploymentEntry | releaseAcceptance
  deriving DecidableEq, Repr

inductive GateDecision where
  | approved | rejected
  deriving DecidableEq, Repr

inductive Outcome where
  | pass | fail | cancelled
  deriving DecidableEq, Repr

def Outcome.value : Outcome → String
  | .pass => "pass"
  | .fail => "fail"
  | .cancelled => "cancelled"

def Stage.isDocumentReview : Stage → Bool
  | .specReview | .planReview | .tasksReview => true
  | _ => false

def Stage.isDocumentProducer : Stage → Bool
  | .specWrite | .planWrite | .tasksWrite => true
  | _ => false

def Stage.isCodeGate : Stage → Bool
  | .test | .codeReview => true
  | _ => false

def Stage.isRepositoryAuthor (s : Stage) : Bool :=
  s.isDocumentProducer || s == .implement

/-! ## Run and card records -/

structure FeishuOrigin where
  messageId : String
  chatId : String
  threadId : Option String := none
  initiatorOpenId : String
  deriving DecidableEq, Repr

structure ProjectFacts where
  projectId : Nat
  projectPath : String
  deriving DecidableEq, Repr

structure SourceFacts where
  prdPath : String
  prdCommitSha : String
  prdBlobSha : String
  prdMrUrl : String
  deriving DecidableEq, Repr

/-- The patterns of an `ArtifactScope`, one list for each phase. -/
structure ArtifactPatterns where
  spec : List String := []
  plan : List String := []
  tasks : List String := []
  deriving DecidableEq, Repr

structure WorkspaceFacts where
  board : String
  checkout : String
  worktree : String
  branch : String
  targetBranch : String
  repositoryBaseSha : String
  deriving DecidableEq, Repr

structure RunRecord where
  runKey : String
  sourceKey : String
  runGeneration : String
  startedAt : Nat
  project : ProjectFacts
  source : SourceFacts
  artifactRoot : String
  artifactPatterns : ArtifactPatterns := {}
  workspace : WorkspaceFacts
  origin : FeishuOrigin
  deriving DecidableEq, Repr

/-- `StartRequest`. -/
structure StartRequest where
  prdBlobUrl : String
  prdMrUrl : String
  messageId : String
  chatId : String
  threadId : Option String := none
  chatType : String
  initiator : String
  deriving DecidableEq, Repr

/-- What `validate_start` found about the PRD before it draws a run: the project, the
merged PRD file and the head of the default branch. -/
structure StartSource where
  projectId : Nat
  projectPath : String
  repoSlug : String
  defaultBranch : String
  prdPath : String
  /-- The name of the PRD file, fit for a branch. -/
  safeName : String
  prdCommitSha : String
  prdBlobSha : String
  /-- The digest of host, project, path and blob. -/
  digest : String
  artifactRoot : String
  artifactPatterns : ArtifactPatterns := {}
  baseSha : String
  deriving DecidableEq, Repr

structure DeliveryBinding where
  mrIid : Nat
  mrUrl : String
  creator : String
  createdAt : Nat
  initialHeadSha : String
  claimNoteId : Nat
  deriving DecidableEq, Repr

structure ArtifactBaseline where
  phase : String
  disposition : BaselineDisposition
  artifactPaths : List String
  artifactDigest : String
  artifactCommitSha : String
  sourceCardId : CardId
  decisionUrls : List String := []
  keyDecisions : List String := []
  unresolvedFindings : List String := []
  residualRisk : List String := []
  deriving DecidableEq, Repr

structure RepairContext where
  kind : RepairKind
  triggerCardId : CardId
  issues : List String
  reviewAttempt : Option Nat := none
  reviewLimit : Option Nat := none
  relatedCardIds : List CardId := []
  headSha : Option String := none
  codeModification : Option Nat := none
  codeModificationLimit : Option Nat := none
  frozenBaselines : List ArtifactBaseline := []
  deriving DecidableEq, Repr

/-- The texts of the checks that a record fails, in the order of the checks. -/
def failedChecks (checks : List (Bool × String)) : List String :=
  checks.filterMap fun (bad, text) => if bad then some text else none

@[simp] theorem failedChecks_eq_nil {checks : List (Bool × String)} :
    failedChecks checks = [] ↔ ∀ c ∈ checks, c.1 = false := by
  simp only [failedChecks, List.filterMap_eq_nil_iff]
  constructor
  · intro h c hc
    have := h c hc
    by_contra hne
    simp [Bool.not_eq_false _ ▸ hne] at this
  · intro h c hc
    simp [h c hc]

/-- Raise the first failed check, as a validator does. -/
def firstFailure (checks : List (Bool × String)) : Except String Unit :=
  match failedChecks checks with
  | [] => .ok ()
  | text :: _ => .error text

theorem firstFailure_ok {checks : List (Bool × String)} :
    firstFailure checks = .ok () ↔ ∀ c ∈ checks, c.1 = false := by
  rw [← failedChecks_eq_nil, firstFailure]
  cases failedChecks checks <;> simp

namespace RepairContext

/-- The lower bounds of the fields, then `validate_repair_contract`. -/
def repairContract (c : RepairContext) : List (Bool × String) :=
  [(c.issues.isEmpty, "issues: List should have at least 1 item"),
   (c.reviewAttempt == some 0, "review_attempt: Input should be greater than or equal to 1"),
   (c.reviewLimit == some 0, "review_limit: Input should be greater than or equal to 1"),
   (c.codeModification == some 0,
    "code_modification: Input should be greater than or equal to 1"),
   (c.codeModificationLimit == some 0,
    "code_modification_limit: Input should be greater than or equal to 1"),
   (c.kind == .reviewFailure && (c.reviewAttempt.isNone || c.reviewLimit.isNone),
    "review_failure requires review_attempt and review_limit"),
   (c.kind != .reviewFailure && (c.reviewAttempt.isSome || c.reviewLimit.isSome),
    "review attempt fields are only valid for review_failure"),
   (c.kind == .codeGateFailure && (c.relatedCardIds.isEmpty || c.headSha.isNone ||
      c.codeModification.isNone || c.codeModificationLimit.isNone),
    "code_gate_failure requires both gate cards, head, and modification counters"),
   (match c.codeModification, c.codeModificationLimit with
    | some n, some limit => decide (limit < n)
    | some _, none => true
    | none, _ => false,
    "code_modification cannot exceed code_modification_limit"),
   (c.kind != .codeGateFailure && (!c.relatedCardIds.isEmpty || c.headSha.isSome ||
      c.codeModification.isSome || c.codeModificationLimit.isSome),
    "code gate fields are only valid for code_gate_failure"),
   (match c.reviewAttempt, c.reviewLimit with
    | some n, some limit => decide (limit < n)
    | _, _ => false,
    "review_attempt cannot exceed review_limit")]

def validateRepairContract (c : RepairContext) : Except String Unit :=
  firstFailure c.repairContract

end RepairContext

/-- The body of a work card. -/
structure CardRecord where
  run : RunRecord
  stage : Stage
  iteration : Nat
  mode : WorkMode := .normal
  idempotencyKey : String
  parentCardId : CardId
  assignee : String
  skills : List String
  frozenBaselines : List ArtifactBaseline := []
  repairContext : Option RepairContext := none
  resumeAnswer : Option String := none
  resumedFromCardId : Option CardId := none
  expectedHeadSha : Option String := none
  contextDigest : String
  scratchDir : String
  delivery : Option DeliveryBinding := none
  deriving DecidableEq, Repr

structure ExceptionCardRecord where
  run : RunRecord
  parentCardId : CardId
  idempotencyKey : String
  reason : String
  scratchDir : String
  deriving DecidableEq, Repr

/-- What a Hermes task carries as its body. `other` is any text that none of
the three markers opens. -/
inductive CardBody where
  | run (record : RunRecord)
  | work (record : CardRecord)
  | exception (record : ExceptionCardRecord)
  | other (text : String)
  deriving DecidableEq, Repr

def parseRunBody : CardBody → Except String RunRecord
  | .run r => .ok r
  | _ => .error "missing [hollysys-controller-run:v4]"

def parseCardBody : CardBody → Except String CardRecord
  | .work r => .ok r
  | _ => .error "missing [hollysys-controller-card:v4]"

/-! ## Completions -/

structure ForcedAdvance where
  reviewLimit : Nat
  finalReviewCardId : CardId
  finalReviewUrl : String
  decisionUrl : String
  baselineCommitSha : String
  artifactPaths : List String
  artifactDigest : String
  keyDecisions : List String
  unresolvedFindings : List String := []
  residualRisks : List String := []
  deriving DecidableEq, Repr

structure RepositoryEvidence where
  repositoryBaseSha : String
  inspectedPaths : List String
  deriving DecidableEq, Repr

structure DeterministicCheck where
  validator : String
  validatorVersion : String
  inputDigest : String
  resultDigest : String
  passed : Bool
  errorCodes : List String
  deriving DecidableEq, Repr

/-- The fields of a worker's completion, before the stage contract. -/
structure CompletionPayload where
  runKey : String
  sourceKey : String
  runGeneration : String
  contextDigest : String
  stage : Stage
  iteration : Nat
  mode : WorkMode := .normal
  outcome : Outcome
  projectId : Nat
  projectPath : String
  checkout : String
  worktree : String
  branch : String
  targetBranch : String
  prdPath : String
  prdCommitSha : String
  prdBlobSha : String
  prdMrUrl : String
  kanbanCardId : CardId
  mrIid : Option Nat := none
  mrUrl : Option String := none
  headBeforeSha : Option String := none
  headSha : Option String := none
  artifactCommitSha : Option String := none
  artifactDigest : Option String := none
  artifactPaths : List String := []
  baselineDisposition : Option BaselineDisposition := none
  forcedAdvance : Option ForcedAdvance := none
  repositoryEvidence : Option RepositoryEvidence := none
  testDisposition : Option TestDisposition := none
  skipReason : Option String := none
  verification : List String := []
  gitlabUrls : List String := []
  keyDecisions : List String := []
  issues : List String := []
  residualRisk : List String := []
  gatePhase : Option GatePhase := none
  gateDecision : Option GateDecision := none
  gateReviewer : Option String := none
  gateReviewedAt : Option Nat := none
  gateReason : Option String := none
  gateEvidenceRefs : List String := []
  gateArtifactPaths : List String := []
  gateArtifactCommitSha : Option String := none
  gateArtifactDigest : Option String := none
  contractRefs : List String := []
  requirementIds : List String := []
  deterministicChecks : List DeterministicCheck := []
  deriving DecidableEq, Repr

/-- Whether `path` is refused as an exact repository path: absolute, empty, `.`,
with a `..` part, or with a wildcard. -/
def unsafePath (path : String) : Bool :=
  path.toList.head? == some '/' || path == "" || path == "." ||
    (path.toList.splitOn '/').contains ['.', '.'] ||
    path.toList.any fun c => c == '*' || c == '?' || c == '[' || c == ']' || c == '\x00'

namespace CompletionPayload

variable (p : CompletionPayload)

def gateFieldsPresent : Bool :=
  p.gateDecision.isSome || p.gateReviewer.isSome || p.gateReviewedAt.isSome ||
    p.gateReason.isSome || !p.gateEvidenceRefs.isEmpty || !p.gateArtifactPaths.isEmpty ||
    p.gateArtifactCommitSha.isSome || p.gateArtifactDigest.isSome ||
    !p.contractRefs.isEmpty || !p.requirementIds.isEmpty

/-- A gate phase, its decision and its time are all there. -/
def gateDecided : Bool :=
  p.gatePhase.isSome && p.gateDecision.isSome && p.gateReviewedAt.isSome

def verdict : Bool := p.outcome == .pass || p.outcome == .fail

/-- The gate part of `validate_stage_contract`. -/
def gateContract : List (Bool × String) :=
  [((p.stage == .specReview || p.stage == .planReview) &&
      (p.gatePhase.isSome || p.gateFieldsPresent),
    "SPEC/PLAN review comments are not semantic gates; leave gate_phase and all gate evidence fields empty"),
   (p.gatePhase.isSome && (p.gateDecision.isNone || p.gateReviewer.isNone ||
      p.gateReviewedAt.isNone || p.gateReason.isNone || p.gateEvidenceRefs.isEmpty ||
      p.gateArtifactPaths.isEmpty || p.gateArtifactCommitSha.isNone ||
      p.gateArtifactDigest.isNone || p.contractRefs.isEmpty || p.requirementIds.isEmpty),
    "gate_phase requires decision, reviewer, reviewed_at, reason, evidence refs, frozen artifact paths/version/digest, contract_refs and requirement_ids"),
   (p.gatePhase.isNone && p.gateFieldsPresent, "gate evidence fields require gate_phase"),
   (p.gateDecided && p.gateDecision == some .approved && p.outcome != .pass,
    "approved gate requires outcome=pass"),
   (p.gateDecided && p.gateDecision == some .rejected && p.outcome != .fail,
    "rejected gate requires outcome=fail"),
   (p.gateDecided && !decide p.requirementIds.Nodup, "requirement_ids must be unique"),
   (p.gateDecided && !decide p.contractRefs.Nodup, "contract_refs must be unique"),
   (p.gateDecided && !decide p.gateEvidenceRefs.Nodup, "gate_evidence_refs must be unique"),
   (p.gateDecided && !decide p.gateArtifactPaths.Nodup, "gate_artifact_paths must be unique"),
   (p.gateDecided && p.gateArtifactPaths.any unsafePath,
    "gate_artifact_paths must be exact repository paths"),
   (p.stage == .tasksReview && p.outcome == .pass &&
      (p.gatePhase != some .implementationEntry || p.gateDecision != some .approved),
    "tasks-review pass requires approved implementation_entry gate"),
   (p.stage == .codeReview && p.outcome == .pass &&
      (p.gatePhase != some .implementationCompletion || p.gateDecision != some .approved),
    "code-review pass requires approved implementation_completion gate")]

/-- The outcome and evidence part of `validate_stage_contract`. -/
def evidenceContract : List (Bool × String) :=
  [(p.outcome == .fail && p.issues.isEmpty, "fail requires a non-empty issues list"),
   (p.outcome == .fail && !(p.stage.isDocumentReview || p.stage.isCodeGate),
    "only review/test stages may return fail"),
   (p.verdict && p.stage.isDocumentReview && (p.artifactPaths.isEmpty ||
      p.artifactDigest.isNone || p.artifactCommitSha.isNone),
    "artifact review requires paths, digest, and artifact_commit_sha"),
   (p.verdict && p.stage.isCodeGate && (p.mrIid.isNone || p.mrUrl.isNone || p.headSha.isNone),
    "test/code-review requires mr_iid, mr_url, and head_sha"),
   (p.stage == .test && p.verdict && p.testDisposition.isNone,
    "test pass/fail requires test_disposition"),
   (p.stage == .test && p.verdict && p.testDisposition == some .skippedUnavailable &&
      (p.outcome != .pass || p.skipReason.isNone || p.verification.isEmpty ||
        p.residualRisk.isEmpty),
    "skipped test requires pass, skip_reason, verification evidence, and residual risk"),
   (p.stage == .test && p.verdict && p.testDisposition == some .executed &&
      p.skipReason.isSome,
    "executed test must not include skip_reason"),
   (!(p.stage == .test && p.verdict) && (p.testDisposition.isSome || p.skipReason.isSome),
    "test disposition fields are only valid for test pass/fail"),
   (p.outcome == .pass && p.stage.isRepositoryAuthor && p.repositoryEvidence.isNone,
    "SPEC/PLAN/TASKS/CODE authoring pass requires repository_evidence"),
   (p.outcome == .pass && p.stage.isRepositoryAuthor &&
      (p.mrIid.isNone || p.mrUrl.isNone || p.headSha.isNone),
    "SPEC/PLAN/TASKS/CODE authoring pass requires the shared delivery MR and current head"),
   (!(p.outcome == .pass && p.stage.isRepositoryAuthor) && p.repositoryEvidence.isSome,
    "repository_evidence is only valid for an authoring pass")]

/-- What `forced_advance` repeats from the top level. -/
def forcedMatches (f : ForcedAdvance) : Bool :=
  some f.baselineCommitSha == p.artifactCommitSha && f.artifactPaths == p.artifactPaths &&
    some f.artifactDigest == p.artifactDigest && f.keyDecisions == p.keyDecisions &&
    f.residualRisks == p.residualRisk

/-- The finalization and baseline part of `validate_stage_contract`. -/
def baselineContract : List (Bool × String) :=
  [(p.mode == .finalization && !p.stage.isDocumentProducer,
    "finalization is only valid for a document producer"),
   (p.mode == .finalization && p.outcome == .pass && (p.artifactPaths.isEmpty ||
      p.artifactDigest.isNone || p.artifactCommitSha.isNone || p.mrIid.isNone ||
      p.mrUrl.isNone || p.baselineDisposition != some .forcedAfterReviewLimit ||
      p.forcedAdvance.isNone),
    "finalization requires a forced artifact baseline and decision"),
   (p.mode == .finalization && p.outcome == .pass && p.forcedAdvance.any (!p.forcedMatches ·),
    "forced_advance baseline and residual risks must match top-level finalization evidence"),
   (p.mode == .finalization && p.outcome == .fail, "finalization only allows pass or cancelled"),
   (p.mode != .finalization && p.forcedAdvance.isSome,
    "forced_advance is only valid for finalization"),
   (p.stage.isDocumentReview && p.outcome == .pass && p.baselineDisposition != some .reviewed,
    "document review pass requires baseline_disposition=reviewed"),
   (!(p.stage.isDocumentReview && p.outcome == .pass) && p.mode != .finalization &&
      p.baselineDisposition.isSome,
    "baseline_disposition is only valid for a document review pass or finalization")]

def stageContract : List (Bool × String) :=
  p.gateContract ++ p.evidenceContract ++ p.baselineContract

def validateStageContract : Except String Unit := firstFailure p.stageContract

end CompletionPayload

/-- A completion that meets the contract of its stage. -/
structure CompletionMetadata extends CompletionPayload where
  contract : ∀ c ∈ toCompletionPayload.stageContract, c.1 = false

namespace CompletionMetadata

variable (m : CompletionMetadata)

theorem ext_payload {m n : CompletionMetadata}
    (h : m.toCompletionPayload = n.toCompletionPayload) : m = n := by
  cases m
  cases n
  cases h
  rfl

theorem evidence_check (i : Nat) (hi : i < m.evidenceContract.length) :
    m.evidenceContract[i].1 = false :=
  m.contract _ (by simp [CompletionPayload.stageContract])

theorem baseline_check (i : Nat) (hi : i < m.baselineContract.length) :
    m.baselineContract[i].1 = false :=
  m.contract _ (by simp [CompletionPayload.stageContract])

theorem review_pass_disposition (hs : m.stage.isDocumentReview) (ho : m.outcome = .pass) :
    m.baselineDisposition = some .reviewed := by
  have h := m.baseline_check 5 (by simp [CompletionPayload.baselineContract])
  simpa [CompletionPayload.baselineContract, hs, ho] using h

theorem review_pass_artifact (hs : m.stage.isDocumentReview) (ho : m.outcome = .pass) :
    m.artifactDigest.isSome ∧ m.artifactCommitSha.isSome := by
  have h := m.evidence_check 2 (by simp [CompletionPayload.evidenceContract])
  simp [CompletionPayload.evidenceContract, CompletionPayload.verdict, hs, ho] at h
  exact ⟨h.1.2, h.2⟩

theorem finalization_pass_artifact (hm : m.mode = .finalization) (ho : m.outcome = .pass) :
    m.artifactDigest.isSome ∧ m.artifactCommitSha.isSome := by
  have h := m.baseline_check 1 (by simp [CompletionPayload.baselineContract])
  simp [CompletionPayload.baselineContract, hm, ho] at h
  exact ⟨h.1.1.1.1.1.2, h.1.1.1.1.2⟩

end CompletionMetadata

/-- The `worker_session_id` that Hermes adds to a completion's metadata. -/
inductive SessionField where
  | text (s : String)
  | other
  deriving DecidableEq, Repr

/-- A task run's metadata as Hermes stores it. The payload is the JSON object
without `worker_session_id`, or the error its field validation gives. -/
structure RawMetadata where
  workerSessionId : Option SessionField := none
  payload : Except String CompletionPayload

def strip (s : String) : List Char :=
  ((s.toList.dropWhile (·.isWhitespace)).reverse.dropWhile (·.isWhitespace)).reverse

namespace RawMetadata

/-- The session, when there is one, must be a non-blank string. -/
def sessionField (raw : RawMetadata) : Bool :=
  match raw.workerSessionId with
  | none => true
  | some (.text s) => strip s != []
  | some .other => false

/-- `CompletionMetadata.model_validate` on the payload. -/
def completion (raw : RawMetadata) : Except String CompletionMetadata :=
  match raw.payload with
  | .error e => .error e
  | .ok p =>
    if h : ∀ c ∈ p.stageContract, c.1 = false then .ok ⟨p, h⟩
    else .error ((failedChecks p.stageContract).headD "")

theorem completion_payload {raw : RawMetadata} {m : CompletionMetadata}
    (h : raw.completion = .ok m) : raw.payload = .ok m.toCompletionPayload := by
  unfold completion at h
  split at h
  · cases h
  · rename_i p hp
    split at h
    · cases h
      exact hp
    · cases h

end RawMetadata

/-- `validate_persisted_completion_metadata`: drop the runtime envelope, then
validate the worker's payload. -/
def validatePersistedCompletionMetadata (raw : Option RawMetadata) :
    Except String CompletionMetadata :=
  match raw with
  | none => .error "Input should be a valid dictionary or instance of CompletionMetadata"
  | some raw =>
    if raw.sessionField then raw.completion
    else .error "worker_session_id must be a non-empty string"

theorem validatePersisted_payload {raw : Option RawMetadata} {m : CompletionMetadata}
    (h : validatePersistedCompletionMetadata raw = .ok m) :
    ∃ r, raw = some r ∧ r.payload = .ok m.toCompletionPayload := by
  cases raw with
  | none => cases h
  | some r =>
    simp only [validatePersistedCompletionMetadata] at h
    split at h
    · exact ⟨r, rfl, RawMetadata.completion_payload h⟩
    · cases h

end HollysysController
