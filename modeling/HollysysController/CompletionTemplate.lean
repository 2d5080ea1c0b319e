import HollysysController.CompletionFields
import HollysysController.GateBinding
import HollysysController.Publication
import HollysysController.StoreHistory
import HollysysController.TaskDepth

/-! # The template of a completion

What the Controller hands to a worker to fill in: the completion of its card with the identity of
the run, the artifact at the head of the delivery MR with its recomputed check, and placeholders.
When there is one, and what the checks of a completion make of a template that was filled in. -/

namespace HollysysController

open Durable

/-- `Stage(managed.stage)`. -/
def stageOfCard : CardStage → Except String Stage
  | .work stage => .ok stage
  | other => .error s!"'{other.value}' is not a valid Stage"

/-! ## The artifact -/

/-- What the artifact of a card is read and checked with: the tree and the files of a commit, the
decoding of a file, the validator of TASKS documents, the digests, and two texts. -/
structure ArtifactSite where
  repo : Repository
  /-- The encoding and the content of a file. -/
  file : Nat → String → String → Except ControllerError (String × String)
  /-- `base64.b64decode(content, validate=True).decode("utf-8")`. -/
  decode : String → Option String
  words : Python.Words
  order : SetOrder
  digests : TaskDigests
  frames : Nat
  sha256 : String → String
  /-- `repr` of a list of patterns. -/
  repr : List String → String
  /-- What a field says that does not take its value. -/
  fieldError : String

structure ArtifactValidation where
  headSha : String
  artifactPaths : List String
  check : DeterministicCheck

/-- The review whose patterns name the artifact of a stage. -/
def patternStage : Stage → Option Stage
  | .specWrite | .specReview => some .specReview
  | .planWrite | .planReview => some .planReview
  | .tasksWrite | .tasksReview => some .tasksReview
  | _ => none

namespace ArtifactSite

variable (site : ArtifactSite)

/-- The paths of the artifact at the head of the delivery MR. -/
def pathsAt (run : RunRecord) (stage reviewed : Stage) (headSha : String) :
    Except ControllerError (List String) := do
  let patterns ← (run.artifactScope.patternsFor reviewed).mapError .valueError
  match site.repo.artifactPaths run.project.projectId headSha patterns with
  | .ok paths => .ok paths
  | .error e =>
    if e.isValueError ∧ hasText "matched no files" e.text then
      .error (.valueError ("remote_artifact_missing: validate-artifact reads the bound " ++
        "GitLab MR head only; commit and push the artifact, verify the remote head, then retry; " ++
        s!"stage={stage.value}; head={headSha}; patterns={site.repr patterns}"))
    else .error e

def documentAt (run : RunRecord) (headSha path : String) : Except ControllerError String := do
  let (encoding, content) ← site.file run.project.projectId path headSha
  if encoding ≠ "base64" then
    .error (.valueError "artifact_content_encoding_unsupported")
  else match site.decode content with
    | some document => .ok document
    | none => .error (.valueError "artifact_content_invalid_utf8")

/-- The check of the documents of an artifact. -/
def checkDocuments (reviewed : Stage) (documents : List String) :
    Except ControllerError DeterministicCheck :=
  if reviewed = .tasksReview then
    match validateTaskDocuments site.words site.order site.digests site.frames documents with
    | .ok r => .ok
        { validator := "tasks-graph"
          validatorVersion := "tasks-graph/v1"
          inputDigest := r.inputDigest
          resultDigest := r.resultDigest
          passed := r.passed
          errorCodes := r.errorCodes }
    | .error (.valueError text) => .error (.valueError text)
    | .error .recursionError => .error (.runtimeError recursionErrorText)
  else
    let inputDigest := site.digests.documents documents
    .ok
      { validator := "artifact-set"
        validatorVersion := "artifact-set/v1"
        inputDigest
        resultDigest := site.sha256 s!"artifact-set/v1:{inputDigest}:pass"
        passed := true
        errorCodes := [] }

/-- The artifact of a stage at a commit, checked. -/
def artifactAt (run : RunRecord) (stage reviewed : Stage) (headSha : String) :
    Except ControllerError ArtifactValidation := do
  let artifactPaths ← site.pathsAt run stage reviewed headSha
  let documents ← artifactPaths.mapM (site.documentAt run headSha)
  let check ← site.checkDocuments reviewed documents
  pure { headSha, artifactPaths, check }

/-- `validate_artifact`, which records the check of its answer. -/
def validateArtifact (read : ReadSite) (cardId : CardId) : Service ArtifactValidation := do
  let (managed, _, run) ← managedWork cardId
  let stage ← fromText (stageOfCard managed.stage)
  match patternStage stage with
  | none => raise (.valueError s!"stage_has_no_artifact_validator:{stage.value}")
  | some reviewed => do
    match ← boundDeliveryMr read run with
    | some mr =>
      if mr.head = "" then
        raise (.valueError "artifact validation requires a bound delivery MR")
      else
        fromExcept (site.artifactAt run stage reviewed mr.head)
    | none => raise (.valueError "artifact validation requires a bound delivery MR")

end ArtifactSite

/-! ## The data -/

def Stage.isDocument (s : Stage) : Bool := s.isDocumentProducer || s.isDocumentReview

/-- The facts that a template is filled with: the card as the ledger and its body have it, the
binding, the head of the delivery MR when there is one, and the artifact with its digest. -/
structure TemplateFacts where
  cardId : CardId
  managed : ManagedCard
  stage : Stage
  run : RunRecord
  record : CardRecord
  outcome : Outcome
  binding : Option DeliveryBinding
  head : Option String
  artifact : Option (ArtifactValidation × String)

namespace TemplateFacts

variable (f : TemplateFacts)

/-- The binding and the head, when both are there. The texts from GitLab are stripped by the fields
that take them. -/
def delivery : Option (DeliveryBinding × String) :=
  match f.binding, f.head with
  | some b, some head => some (b, JsonSchema.strip head)
  | _, _ => none

/-- The last of the frozen TASKS baselines. -/
def tasksBaseline : Option ArtifactBaseline :=
  f.record.frozenBaselines.reverse.find? (·.phase == "tasks")

def artifactPaths : List String :=
  (f.artifact.map fun a => a.1.artifactPaths.map JsonSchema.strip).getD []

def artifactCommit : Option String := f.artifact.map fun a => JsonSchema.strip a.1.headSha

def artifactDigest : Option String := f.artifact.map (·.2)

def gateNote : String :=
  match f.binding with
  | some b => s!"{b.mrUrl}#note_1"
  | none => "evidence/missing-binding"

def gatePaths : List String := (f.tasksBaseline.map (·.artifactPaths)).getD f.artifactPaths

def gateCommit : Option String :=
  match f.tasksBaseline with
  | some b => some b.artifactCommitSha
  | none => f.artifactCommit

def gateDigest : Option String :=
  match f.tasksBaseline with
  | some b => some b.artifactDigest
  | none => f.artifactDigest

/-- What stands for the gate of an approval. -/
def gated (p : CompletionPayload) (phase : GatePhase) : CompletionPayload :=
  { p with
    gatePhase := some phase
    gateDecision := some .approved
    gateReviewer := some "id:1"
    gateReviewedAt := some f.run.startedAt
    gateReason := some "REPLACE_WITH_CONCRETE_GATE_REASON"
    gateEvidenceRefs := [f.gateNote]
    gateArtifactPaths := f.gatePaths
    gateArtifactCommitSha := f.gateCommit
    gateArtifactDigest := f.gateDigest
    contractRefs := ["REPLACE_WITH_CONTRACT_REF"]
    requirementIds := ["REPLACE_WITH_REQUIREMENT_ID"] }

/-- The data up to the gate. -/
def ungated : CompletionPayload where
  runKey := f.run.runKey
  sourceKey := f.run.sourceKey
  runGeneration := f.run.runGeneration
  contextDigest := f.record.contextDigest
  stage := f.stage
  iteration := f.managed.iteration
  mode := f.record.mode
  outcome := f.outcome
  projectId := f.run.project.projectId
  projectPath := f.run.project.projectPath
  checkout := f.run.workspace.checkout
  worktree := f.run.workspace.worktree
  branch := f.run.workspace.branch
  targetBranch := f.run.workspace.targetBranch
  prdPath := f.run.source.prdPath
  prdCommitSha := f.run.source.prdCommitSha
  prdBlobSha := f.run.source.prdBlobSha
  prdMrUrl := f.run.source.prdMrUrl
  kanbanCardId := f.cardId
  headBeforeSha := f.record.expectedHeadSha
  issues := if f.outcome = .fail then ["REPLACE_WITH_CONCRETE_FINDING"] else []
  mrIid := f.delivery.map (·.1.mrIid)
  mrUrl := f.delivery.map (·.1.mrUrl)
  headSha := f.delivery.map (·.2)
  artifactCommitSha := f.artifactCommit
  artifactDigest := f.artifactDigest
  artifactPaths := f.artifactPaths
  deterministicChecks := (f.artifact.map (·.1.check)).toList
  repositoryEvidence :=
    if f.stage.isRepositoryAuthor ∧ f.outcome = .pass then
      some
        { repositoryBaseSha := f.run.workspace.repositoryBaseSha
          inspectedPaths := [f.run.source.prdPath] }
    else none
  baselineDisposition :=
    if f.stage.isDocumentReview ∧ f.outcome = .pass then some .reviewed else none
  testDisposition :=
    if f.stage = .test ∧ f.outcome ≠ .cancelled then some .executed else none

/-- `data`. -/
def data : CompletionPayload :=
  if f.stage = .tasksReview ∧ f.outcome = .pass then f.gated f.ungated .implementationEntry
  else if f.stage = .codeReview ∧ f.outcome = .pass then
    f.gated f.ungated .implementationCompletion
  else f.ungated

end TemplateFacts

/-! ## The template -/

/-- What the types of the fields ask of the texts from GitLab and of the digests. The other values
come from records with fields of the same types. -/
def CompletionPayload.fieldTypes (p : CompletionPayload) : Bool :=
  p.headSha.all shaPattern.holds && p.artifactCommitSha.all shaPattern.holds &&
    p.artifactDigest.all digestPattern.holds && p.gateArtifactPaths.all (· != "") &&
    p.gateArtifactCommitSha.all shaPattern.holds && p.gateArtifactDigest.all digestPattern.holds &&
    p.deterministicChecks.all fun c => digestPattern.holds c.inputDigest &&
      digestPattern.holds c.resultDigest && c.errorCodes.all errorCodePattern.holds && resultOk c

/-- `CompletionMetadata.model_validate(data)`. -/
def ArtifactSite.modelValidate (site : ArtifactSite) (data : CompletionPayload) :
    Except String CompletionMetadata :=
  RawMetadata.completion
    { payload := if data.fieldTypes then .ok data else .error site.fieldError }

/-- The artifact of a document stage with its digest, for a verdict. -/
def ArtifactSite.artifactFor (site : ArtifactSite) (read : ReadSite) (cardId : CardId)
    (run : RunRecord) (stage : Stage) (outcome : Outcome) :
    Service (Option (ArtifactValidation × String)) :=
  if stage.isDocument ∧ outcome ≠ .cancelled then do
    let validation ← site.validateArtifact read cardId
    let digest ← fromExcept (site.repo.artifactDigest site.sha256 run.project.projectId
      validation.headSha validation.artifactPaths)
    pure (some (validation, digest))
  else pure none

/-- The template of a card with what `record_validation` wrote for it. -/
structure CompletionTemplate where
  metadata : CompletionMetadata
  recorded : Option ValidationRun

/-- `completion_template`, once the card is found. -/
def ArtifactSite.templateFor (site : ArtifactSite) (read : ReadSite) (cardId : CardId)
    (outcome : Outcome) (managed : ManagedCard) (item : HistoryItem) (run : RunRecord) :
    Service CompletionTemplate := do
  let record ← fromText (parseCardBody item.task.body)
  let stage ← fromText (stageOfCard managed.stage)
  if record.mode = .finalization ∧ outcome = .pass then
    raise (.valueError "completion_template_requires_forced_advance_evidence")
  else
    let binding ← store (.deliveryBinding run.runKey)
    let mr ← boundDeliveryMr read run
    let artifact ← site.artifactFor read cardId run stage outcome
    let metadata ← fromText (site.modelValidate (TemplateFacts.data
      { cardId, managed, stage, run, record, outcome, binding
        head := mr.map (·.head)
        artifact }))
    pure
      { metadata
        recorded := artifact.map fun a => { runKey := run.runKey, cardId, check := a.1.check } }

/-- `completion_template`. -/
def ArtifactSite.completionTemplate (site : ArtifactSite) (read : ReadSite) (cardId : CardId)
    (outcome : String) : Service CompletionTemplate :=
  match outcomes.find? (·.value == outcome) with
  | none => raise (.valueError "outcome must be pass, fail, or cancelled")
  | some outcome => do
    let (managed, item, run) ← managedWork cardId
    site.templateFor read cardId outcome managed item run

/-! ## When there is a template -/

section Ready

variable {site : ArtifactSite} {f : TemplateFacts}

namespace TemplateFacts

/-- The gate of an approval names some paths, each one once, and each one exactly. -/
structure GateReady (f : TemplateFacts) : Prop where
  named : f.gatePaths ≠ []
  once : f.gatePaths.Nodup
  safe : ∀ path ∈ f.gatePaths, unsafePath path = false

/-- The card has what the contract of its stage asks of the outcome. -/
def Ready (f : TemplateFacts) : Prop :=
  match f.outcome with
  | .cancelled => f.record.mode = .finalization → f.stage.isDocumentProducer = true
  | .fail => f.record.mode ≠ .finalization ∧
      (f.stage.isDocumentReview = true ∧ f.artifactPaths ≠ [] ∨
        f.stage.isCodeGate = true ∧ f.delivery.isSome = true)
  | .pass => f.record.mode ≠ .finalization ∧
      (f.stage.isDocumentReview = true → f.artifactPaths ≠ []) ∧
      (f.stage.isRepositoryAuthor = true ∨ f.stage.isCodeGate = true →
        f.delivery.isSome = true) ∧
      (f.stage = .tasksReview ∨ f.stage = .codeReview → f.GateReady)

end TemplateFacts

/-- What the evidence part of the contract asks of a template. -/
def TemplateFacts.Evidenced (f : TemplateFacts) : Prop :=
  (f.outcome = .fail → f.stage.isDocumentReview = true ∨ f.stage.isCodeGate = true) ∧
    (f.outcome ≠ .cancelled → f.stage.isDocumentReview = true → f.artifactPaths ≠ []) ∧
    (f.outcome ≠ .cancelled → f.stage.isCodeGate = true → f.delivery.isSome = true) ∧
    (f.outcome = .pass → f.stage.isRepositoryAuthor = true → f.delivery.isSome = true)

/-- The evidence and the baseline parts read no field of the gate. -/
theorem evidenceContract_data : f.data.evidenceContract = f.ungated.evidenceContract := by
  unfold TemplateFacts.data
  split_ifs <;> rfl

theorem baselineContract_data : f.data.baselineContract = f.ungated.baselineContract := by
  unfold TemplateFacts.data
  split_ifs <;> rfl

theorem evidenceContract_template :
    (∀ c ∈ f.data.evidenceContract, c.1 = false) ↔ f.Evidenced := by
  have hfound : (¬ f.artifactPaths = [] ∧ f.artifactDigest.isSome = true) ∧
      f.artifactCommit.isSome = true ↔ ¬ f.artifactPaths = [] := by
    cases ha : f.artifact <;>
      simp [TemplateFacts.artifactPaths, TemplateFacts.artifactDigest,
        TemplateFacts.artifactCommit, ha]
  rw [evidenceContract_data, TemplateFacts.Evidenced, CompletionPayload.evidenceContract,
    CompletionPayload.verdict, TemplateFacts.ungated]
  cases f.outcome
  case pass => simp [hfound]
  case fail => cases hreview : f.stage.isDocumentReview <;> simp [hfound]
  case cancelled => simp

theorem baselineContract_template :
    (∀ c ∈ f.data.baselineContract, c.1 = false) ↔
      (f.record.mode = .finalization → f.stage.isDocumentProducer = true ∧
        f.outcome = .cancelled) := by
  rw [baselineContract_data, CompletionPayload.baselineContract, TemplateFacts.ungated]
  by_cases hmode : f.record.mode = .finalization <;> cases f.outcome <;> simp [hmode]

/-- Paths come with a commit and a digest. -/
theorem gate_named (h : f.gatePaths ≠ []) :
    f.gateCommit.isSome = true ∧ f.gateDigest.isSome = true := by
  unfold TemplateFacts.gatePaths at h
  unfold TemplateFacts.gateCommit TemplateFacts.gateDigest
  cases hb : f.tasksBaseline with
  | some b => exact ⟨rfl, rfl⟩
  | none =>
    rw [hb] at h
    cases ha : f.artifact with
    | some a => simp [TemplateFacts.artifactCommit, TemplateFacts.artifactDigest, ha]
    | none => exact absurd (by simp [TemplateFacts.artifactPaths, ha]) h

theorem gateReady_iff : f.GateReady ↔ (f.gatePaths ≠ [] ∧ f.gateCommit.isSome = true ∧
    f.gateDigest.isSome = true) ∧ f.gatePaths.Nodup ∧
      ∀ path ∈ f.gatePaths, unsafePath path = false :=
  ⟨fun h => ⟨⟨h.named, gate_named h.named⟩, h.once, h.safe⟩, fun h => ⟨h.1.1, h.2.1, h.2.2⟩⟩

theorem gateContract_template :
    (∀ c ∈ f.data.gateContract, c.1 = false) ↔
      (f.outcome = .pass → f.stage = .tasksReview ∨ f.stage = .codeReview → f.GateReady) := by
  rw [gateReady_iff]
  unfold TemplateFacts.data
  split_ifs with htasks hcode
  · simp [TemplateFacts.gated, TemplateFacts.ungated, CompletionPayload.gateContract,
      CompletionPayload.gateDecided, CompletionPayload.gateFieldsPresent, htasks, and_assoc]
  · simp [TemplateFacts.gated, TemplateFacts.ungated, CompletionPayload.gateContract,
      CompletionPayload.gateDecided, CompletionPayload.gateFieldsPresent, hcode, and_assoc]
  · refine iff_of_true ?_ fun hpass hreview => ?_
    · simpa [TemplateFacts.ungated, CompletionPayload.gateContract,
        CompletionPayload.gateDecided, CompletionPayload.gateFieldsPresent] using
          ⟨fun h h' => htasks ⟨h, h'⟩, fun h h' => hcode ⟨h, h'⟩⟩
    · exact absurd hreview (not_or.mpr ⟨fun h => htasks ⟨h, hpass⟩, fun h => hcode ⟨h, hpass⟩⟩)

theorem stageContract_template :
    (∀ c ∈ f.data.stageContract, c.1 = false) ↔ f.Ready := by
  have hapart : f.stage.isDocumentReview = true → f.stage.isCodeGate = false := by
    cases f.stage <;> simp [Stage.isDocumentReview, Stage.isCodeGate]
  simp only [CompletionPayload.stageContract, List.forall_mem_append, evidenceContract_template,
    baselineContract_template, gateContract_template, TemplateFacts.Evidenced,
    TemplateFacts.Ready]
  cases f.outcome <;> cases f.record.mode <;> simp
  case pass.normal => tauto
  case fail.normal =>
    cases hreview : f.stage.isDocumentReview <;> simp_all

end Ready

/-! ## A template that was filled in -/

section Filled

variable {site : ArtifactSite} {f : TemplateFacts} {t m : CompletionPayload} {i : HistoryItem}

/-- What a worker fills in: the evidence, the findings and the reasons, never what identifies the
run, the card, the delivery and the artifact. -/
structure Fills (t m : CompletionPayload) : Prop where
  kept : m = { t with
    testDisposition := m.testDisposition
    skipReason := m.skipReason
    verification := m.verification
    gitlabUrls := m.gitlabUrls
    keyDecisions := m.keyDecisions
    issues := m.issues
    residualRisk := m.residualRisk
    gateReviewer := m.gateReviewer
    gateReviewedAt := m.gateReviewedAt
    gateReason := m.gateReason
    gateEvidenceRefs := m.gateEvidenceRefs
    contractRefs := m.contractRefs
    requirementIds := m.requirementIds
    repositoryEvidence := m.repositoryEvidence }
  evidence : m.repositoryEvidence.map (·.repositoryBaseSha) =
    t.repositoryEvidence.map (·.repositoryBaseSha)

theorem modelValidate_data {data : CompletionPayload} {metadata : CompletionMetadata}
    (h : site.modelValidate data = .ok metadata) : metadata.toCompletionPayload = data := by
  have hpayload := RawMetadata.completion_payload h
  simp only at hpayload
  split at hpayload
  · exact (Except.ok.inj hpayload).symm
  · cases hpayload

/-- The identity of a template is that of its card. -/
theorem checkIdentity_filled (hfills : Fills f.data m) (hmanaged : i.managed = f.managed)
    (hstage : f.managed.stage = .work f.stage) (hid : i.task.id = f.cardId) :
    checkIdentity f.run i f.record m = .ok () := by
  have hchecks : failedChecks (identityChecks f.run i f.record m) = [] := by
    rw [hfills.kept]
    unfold TemplateFacts.data
    split
    · simp [failedChecks, identityChecks, TemplateFacts.gated, TemplateFacts.ungated, hid,
        HistoryItem.atStage, hmanaged, hstage]
    · split <;> simp [failedChecks, identityChecks, TemplateFacts.gated, TemplateFacts.ungated,
        hid, HistoryItem.atStage, hmanaged, hstage]
  rw [checkIdentity, hchecks]

/-- The rest of a template, with and without a gate. -/
theorem data_fields (f : TemplateFacts) :
    f.data.mrIid = f.delivery.map (·.1.mrIid) ∧ f.data.mrUrl = f.delivery.map (·.1.mrUrl) ∧
      f.data.deterministicChecks = (f.artifact.map (·.1.check)).toList ∧
      f.data.mode = f.record.mode ∧ f.data.forcedAdvance = none ∧
      ∀ e, f.data.repositoryEvidence = some e →
        e.repositoryBaseSha = f.run.workspace.repositoryBaseSha := by
  have hevidence : ∀ e, f.ungated.repositoryEvidence = some e →
      e.repositoryBaseSha = f.run.workspace.repositoryBaseSha := by
    intro e he
    simp only [TemplateFacts.ungated] at he
    split at he <;> cases he
    rfl
  unfold TemplateFacts.data
  split
  · exact ⟨rfl, rfl, rfl, rfl, rfl, hevidence⟩
  · split <;> exact ⟨rfl, rfl, rfl, rfl, rfl, hevidence⟩

theorem checkBinding_filled (hfills : Fills f.data m) {binding : Option DeliveryBinding}
    (hbinding : f.delivery.map (·.1) = binding) : checkBinding binding m = .ok () := by
  obtain ⟨hiid, hurl, -⟩ := data_fields f
  have hm : m.mrIid = f.delivery.map (·.1.mrIid) ∧ m.mrUrl = f.delivery.map (·.1.mrUrl) := by
    rw [hfills.kept]
    exact ⟨hiid, hurl⟩
  subst hbinding
  cases hdelivery : f.delivery <;> simp [checkBinding, hm, hdelivery]

theorem checkDeterministic_filled (hfills : Fills f.data m) {persisted : List DeterministicCheck}
    (hpersisted : m.deterministicChecks ≠ [] → ∀ a, f.artifact = some a → a.1.check ∈ persisted) :
    checkDeterministic persisted m = .ok () := by
  have hm : m.deterministicChecks = (f.artifact.map (·.1.check)).toList := by
    rw [hfills.kept]
    exact (data_fields f).2.2.1
  cases hartifact : f.artifact with
  | none => simp [checkDeterministic, hm, hartifact]
  | some a =>
    have hmem := hpersisted (by simp [hm, hartifact]) a hartifact
    simp [checkDeterministic, hm, hartifact, hmem]

theorem checkEvidenceBase_filled (hfills : Fills f.data m) :
    checkEvidenceBase f.run m = .ok () := by
  obtain ⟨-, -, -, -, -, hbase⟩ := data_fields f
  have hevidence := hfills.evidence
  cases hm : m.repositoryEvidence with
  | none => simp [checkEvidenceBase, hm]
  | some e =>
    cases ht : f.data.repositoryEvidence with
    | none => simp [hm, ht] at hevidence
    | some e' =>
      simp only [hm, ht, Option.map_some, Option.some.injEq] at hevidence
      simp [checkEvidenceBase, hm, hevidence, hbase e' ht]

/-- A finalization is never filled in: the context of its card asks for a forced advance. -/
theorem checkFinalization_filled (cfg : Config) (items : List HistoryItem)
    (hfills : Fills f.data m) (hbody : i.task.body = .work f.record) :
    checkFinalizationContext cfg items i m = .ok () ↔ f.record.mode ≠ .finalization := by
  obtain ⟨-, -, -, hmode, hforced, -⟩ := data_fields f
  have hm : m.mode = f.record.mode ∧ m.forcedAdvance = none := by
    rw [hfills.kept]
    exact ⟨hmode, hforced⟩
  unfold checkFinalizationContext
  by_cases hnormal : f.record.mode ≠ .finalization
  · simp [hm, hnormal]
  · rw [if_neg (by simpa [hm] using hnormal), hbody]
    refine iff_of_false ?_ hnormal
    simp only [parseCardBody, hm.2]
    cases f.record.repairContext <;> simp

theorem validateCompletionIdentity_filled {w : World} (hfills : Fills f.data m)
    (hmanaged : i.managed = f.managed) (hstage : f.managed.stage = .work f.stage)
    (hid : i.task.id = f.cardId) (hbody : i.task.body = .work f.record)
    (hbinding : f.delivery.map (·.1) = w.store.deliveryBinding f.run.runKey)
    (hrecorded : ∀ a, f.artifact = some a →
      { runKey := f.run.runKey, cardId := f.cardId, check := a.1.check } ∈ w.store.validationRuns) :
    machine.eval (validateCompletionIdentity f.run i m) w = (.returned (), w) := by
  have hidentity := checkIdentity_filled hfills hmanaged hstage hid
  have hbound := checkBinding_filled hfills hbinding
  have hbase := checkEvidenceBase_filled hfills
  have hread : machine.eval (store (.deliveryBinding f.run.runKey)) w =
      (.returned (w.store.deliveryBinding f.run.runKey), w) := rfl
  obtain ⟨persisted, hpersisted, hchecks⟩ : ∃ persisted,
      machine.eval (persistedChecks f.run i m) w = (.returned persisted, w) ∧
        checkDeterministic persisted m = .ok () := by
    unfold persistedChecks
    split
    · next hnone => exact ⟨[], rfl, checkDeterministic_filled hfills fun h => absurd hnone h⟩
    · refine ⟨_, rfl, checkDeterministic_filled hfills fun _ a ha => ?_⟩
      exact List.mem_map.mpr ⟨_, List.mem_filter.mpr ⟨hrecorded a ha, by simp [hid]⟩, rfl⟩
  unfold validateCompletionIdentity
  simp only [hbody, parseCardBody, fromText]
  rw [Prog.bind_def, Prog.pure_bind, hidentity, Prog.bind_def, Prog.pure_bind, Prog.bind_def,
    machine.eval_bind_of hread, hbound, Prog.bind_def, Prog.pure_bind, Prog.bind_def,
    machine.eval_bind_of hpersisted, hchecks, Prog.bind_def, Prog.pure_bind, hbase]
  rfl

theorem tasksBaseline_eq (f : TemplateFacts) :
    f.tasksBaseline = (tasksBaselines f.record.frozenBaselines).getLast? := by
  rw [TemplateFacts.tasksBaseline, ← List.head?_filter, List.filter_reverse, List.head?_reverse]
  rfl

/-- A TASKS review that is approved by its template binds the artifact of the template. -/
theorem tasksGate_filled (hfills : Fills f.data m) (hstage : f.stage = .tasksReview)
    (hpass : f.outcome = .pass) (hnone : tasksBaselines f.record.frozenBaselines = []) :
    checkGateArtifact i m = .ok () := by
  have hbaseline : f.tasksBaseline = none := by
    rw [tasksBaseline_eq, hnone]
    rfl
  have hm : m.stage = .tasksReview ∧ m.gateArtifactPaths = m.artifactPaths ∧
      m.gateArtifactCommitSha = m.artifactCommitSha ∧ m.gateArtifactDigest = m.artifactDigest := by
    rw [hfills.kept]
    simp [TemplateFacts.data, hstage, hpass, TemplateFacts.gated, TemplateFacts.ungated,
      TemplateFacts.gatePaths, TemplateFacts.gateCommit, TemplateFacts.gateDigest, hbaseline]
  simp [checkGateArtifact, hm, sameElements]

/-- A code review that is approved by its template binds the TASKS baseline of its card, unless
that one lists its paths out of order. -/
theorem codeGate_filled {b : ArtifactBaseline} (hfills : Fills f.data m)
    (hstage : f.stage = .codeReview) (hpass : f.outcome = .pass)
    (hbaseline : tasksBaselines f.record.frozenBaselines = [b])
    (hbody : i.task.body = .work f.record) :
    checkGateArtifact i m = .ok () ↔ b.artifactPaths.Pairwise (· ≤ ·) := by
  have hlast : f.tasksBaseline = some b := by
    rw [tasksBaseline_eq, hbaseline]
    rfl
  have hm : m.stage = .codeReview ∧ m.gateArtifactPaths = b.artifactPaths ∧
      m.gateArtifactCommitSha = some b.artifactCommitSha ∧
      m.gateArtifactDigest = some b.artifactDigest := by
    rw [hfills.kept]
    simp [TemplateFacts.data, hstage, hpass, TemplateFacts.gated, TemplateFacts.ungated,
      TemplateFacts.gatePaths, TemplateFacts.gateCommit, TemplateFacts.gateDigest, hlast]
  have hmatching : (f.record.frozenBaselines.filter fun c =>
      c.phase == "tasks" && c.artifactPaths == m.gateArtifactPaths.insertionSort (· ≤ ·) &&
        some c.artifactCommitSha == m.gateArtifactCommitSha &&
        some c.artifactDigest == m.gateArtifactDigest) =
      [b].filter fun c => c.artifactPaths == b.artifactPaths.insertionSort (· ≤ ·) &&
        c.artifactCommitSha == b.artifactCommitSha && c.artifactDigest == b.artifactDigest := by
    rw [← hbaseline, tasksBaselines, List.filter_filter, hm.2.1, hm.2.2.1, hm.2.2.2]
    congr 1
    funext c
    cases c.phase == "tasks" <;> simp
  have hsorted : (b.artifactPaths == b.artifactPaths.insertionSort (· ≤ ·)) = true ↔
      b.artifactPaths.Pairwise (· ≤ ·) := by
    rw [beq_iff_eq]
    constructor
    · intro h
      rw [h]
      exact List.pairwise_insertionSort _ _
    · intro h
      exact h.insertionSort_eq.symm
  rw [checkGateArtifact, if_neg (by simp [hm.1]), hbody, ← hsorted]
  simp only [parseCardBody, hmatching]
  cases hcase : b.artifactPaths == b.artifactPaths.insertionSort (· ≤ ·) <;> simp [hcase]

end Filled

/-! ## Runs of the handler -/

section Handed

variable {E : Setting Op ControllerError World} {site : ArtifactSite} {read : ReadSite}
  {cardId : CardId} {w w' : World}

theorem fromText_run {α : Type} {r : Except String α} {a : α}
    (h : Runs machine E (fromText r) w (.returned a) w') : r = .ok a ∧ w' = w := by
  cases r with
  | ok b =>
    cases h
    exact ⟨rfl, rfl⟩
  | error text => cases h

/-- The binding that was read is the one that the store has after the read. -/
theorem deliveryBinding_run {runKey : String} {b : Option DeliveryBinding}
    (h : Runs machine E (store (.deliveryBinding runKey)) w (.returned b) w') :
    w'.store.deliveryBinding runKey = b := by
  generalize hr : Outcome.returned b = r at h
  cases h with
  | @answered _ _ _ w₁ fault a w₂ _ _ _ _ hm hk =>
    cases a with
    | error e =>
      cases hk
      cases hr
    | ok a =>
      cases hk
      obtain rfl := Outcome.returned.inj hr
      cases fault <;> simp only [Machine.meet, Prod.mk.injEq, Option.some.injEq, reduceCtorEq,
        false_and] at hm
      obtain ⟨ha, rfl⟩ := hm
      exact Except.ok.inj ha
  | stopped => cases hr

/-- A binding stays the one of its run. -/
theorem deliveryBinding_continues {s s' : Store} {runKey : String} {b : DeliveryBinding}
    (h : s.Continues s') (hb : s.deliveryBinding runKey = some b) :
    s'.deliveryBinding runKey = some b := by
  obtain ⟨rest, hrest⟩ : s.deliveryBindings <+: s'.deliveryBindings := h .bindings
  rw [Store.deliveryBinding, Option.map_eq_some_iff] at hb ⊢
  obtain ⟨entry, hentry, rfl⟩ := hb
  exact ⟨entry, by rw [← hrest, List.find?_append, hentry, Option.some_or], rfl⟩

theorem recording_kept {α : Type} {p : Service α} {r : Durable.Outcome ControllerError α}
    (hwell : w.store.WellKept) (h : Runs machine recording p w r w') : w.store.Kept w'.store :=
  Conducts.kept ⟨hwell, fun c => .refl c _⟩ (.program p h)

/-- A run with a binding has a delivery MR. -/
theorem boundDeliveryMr_run {run : RunRecord} {b : DeliveryBinding} {mr : Option MergeRequest}
    (hwell : w.store.WellKept) (hb : w.store.deliveryBinding run.runKey = some b)
    (h : Runs machine recording (boundDeliveryMr read run) w (.returned mr) w') :
    mr.isSome = true := by
  obtain ⟨binding, w₁, hread, hrest⟩ := h.bound
  have hkept := recording_kept hwell hread
  obtain rfl : some b = binding :=
    (deliveryBinding_continues hkept.history hb).symm.trans (deliveryBinding_run hread)
  obtain ⟨found, w₂, -, hpure⟩ := hrest.bound
  cases hpure
  rfl

/-- The facts are those that the handler read for the card. -/
structure TemplateFacts.ReadFrom (f : TemplateFacts) (item : HistoryItem) : Prop where
  managed : f.managed.stage = .work f.stage
  body : parseCardBody item.task.body = .ok f.record

theorem stageOfCard_ok {s : CardStage} {stage : Stage} (h : stageOfCard s = .ok stage) :
    s = .work stage := by
  cases s <;> cases h
  rfl

/-- What a template was made of, whatever the others did meanwhile. -/
theorem templateFor_run {managed : ManagedCard} {item : HistoryItem} {run : RunRecord}
    {outcome : Outcome} {t : CompletionTemplate} (hwell : w.store.WellKept)
    (h : Runs machine recording (site.templateFor read cardId outcome managed item run) w
      (.returned t) w') :
    ∃ f : TemplateFacts, f.ReadFrom item ∧ f.cardId = cardId ∧ f.managed = managed ∧ f.run = run ∧
      f.outcome = outcome ∧ site.modelValidate f.data = .ok t.metadata ∧
      t.recorded = f.artifact.map (fun a => { runKey := run.runKey, cardId, check := a.1.check }) ∧
      ∀ b, f.binding = some b → f.head.isSome = true ∧
        w'.store.deliveryBinding run.runKey = some b := by
  unfold ArtifactSite.templateFor at h
  obtain ⟨record, w₁, hrecord, hstaged⟩ := h.bound
  obtain ⟨hbody, rfl⟩ := fromText_run hrecord
  obtain ⟨stage, w₂, hstage, hguarded⟩ := hstaged.bound
  obtain ⟨hwork, rfl⟩ := fromText_run hstage
  split at hguarded
  · cases hguarded
  · obtain ⟨binding, w₃, hbinding, hdelivered⟩ := hguarded.bound
    have hwell₃ := (recording_kept hwell hbinding).well
    have hread := deliveryBinding_run hbinding
    obtain ⟨mr, w₄, hmr, hrest⟩ := hdelivered.bound
    have hhead : ∀ b, binding = some b → mr.isSome = true := fun b hb =>
      boundDeliveryMr_run hwell₃ (hread.trans hb) hmr
    have hlater : ∀ b, binding = some b → w'.store.deliveryBinding run.runKey = some b :=
      fun b hb => deliveryBinding_continues (recording_kept hwell₃ hdelivered).history
        (hread.trans hb)
    obtain ⟨artifact, w₅, -, hrest⟩ := hrest.bound
    obtain ⟨metadata, w₆, hmetadata, hpure⟩ := hrest.bound
    obtain ⟨hvalid, rfl⟩ := fromText_run hmetadata
    cases hpure
    refine ⟨_, ⟨stageOfCard_ok hwork, hbody⟩, rfl, rfl, rfl, rfl, hvalid, rfl, ?_⟩
    intro b hb
    refine ⟨?_, hlater b hb⟩
    rw [Option.isSome_map]
    exact hhead b hb

theorem managedWork_run {managed : ManagedCard} {item : HistoryItem} {run : RunRecord}
    (h : Runs machine E (managedWork cardId) w (.returned (managed, item, run)) w') :
    item.task.id = cardId ∧ ∃ items w₁,
      Runs machine E (history managed.runKey) w₁ (.returned (items, run)) w' ∧ item ∈ items := by
  unfold managedWork at h
  obtain ⟨runKeys, w₁, -, hcards⟩ := h.bound
  obtain ⟨cards, w₂, -, hfound⟩ := hcards.bound
  split at hfound
  · obtain ⟨⟨items, found⟩, w₃, hhistory, hitem⟩ := hfound.bound
    simp only at hitem
    split at hitem
    · cases hitem
    · next i hi =>
      cases hitem
      exact ⟨by simpa using List.find?_some hi, items, w₂, hhistory,
        List.mem_of_find?_eq_some hi⟩
  · cases hfound

end Handed

/-- A later state of the run that the template is of: the card is the one of the template, the
store went on, and what was recorded for the template is there. -/
structure Later (f : TemplateFacts) (t : CompletionTemplate) (s : Store) (i : HistoryItem)
    (w : World) : Prop where
  managed : i.managed = f.managed
  task : i.task.id = f.cardId
  body : i.task.body = .work f.record
  store : s.Continues w.store
  unbound : t.metadata.mrIid = none → w.store.deliveryBinding f.run.runKey = none
  recorded : ∀ row, t.recorded = some row → row ∈ w.store.validationRuns

/-- What the checks make of a completion that fills the template in. -/
structure Stands (f : TemplateFacts) (i : HistoryItem) (m : CompletionPayload) (w : World) :
    Prop where
  identity : machine.eval (validateCompletionIdentity f.run i m) w = (.returned (), w)
  finalization : ∀ cfg items,
    checkFinalizationContext cfg items i m = .ok () ↔ f.record.mode ≠ .finalization
  tasksGate : f.stage = .tasksReview → f.outcome = .pass →
    tasksBaselines f.record.frozenBaselines = [] → checkGateArtifact i m = .ok ()
  codeGate : f.stage = .codeReview → f.outcome = .pass →
    ∀ b, tasksBaselines f.record.frozenBaselines = [b] →
      (checkGateArtifact i m = .ok () ↔ b.artifactPaths.Pairwise (· ≤ ·))

/-- GitLab knows the patterns of the PRD, and the delivery MR at its head. -/
def patternedWorld : World :=
  { unstartedWorld with
    gitlab := { unstartedWorld.gitlab with
      start := fun _ => .ok
        { sampleSource with
          artifactPatterns := { spec := ["docs/prds/a/specs/spec-*.md"] } }
      mr := fun _ run _ => .ok (atHead.sampleMr firstHead run)
      check := fun _ => .ok "" } }

/-- The run has started, and its SPEC writer has pushed the first head. -/
def pushedWorld : World :=
  atHead firstHead (served [.start ⟨"g1", "k1"⟩ false sampleStart] patternedWorld)

/-- The writer has published the delivery. -/
def templateWorld : World :=
  (machine.replay (publishDelivery sampleConfig (publishRequest firstHead)) [] pushedWorld).2

def sampleSite : ArtifactSite where
  repo := mixedRepository
  file _ _ _ := .ok ("base64", "c3BlYw==")
  decode _ := some "spec"
  words := asciiWords
  order := favouring []
  digests := { documents := fun _ => digest, result := fun _ _ => digest }
  frames := 1000
  sha256 _ := digest
  repr _ := ""
  fieldError := ""
where
  digest := String.ofList (List.replicate 64 'a')

theorem atHead_store (head : String) (w : World) : (atHead head w).store = w.store := rfl

theorem templateWorld_wellKept : templateWorld.store.WellKept := by
  have hstarted := conducts_kept (s := {}) ⟨Store.wellKept_empty, fun c => .refl c _⟩
    (served_conducts [.start ⟨"g1", "k1"⟩ false sampleStart] patternedWorld)
  have hpushed : pushedWorld.store.WellKept := by
    unfold pushedWorld
    rw [atHead_store]
    exact hstarted.well
  have hpublished : Runs machine recording _ pushedWorld _ templateWorld :=
    replay_runs (fun _ => Relation.ReflTransGen.refl) (fun _ _ _ => trivial) _ [] _
  exact (recording_kept hpushed hpublished).well

/-- What a run of the handler hands out. -/
def handedOut : Durable.Outcome ControllerError CompletionTemplate → Option CompletionPayload
  | .returned t => some t.metadata.toCompletionPayload
  | _ => none

end HollysysController
