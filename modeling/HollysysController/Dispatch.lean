import HollysysController.Dependencies

/-! # Dispatching work

How the Controller creates, records and publishes the next work card of a run.
The card carries the frozen baselines, read again from the whole history, and
a repair replaces it when the MR head no longer keeps them. -/

namespace HollysysController

open Durable

/-! ## Frozen baselines -/

/-- The document phases with their producer and reviewer stages. -/
def phaseContracts : List (String × Stage × Stage) :=
  [("spec", .specWrite, .specReview),
   ("plan", .planWrite, .planReview),
   ("tasks", .tasksWrite, .tasksReview)]

/-- The baseline of the PRD the run started from. -/
def sourceBaseline (cfg : Config) (run : RunRecord) (root : CardId) : ArtifactBaseline where
  phase := "prd"
  disposition := .source
  artifactPaths := [run.source.prdPath]
  artifactDigest := cfg.sha256 s!"{run.source.prdPath}\x00{run.source.prdBlobSha}\n"
  artifactCommitSha := run.source.prdCommitSha
  sourceCardId := root

/-- The completion freezes the artifact of its phase: a review PASS of the
reviewer stage or a finalization PASS of the producer stage. -/
def freezes (producer reviewer : Stage) (m : CompletionPayload) : Bool :=
  (m.stage == reviewer && m.outcome == .pass && m.baselineDisposition == some .reviewed) ||
    (m.stage == producer && m.mode == .finalization && m.outcome == .pass &&
      m.baselineDisposition == some .forcedAfterReviewLimit)

def decisionUrls (m : CompletionPayload) : List String :=
  match m.forcedAdvance with
  | some f => if m.gitlabUrls.contains f.decisionUrl then m.gitlabUrls
      else m.gitlabUrls ++ [f.decisionUrl]
  | none => m.gitlabUrls

/-- The baseline a freezing completion stands for. The contract of a completion
gives it a digest, a commit and a disposition. -/
def baselineOf (phase : String) (m : CompletionPayload) : ArtifactBaseline where
  phase
  disposition := m.baselineDisposition.getD .reviewed
  artifactPaths := m.artifactPaths
  artifactDigest := m.artifactDigest.getD ""
  artifactCommitSha := m.artifactCommitSha.getD ""
  sourceCardId := m.kanbanCardId
  decisionUrls := decisionUrls m
  keyDecisions := m.keyDecisions
  unresolvedFindings := (m.forcedAdvance.map (·.unresolvedFindings)).getD []
  residualRisk := m.residualRisk

/-- The completion of a done card of the phase, when it passes the checks that
`_frozen_baselines` makes again. -/
def baselineCompletion (run : RunRecord) (i : HistoryItem) : Service CompletionMetadata := do
  let m ← fromText (validatePersistedCompletionMetadata i.task.latestMetadata)
  validateCompletionContext (.baseline i.task.id) run i m.toCompletionPayload false
  pure m

/-- The item is looked at for the baseline of the phase. -/
def baselineItem (producer reviewer : Stage) (i : HistoryItem) : Bool :=
  i.isWork && i.task.status == .done && (i.atStage producer || i.atStage reviewer)

def nextCandidate (producer reviewer : Stage) (read : Except String CompletionMetadata)
    (candidate : Option CompletionMetadata) : Option CompletionMetadata :=
  match read with
  | .ok m => if freezes producer reviewer m.toCompletionPayload then some m else candidate
  | .error _ => candidate

/-- The last completion of the phase that freezes its artifact. -/
def baselineCandidate (run : RunRecord) (producer reviewer : Stage) :
    List HistoryItem → Option CompletionMetadata → Service (Option CompletionMetadata)
  | [], candidate => pure candidate
  | i :: is, candidate => do
    if baselineItem producer reviewer i then
      let read ← caught (baselineCompletion run i)
      baselineCandidate run producer reviewer is (nextCandidate producer reviewer read candidate)
    else baselineCandidate run producer reviewer is candidate

/-- Phase after phase, up to the first without a baseline. -/
def phaseBaselines (run : RunRecord) (items : List HistoryItem) :
    List (String × Stage × Stage) → Service (List ArtifactBaseline)
  | [] => pure []
  | (phase, producer, reviewer) :: rest => do
    match ← baselineCandidate run producer reviewer items none with
    | none => pure []
    | some m =>
      let baselines ← phaseBaselines run items rest
      pure (baselineOf phase m.toCompletionPayload :: baselines)

/-- `_frozen_baselines`. -/
def frozenBaselines (cfg : Config) (items : List HistoryItem) (run : RunRecord) :
    Service (List ArtifactBaseline) := do
  match items.find? (·.isRoot) with
  | none => raise (.runtimeError "StopIteration")
  | some root =>
    let baselines ← phaseBaselines run items phaseContracts
    pure (sourceBaseline cfg run root.task.id :: baselines)

/-- The first baseline that does not hold at `ref`. -/
def violationAt (run : RunRecord) (ref : String) :
    List ArtifactBaseline → Service (Option String)
  | [] => pure none
  | b :: bs => do
    match ← caught (gitlab (.check (.baselineAtRef run b ref))) with
    | .ok _ => violationAt run ref bs
    | .error text => pure (some s!"{b.phase}: {text}")

/-- `_frozen_violation`. -/
def frozenViolation (cfg : Config) (run : RunRecord) (items : List HistoryItem)
    (ref : String) : Service (Option String) := do
  let baselines ← frozenBaselines cfg items run
  violationAt run ref baselines

/-! ## Publishing -/

def releaseCall (board key : String) (id : CardId) (version : Nat) : OperationCall where
  key := s!"{key}:release"
  kind := "release"
  payload := .release board id
  expectedStateVersion := some version

/-- `_ensure_work_published`. -/
def ensureWorkPublished (run : RunRecord) (task : TaskRecord) : Service TaskRecord := do
  let control ← assertReconcileMutable run.runKey
  let record ← fromText (parseCardBody task.body)
  let board := run.workspace.board
  let _ ← operation (releaseCall board record.idempotencyKey task.id control.stateVersion)
    (some run.runKey) do
      release board task.id
      pure (.card task.id)
  match ← hermes (.task board task.id) with
  | none => raise (.runtimeError s!"released card {task.id.text} disappeared")
  | some refreshed => pure refreshed

/-! ## The work order -/

/-- What a new work card is made from. -/
structure WorkOrder where
  stage : Stage
  parent : CardId
  mode : WorkMode := .normal
  repairContext : Option RepairContext := none
  resumeAnswer : Option String := none
  resumedFrom : Option CardId := none
  deriving DecidableEq, Repr

def restoreIssue : String := "恢复冻结工件后再完成 finalization。 "

def adaptIssue : String :=
  "恢复冻结工件到 Controller 提供的基线；只在当前阶段吸收必要适配。 "

/-- The order of a repair card after a violation of the frozen baselines. -/
def WorkOrder.repaired (o : WorkOrder) (violation : String) : WorkOrder :=
  let stage := producerForPhase (phaseForStage o.stage)
  match o.mode, o.repairContext with
  | .finalization, some context =>
    { o with stage, repairContext := some { context with
        issues := context.issues ++ [restoreIssue ++ violation] } }
  | _, context =>
    { o with stage, mode := .normal, repairContext := some {
        kind := .frozenArtifactViolation
        triggerCardId := o.parent
        issues := (context.map (·.issues)).getD [] ++ [adaptIssue ++ violation] } }

def WorkOrder.isFrozenRepair (o : WorkOrder) : Bool :=
  o.repairContext.any (·.kind == .frozenArtifactViolation)

/-- The order after the preflight against the frozen baselines at the MR head. -/
def preflightOrder (cfg : Config) (run : RunRecord) (items : List HistoryItem)
    (mr : Option MergeRequest) (o : WorkOrder) : Service WorkOrder :=
  match mr with
  | none => pure o
  | some mr =>
    if mr.head = "" ∨ o.isFrozenRepair then pure o
    else do
      match ← frozenViolation cfg run items mr.head with
      | none => pure o
      | some violation =>
        let phase := phaseForStage o.stage
        enqueueProgress cfg run
          s!"{phase.value}:preflight-frozen-repair:{clip 12 (cfg.sha256 violation)}" false
        pure (o.repaired violation)

/-- The run states in which a refused worker profile still parks the run. -/
def admissionStates : List RunState :=
  [.active, .transitionPending, .dependencyDegraded, .mergeWait, .retryWait]

/-- Park the run when the profile of its next worker is not admitted. -/
def refuseProfile (cfg : Config) (run : RunRecord) (assignee errorCode : String) :
    Service Unit := do
  let control ← runControl run.runKey
  let now ← host .now
  if control.state ∈ admissionStates then
    let wait := errorCode == "dependency_unavailable" || errorCode == "rate_limited"
    let _ ← store (.transitionRun {
      runKey := run.runKey
      expectedStates := [control.state]
      newState := if wait then .retryWait else .humanBlocked
      reason := s!"profile_admission:{assignee}:{errorCode}"
      expectedVersion := some control.stateVersion
      nextRetryAt := if wait then some (now + cfg.dependencyBackoffInitialSeconds) else none })
  raise (.runPolicy s!"profile_admission_failed:{assignee}:{errorCode}")

/-- After a deep deployment preflight each worker profile is admitted on its own. -/
def admitProfile (cfg : Config) (run : RunRecord) (assignee : String) : Service Unit := do
  if ← store .deepPreflight then
    match ← host (.profilePreflight assignee) with
    | none => pure ()
    | some errorCode => refuseProfile cfg run assignee errorCode
  else pure ()

/-- The number of cards of the stage in the ledger. -/
def stageCards (cards : List ManagedCard) (s : Stage) : Nat :=
  cards.countP fun c => c.purpose == .work && c.stage == .work s

def workKey (run : RunRecord) (s : Stage) (iteration : Nat) (mode : WorkMode) : String :=
  s!"{run.runKey}:{s.value}:{iteration}:{mode.value}:work"

/-- The body of the card before its digest is computed. -/
def draftRecord (cfg : Config) (run : RunRecord) (o : WorkOrder) (iteration : Nat)
    (baselines : List ArtifactBaseline) (head : String) (binding : Option DeliveryBinding) :
    CardRecord :=
  let key := workKey run o.stage iteration o.mode
  { run
    stage := o.stage
    iteration
    mode := o.mode
    idempotencyKey := key
    parentCardId := o.parent
    assignee := cfg.stageAssignees o.stage
    skills := cfg.stageSkills o.stage
    frozenBaselines := baselines
    repairContext := o.repairContext.map fun c => { c with frozenBaselines := baselines }
    resumeAnswer := o.resumeAnswer
    resumedFromCardId := o.resumedFrom
    expectedHeadSha := some head
    contextDigest := ""
    scratchDir := scratchDir cfg run key
    delivery := binding }

/-- The card record with the digest of its context. The head must be a SHA. -/
def workRecord (cfg : Config) (draft : CardRecord) : Except String CardRecord :=
  if draft.expectedHeadSha.all isSha then
    .ok { draft with contextDigest := cfg.contextDigest draft }
  else .error "String should match pattern '^[0-9a-f]\x7b40\x7d$'"

def workCard (record : CardRecord) (t : TaskRecord) : ManagedCard where
  board := record.run.workspace.board
  cardId := t.id
  runKey := record.run.runKey
  stage := .work record.stage
  iteration := record.iteration
  idempotencyKey := record.idempotencyKey
  parentCardId := some record.parentCardId
  purpose := .work
  createdAt := t.createdAt

/-- Create the Hermes task of the record and enter it in the ledger. -/
def recordWorkCard (cfg : Config) (record : CardRecord) : Service TaskRecord := do
  host (.scratch record.scratchDir)
  let task ← createWorkTask record
  fromExcept (verifyWork task record)
  store (.addManagedCard (workCard record task))
  assertMutableOrWithdraw cfg record.run.runKey record.run.workspace.board task.id
  store (.registerCardAttempt {
    board := record.run.workspace.board
    cardId := task.id
    profile := record.assignee
    dispatchKey := record.idempotencyKey
    worktree := record.run.workspace.worktree
    branch := record.run.workspace.branch })
  pure task

/-- Publish the card, or cancel it when the run was moved away meanwhile. -/
def publishOrWithdraw (cfg : Config) (run : RunRecord) (task : TaskRecord) :
    Service TaskRecord := do
  match ← (ensureWorkPublished run task).attempt with
  | .ok refreshed => pure refreshed
  | .error e =>
    if e.isSuperseded then withdrawCard cfg run.workspace.board task.id
    raise e

/-- The first part of `_create_work`: read everything the card depends on. -/
def composeWork (cfg : Config) (run : RunRecord) (o : WorkOrder) : Service CardRecord := do
  let _ ← assertReconcileMutable run.runKey
  let (items, _) ← history run.runKey
  let baselines ← frozenBaselines cfg items run
  let mr ← boundDeliveryMr .dispatch run
  let _ ← assertReconcileMutable run.runKey
  let o ← preflightOrder cfg run items mr o
  let cards ← store (.cardsForRun run.runKey)
  admitProfile cfg run (cfg.stageAssignees o.stage)
  let binding ← store (.deliveryBinding run.runKey)
  let head := match mr with
    | some mr => if mr.head = "" then run.workspace.repositoryBaseSha else mr.head
    | none => run.workspace.repositoryBaseSha
  fromText (workRecord cfg
    (draftRecord cfg run o (stageCards cards o.stage + 1) baselines head binding))

/-- `_create_work`, the card published at once. -/
def createWork (cfg : Config) (run : RunRecord) (o : WorkOrder) : Service TaskRecord := do
  let record ← composeWork cfg run o
  let task ← recordWorkCard cfg record
  publishOrWithdraw cfg run task

/-! ## What the work order says -/

/-- A repair after a violation goes to the producer of the same phase. -/
theorem WorkOrder.repaired_stage (o : WorkOrder) (violation : String) :
    (o.repaired violation).stage = producerForPhase (phaseForStage o.stage) := by
  unfold repaired
  split <;> rfl

/-- Every repair after a violation says what to restore. -/
theorem WorkOrder.repaired_issues (o : WorkOrder) (violation : String) :
    ∃ c, (o.repaired violation).repairContext = some c ∧
      (c.issues.getLast? = some (restoreIssue ++ violation) ∨
        c.issues.getLast? = some (adaptIssue ++ violation)) := by
  unfold repaired
  split <;> exact ⟨_, rfl, by simp⟩

/-- The record of a composed card keeps everything but the digest of its draft. -/
theorem workRecord_ok {cfg : Config} {draft record : CardRecord}
    (h : workRecord cfg draft = .ok record) :
    record = { draft with contextDigest := cfg.contextDigest draft } := by
  unfold workRecord at h
  split at h
  · cases h
    rfl
  · cases h

end HollysysController
