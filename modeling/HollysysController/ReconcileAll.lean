import HollysysController.Aborts
import HollysysController.Passes

/-! # The periodic pass

`reconcile_all` runs every few seconds over everything: requests that were cut
off, runs being aborted, exceptions of an older kind, the GitLab circuit,
provider cooldowns, stale workers, and last an intent for each live run. -/

namespace HollysysController

open Durable

/-! ## What a pass finds -/

/-- A request that still runs, as `running_requests` lists it. -/
inductive PersistedRequest where
  | start (draw : RunDraw) (inFlight : Bool) (r : StartRequest) (runKey : Option String)
  | resolve (inFlight : Bool) (r : ResolveRequest)
  | recover (r : RecoverRequest)
  | abortRequest (key runKey : String)
  | abortConfirm (key runKey : String)
  deriving DecidableEq, Repr

/-- What the list queries of a pass answer, in their order, and the guards it finds taken.
The columns the queries sort by are not part of the model. -/
structure Sweep where
  requests : List PersistedRequest := []
  /-- `active_abort_run_keys`. -/
  abortRuns : List String := []
  /-- `active_reconcile_run_keys`. -/
  activeRuns : List String := []
  /-- `runtime_for_run`. -/
  runtimes : String → List (ManagedCard × CardRuntime) := fun _ => []
  /-- `_begin_reconcile` finds the run taken. -/
  reconciling : String → Bool := fun _ => false
  /-- `_begin_abort` finds the run taken. -/
  aborting : String → Bool := fun _ => false
  /-- The `run_key` of a response. -/
  responseRun : String → String := id
  /-- The id drawn for a new intent. -/
  intentId : String → String := id

/-! ## Requests that were cut off -/

/-- The state of the run says that its abort was confirmed. -/
def abortRecorded (control : Option RunControl) : Option RunControl :=
  control.filter (·.state.isAborted)

def recoveredConfirmation (runKey : String) (control : RunControl) : String :=
  let reason := control.abortReason.getD ""
  let continuation := if control.state.isTerminal then "complete" else "pending-reconcile"
  s!"{runKey}|{control.state.value}|{reason}|{continuation}"

/-- `_recover_sensitive_request`: the token of an abort is never stored, so the request
cannot be replayed. -/
def recoverSensitiveRequest (key runKey : String) (confirm : Bool) : Service Unit := do
  let unavailable := s!"{runKey}|token_unavailable"
  if confirm then
    match abortRecorded (← store (.runControl runKey)) with
    | some control => store (.finishRequest key (recoveredConfirmation runKey control))
    | none => store (.finishRequest key unavailable)
  else store (.finishRequest key unavailable)

/-- `_recover_request_dependency`. -/
def recoverRequestDependency (dependency : String) : Service Unit := do
  let scope := s!"{dependency}:request"
  let now ← host .now
  match ← store (.openOutage scope) with
  | none => pure ()
  | some outage =>
    if now < outage.nextRetryAt then pure ()
    else
      let _ ← store (.recoverDependency scope)

/-- One of the scopes is in backoff. -/
def anyRetryBlocked : List String → Service Bool
  | [] => pure false
  | scope :: scopes => do
    if ← store (.retryBlocked scope) then pure true else anyRetryBlocked scopes

/-- The outages that hold a request back. -/
def requestScopes (dependencies : List String) (runKey : String) : List String :=
  dependencies.flatMap fun dependency =>
    [dependency, if runKey = "" then s!"{dependency}:request" else s!"{dependency}:{runKey}"]

/-- A request that needs GitLab waits for the open circuit. -/
def circuitOpen (dependencies : List String) : Service Bool :=
  if dependencies.contains "gitlab" then do
    let outage ← store (.openOutage "gitlab")
    pure outage.isSome
  else pure false

/-- The run of an answered request has its dependencies back. -/
def recoverAnswered (cfg : Config) (dependencies : List String) (runKey : String) :
    Service Unit :=
  if runKey = "" then pure ()
  else do
    recoverRunDependency cfg runKey "kanban"
    if dependencies.contains "gitlab" then recoverRunDependency cfg runKey "gitlab"
    else pure ()

/-- Replay a request, unless an outage of one of its dependencies holds it back. -/
def replayRequest (cfg : Config) (sweep : Sweep) (dependencies : List String) (runKey : String)
    (replay : Service String) : Service Unit := do
  if ← circuitOpen dependencies then pure ()
  else if ← anyRetryBlocked (requestScopes dependencies runKey) then pure ()
  else
    let response ← replay
    recoverAnswered cfg dependencies (sweep.responseRun response)
    dependencies.forM recoverRequestDependency

/-- The request of one row. -/
def resumeRequest (cfg : Config) (sweep : Sweep) : PersistedRequest → Service Unit
  | .abortRequest key runKey => recoverSensitiveRequest key runKey false
  | .abortConfirm key runKey => recoverSensitiveRequest key runKey true
  | .start draw inFlight r runKey =>
    replayRequest cfg sweep ["gitlab", "kanban"] (runKey.getD "") (start cfg draw inFlight r)
  | .resolve inFlight r =>
    replayRequest cfg sweep ["gitlab", "kanban"] r.runKey (resolve cfg inFlight r)
  | .recover r => replayRequest cfg sweep ["kanban"] r.runKey (recover cfg r)

/-- The handlers around a request: only a fatal error goes on. -/
def requestStep (cfg : Config) (sweep : Sweep) (q : PersistedRequest) : Service Unit := do
  match ← (resumeRequest cfg sweep q).attempt with
  | .ok _ => pure ()
  | .error e => if e.isFatal then raise e else pure ()

/-! ## Runs being aborted -/

/-- `_continue_abort`, then the recovery of the run's dependencies. -/
def abortRun (cfg : Config) (sweep : Sweep) (runKey : String) : Service Unit :=
  if sweep.aborting runKey then pure ()
  else do
    continueAbort cfg runKey
    recoverRunDependency cfg runKey "kanban"
    recoverRunDependency cfg runKey "gitlab"

/-- The handlers around the abort of a run. -/
def settleAbort (cfg : Config) (runKey : String) (e : ControllerError) : Service Unit :=
  match e with
  | .dependency .contract _ _ => enqueueControllerFailure cfg runKey e
  | .dependency kind text c => handleDependencyError cfg runKey kind text c
  | .fatal _ => raise e
  | _ => raise (.fatal s!"abort_reconcile_failed:{runKey}:{e.text}")

def abortStep (cfg : Config) (sweep : Sweep) (runKey : String) : Service Unit := do
  match ← (abortRun cfg sweep runKey).attempt with
  | .ok _ => pure ()
  | .error e => settleAbort cfg runKey e

/-! ## Exceptions of an older kind -/

/-- The reason a run got that used up its code modifications before that was an end of
the flow. -/
def isLegacyExhausted (cfg : Config) (control : RunControl) : Bool :=
  s!"code modification limit {cfg.codeModificationLimit} exhausted;".toList.isPrefixOf
    (control.lastTransitionReason.getD "").toList

/-- The failed review of an exhausted run whose test passed at the same head. -/
def exhaustedReview (items : List HistoryItem) : Except String (Option CompletionMetadata) :=
  let work := items.filter (·.isWork)
  match work.getLast? with
  | none => .ok none
  | some latest =>
    if !latest.atStage .codeReview ∨ latest.task.status ≠ .done then .ok none
    else match validatePersistedCompletionMetadata latest.task.latestMetadata with
      | .error text => .error text
      | .ok review =>
        match latestValidCompletion items .test [.pass] with
        | none => .ok none
        | some test =>
          if review.outcome ≠ .fail ∨ test.mrIid ≠ review.mrIid ∨ test.mrUrl ≠ review.mrUrl ∨
              test.headSha ≠ review.headSha ∨ work.any (·.task.status.isActive) then .ok none
          else .ok (some review)

def upgradeComment (review : CompletionMetadata) : Comment :=
  let head := review.headSha.getD "None"
  { author := "hollysys-controller"
    body := s!"[controller-terminal-upgrade:v1]\noutcome: completed_with_findings\n" ++
      s!"head_sha: {head}\n" ++
      "reason: legacy exhausted CODE exception is now a non-merge terminal outcome" }

/-- Comment on and archive the active exception cards of the run. -/
def retireExceptions (cfg : Config) (board : String) (review : CompletionMetadata) :
    List HistoryItem → Service Unit
  | [] => pure ()
  | i :: is => do
    if i.managed.purpose = .exception ∧ i.task.status.isActive then
      hermes (.comment board i.task.id (upgradeComment review))
      if ← abortManagedTask cfg board i.task.id then retireExceptions cfg board review is
      else raise (.runPolicy "worker_recovery_pending")
    else retireExceptions cfg board review is

/-- `_upgrade_legacy_exhausted_code_exception`. -/
def upgradeLegacy (cfg : Config) (sweep : Sweep) (runKey : String) : Service Unit := do
  match ← store (.runControl runKey) with
  | none => pure ()
  | some control =>
    if control.state ≠ .exception ∨ !isLegacyExhausted cfg control ∨ sweep.reconciling runKey then
      pure ()
    else
      let (items, run) ← history runKey
      let modifications ← codeModificationCount items
      if modifications < cfg.codeModificationLimit then pure ()
      else
        match ← fromText (exhaustedReview items) with
        | none => pure ()
        | some review =>
          retireExceptions cfg run.workspace.board review items
          let _ ← store (.transitionRun {
            runKey
            expectedStates := [.exception]
            newState := .active
            reason := "upgrade_legacy_exhausted_code_exception"
            expectedVersion := some control.stateVersion })
          store (.enqueueReconcile runKey "upgrade-legacy-exhausted-code-exception" none
            (sweep.intentId runKey))

/-- The handlers around the upgrade of a run. -/
def settleUpgrade (cfg : Config) (runKey : String) (e : ControllerError) : Service Unit :=
  match e with
  | .dependency kind text c => handleDependencyError cfg runKey kind text c
  | .fatal _ => raise e
  | _ => raise (.fatal s!"legacy_code_terminal_upgrade_failed:{runKey}:{e.text}")

def upgradeStep (cfg : Config) (sweep : Sweep) (runKey : String) : Service Unit := do
  match ← (upgradeLegacy cfg sweep runKey).attempt with
  | .ok _ => pure ()
  | .error e => settleUpgrade cfg runKey e

/-! ## The GitLab circuit -/

/-- A run of the open circuit waits on with it. -/
def degradeAgain (cfg : Config) (kind : DependencyKind) (c : ErrorContext) (updated : Outage)
    (runKey : String) : Service Unit := do
  match (← store (.runControl runKey)).filter (·.state == .dependencyDegraded) with
  | none => pure ()
  | some control =>
    let code := c.errorCode.getD "unavailable"
    let _ ← store (.transitionRun {
      runKey
      expectedStates := [.dependencyDegraded]
      newState := .dependencyDegraded
      reason := s!"gitlab:{kind.errorClass}:{code}"
      expectedVersion := some control.stateVersion
      nextRetryAt := some updated.nextRetryAt })
  enqueueDependencyOutage cfg runKey updated

/-- `_recover_gitlab_circuit`: GitLab is asked for its health once the backoff is over. -/
def recoverGitlabCircuit (cfg : Config) : Service Unit := do
  match ← store (.openOutage "gitlab") with
  | none => pure ()
  | some outage =>
    let now ← host .now
    if now < outage.nextRetryAt then pure ()
    else
      match ← (gitlab .health).attempt with
      | .ok _ =>
        match ← store (.recoverDependency "gitlab") with
        | none => pure ()
        | some recovered => finishDependencyRecovery cfg "gitlab" "gitlab" recovered
      | .error e =>
        match e with
        | .dependency kind _ c =>
          let updated ← store (.recordDependencyFailure (failureOf cfg "gitlab" kind c))
          let runs ← store (.outageRunKeys "gitlab" updated.outageId)
          runs.forM (degradeAgain cfg kind c updated)
        | _ => raise e

/-! ## Provider cooldowns -/

/-- The cooldown of the worker is over. -/
def cooldownOver (now : Nat) (row : CardRuntime) : Bool :=
  row.attemptStatus == "provider_cooldown" && decide (row.deadlineAt.getD 0 ≤ now)

/-- The cards of a run whose cooldown is over are released. -/
def releaseRows (runKey : String) (now : Nat) : List (ManagedCard × CardRuntime) → Service Unit
  | [] => pure ()
  | (managed, row) :: rest => do
    if cooldownOver now row then
      let session := (row.workerSessionId.filter (· != "")).getD "unknown"
      let _ ← operation (cooldownCall runKey managed.board managed.cardId session) none
        (releaseCooldown managed.board managed.cardId)
    releaseRows runKey now rest

/-- One run of `_release_provider_cooldowns`. -/
def cooldownStep (sweep : Sweep) (now : Nat) (runKey : String) : Service Unit := do
  let control ← store (.runControl runKey)
  if control.any (·.state == .active) then releaseRows runKey now (sweep.runtimes runKey)
  else pure ()

/-- `_release_provider_cooldowns`. -/
def releaseProviderCooldowns (sweep : Sweep) : Service Unit := do
  let now ← host .now
  let runs ← store .runKeys
  runs.forM (cooldownStep sweep now)

/-! ## Stale workers -/

/-- A worker whose heartbeat or progress is late. -/
structure LateWorker where
  runKey : String
  managed : ManagedCard
  row : CardRuntime
  heartbeatAge : Nat
  progressAge : Nat
  deadline : Nat

/-- The worker runs, and its heartbeat or progress is late. -/
def lateWorker (cfg : Config) (now : Nat) (runKey : String) (managed : ManagedCard)
    (row : CardRuntime) : Option LateWorker :=
  match row.workerStartedAt, row.finishedAt with
  | some startedAt, none =>
    let heartbeatAt := (row.lastHeartbeatAt.filter (· != 0)).getD startedAt
    let progressAt := (row.lastProgressEventAt.filter (· != 0)).getD startedAt
    if now - progressAt < cfg.workerSlowWarningSeconds ∧
        now - heartbeatAt ≤ cfg.workerHeartbeatStaleSeconds then none
    else some
      { runKey, managed, row
        heartbeatAge := now - heartbeatAt
        progressAge := now - progressAt
        deadline := progressAt + cfg.workerProgressLeaseSeconds }
  | _, _ => none

/-- `_enqueue_worker_lease_notice`. -/
def enqueueWorkerLeaseNotice (cfg : Config) (run : RunRecord) (x : LateWorker) (code : String) :
    Service Unit :=
  if !cfg.verboseNotices then pure ()
  else store (.enqueue
    { key := s!"{run.runKey}:worker-lease:{x.managed.cardId.text}:{x.row.attempt}:{x.deadline}:{code}"
      runKey := run.runKey
      event := "worker-lease-expired" })

/-- The fields in which an attempt must not have changed. -/
def sameAttempt (a b : CardRuntime) : Bool :=
  a.attempt == b.attempt && a.workerSessionId == b.workerSessionId &&
    a.workerPid == b.workerPid && a.deadlineAt == b.deadlineAt && a.worktree == b.worktree &&
    a.branch == b.branch && a.mrIid == b.mrIid && a.headSha == b.headSha

/-- `_watchdog_target_is_current`. -/
def watchdogTargetIsCurrent (x : LateWorker) : Service Bool := do
  let board := x.managed.board
  let id := x.managed.cardId
  let control ← store (.runControl x.runKey)
  if !control.any (·.state == .active) then pure false
  else
    match ← hermes (.task board id) with
    | none => pure false
    | some task =>
      if task.status ≠ .running then pure false
      else
        match ← store (.cardRuntime board id) with
        | none => pure false
        | some current =>
          let identity := workerIdentity board id (some current) task
          pure (identity.isSome && identity == workerIdentity board id (some x.row) task &&
            sameAttempt current x.row)

/-- The delivery MR, once the row is found to be about it. -/
def watchedMr (run : RunRecord) (x : LateWorker) : Service (Option MergeRequest) := do
  let binding ← store (.deliveryBinding run.runKey)
  match x.row.mrIid.filter (· != 0) with
  | none => boundDeliveryMr .watchdog run
  | some iid =>
    if binding.any (·.mrIid == iid) then boundDeliveryMr .watchdog run
    else raise (.valueError "runtime MR is not the persisted delivery binding")

/-- The worktree, the row and the MR agree. -/
def mrEvidenceMatches (x : LateWorker) (workspaceHead : String) :
    Option MergeRequest → Bool
  | none => x.managed.stage == .work .specWrite && x.managed.iteration == 1 &&
      (x.row.mrIid.filter (· != 0)).isNone && !truthy x.row.headSha
  | some mr => mr.iid != 0 && mr.head != "" && mr.head == workspaceHead &&
      (x.row.mrIid.filter (· != 0)).all (· == mr.iid) &&
      (x.row.headSha.filter (· != "")).all (· == mr.head)

/-- The worktree or the MR moved while the worker was stopped. -/
def externalChanged (run : RunRecord) (workspaceHead : String) (after : WorkspaceState) :
    Option MergeRequest → Option MergeRequest → Bool
  | before, mrAfter =>
    !after.ok || after.branch != run.workspace.branch || after.headSha != workspaceHead ||
      match before, mrAfter with
      | none, none => false
      | some mr, some mrAfter => mrAfter.iid != mr.iid || mrAfter.head != mr.head
      | _, _ => true

/-- The recovery of a late worker, checked before and after its exit is confirmed. -/
def recoverLateWorker (cfg : Config) (run : RunRecord) (x : LateWorker) (identity : WorkerIdentity)
    (workspaceHead : String) (mr : Option MergeRequest) : Service Unit := do
  if !(← watchdogTargetIsCurrent x) then pure ()
  else if !(← host (.exitConfirmed identity)) then
    enqueueWorkerLeaseNotice cfg run x "liveness_unconfirmed"
  else if !(← watchdogTargetIsCurrent x) then
    enqueueWorkerLeaseNotice cfg run x "attempt_cas_changed"
  else
    let after ← host (.workspace run)
    let mrAfter ← boundDeliveryMr .watchdogAfter run
    if externalChanged run workspaceHead after mr mrAfter then
      enqueueWorkerLeaseNotice cfg run x "external_cas_changed"
    else if cfg.workerRedispatchLimit ≤ x.row.redispatchCount then
      exhaustedWorker cfg run x.managed x.row identity
    else redispatchWorker cfg run x.managed x.row identity

/-- The handlers around the recovery of a late worker. -/
def settleLateWorker (cfg : Config) (runKey : String) (e : ControllerError) : Service Unit :=
  match e with
  | .dependency .contract _ _ => recordRunException cfg runKey e
  | .dependency kind text c => handleDependencyError cfg runKey kind text c
  | _ => raise e

/-- A late worker whose heartbeat and progress are both overdue. The answer is whether
the next worker of the run is looked at. -/
def checkOverdue (cfg : Config) (sweep : Sweep) (run : RunRecord) (x : LateWorker)
    (task : TaskRecord) (identity : WorkerIdentity) : Service Bool := do
  if x.row.profile ≠ task.assignee ∨ x.row.worktree ≠ some run.workspace.worktree ∨
      x.row.branch ≠ some run.workspace.branch then
    enqueueWorkerLeaseNotice cfg run x "identity_mismatch"
    pure true
  else
    let workspace ← host (.workspace run)
    if !workspace.ok ∨ workspace.branch ≠ run.workspace.branch ∨ workspace.headSha = "" then
      enqueueWorkerLeaseNotice cfg run x
        ((workspace.errorCode.filter (· != "")).getD "workspace_evidence_incomplete")
      pure true
    else
      match ← (watchedMr run x).attempt with
      | .error e =>
        match e with
        | .dependency kind text c =>
          handleDependencyError cfg x.runKey kind text c
          enqueueWorkerLeaseNotice cfg run x
            ((c.errorCode.filter (· != "")).getD kind.errorClass)
          pure false
        | _ => raise e
      | .ok mr =>
        if !mrEvidenceMatches x workspace.headSha mr then
          enqueueWorkerLeaseNotice cfg run x "mr_head_mismatch"
          pure true
        else if sweep.reconciling x.runKey then pure true
        else
          match ← (recoverLateWorker cfg run x identity workspace.headSha mr).attempt with
          | .ok _ => pure true
          | .error e =>
            settleLateWorker cfg x.runKey e
            pure true

/-- A late worker of a run that can be read. -/
def checkLateWorker (cfg : Config) (sweep : Sweep) (run : RunRecord) (x : LateWorker)
    (task : TaskRecord) : Service Bool := do
  match workerIdentity x.managed.board x.managed.cardId (some x.row) task with
  | none =>
    enqueueWorkerLeaseNotice cfg run x "identity_mismatch"
    pure true
  | some identity =>
    if x.heartbeatAge ≤ cfg.workerHeartbeatStaleSeconds then
      enqueueWorkerLeaseNotice cfg run x
        (if cfg.workerProgressLeaseSeconds ≤ x.progressAge then "stuck_alive" else "slow_alive")
      pure true
    else if x.progressAge < cfg.workerProgressLeaseSeconds then
      host (.probe identity)
      enqueueWorkerLeaseNotice cfg run x "liveness_unconfirmed"
      pure true
    else checkOverdue cfg sweep run x task identity

/-- The handlers around the history of a watched run. -/
def settleWatched (cfg : Config) (runKey : String) (e : ControllerError) : Service Unit :=
  match e with
  | .dependency .contract _ _ | .valueError _ | .checkedHeadConflict _ =>
    recordRunException cfg runKey e
  | .dependency kind text c => handleDependencyError cfg runKey kind text c
  | _ => raise e

/-- `Stage(runtime["stage"])`. -/
def ManagedCard.workStage (c : ManagedCard) : Except String Stage :=
  match c.stage with
  | .work s => .ok s
  | stage => .error s!"'{stage.value}' is not a valid Stage"

/-- One late worker. The answer is whether the next worker of the run is looked at. -/
def watchWorker (cfg : Config) (sweep : Sweep) (x : LateWorker) : Service Bool := do
  match ← (hermes (.task x.managed.board x.managed.cardId)).attempt with
  | .error e =>
    match e with
    | .dependency kind text c =>
      handleDependencyError cfg x.runKey kind text c
      pure false
    | _ => raise e
  | .ok none => pure true
  | .ok (some task) =>
    if task.status ≠ .running then pure true
    else
      match ← (history x.runKey).attempt with
      | .error e =>
        settleWatched cfg x.runKey e
        pure false
      | .ok (_, run) =>
        let _ ← fromText x.managed.workStage
        checkLateWorker cfg sweep run x task

/-- The workers of one run. -/
def watchRows (cfg : Config) (sweep : Sweep) (now : Nat) (runKey : String) :
    List (ManagedCard × CardRuntime) → Service Unit
  | [] => pure ()
  | (managed, row) :: rest =>
    match lateWorker cfg now runKey managed row with
    | none => watchRows cfg sweep now runKey rest
    | some x => do
      if ← watchWorker cfg sweep x then watchRows cfg sweep now runKey rest else pure ()

/-- One run of `_enqueue_stale_worker_notices`. -/
def watchdogStep (cfg : Config) (sweep : Sweep) (now : Nat) (runKey : String) : Service Unit := do
  let control ← store (.runControl runKey)
  if control.any (·.state != .active) then pure ()
  else watchRows cfg sweep now runKey (sweep.runtimes runKey)

/-- `_enqueue_stale_worker_notices`. -/
def enqueueStaleWorkerNotices (cfg : Config) (sweep : Sweep) : Service Unit := do
  let now ← host .now
  let runs ← store .runKeys
  runs.forM (watchdogStep cfg sweep now)

/-! ## The pass -/

/-- `reconcile_all`. -/
def reconcileAll (cfg : Config) (sweep : Sweep) : Service Unit := do
  sweep.requests.forM (requestStep cfg sweep)
  sweep.abortRuns.forM (abortStep cfg sweep)
  let runs ← store .runKeys
  runs.forM (upgradeStep cfg sweep)
  if ← store (.retryBlocked "gitlab") then pure ()
  else
    recoverGitlabCircuit cfg
    if ← store (.retryBlocked "gitlab") then pure ()
    else
      releaseProviderCooldowns sweep
      enqueueStaleWorkerNotices cfg sweep
      sweep.activeRuns.forM fun runKey =>
        store (.enqueueReconcile runKey "periodic-full-reconcile" none (sweep.intentId runKey))

end HollysysController
