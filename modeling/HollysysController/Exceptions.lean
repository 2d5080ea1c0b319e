import HollysysController.Validation

/-! # Exceptions

How a run leaves its flow: the exception card with the parent card archived
first, the notices, and what the callers of a reconcile do with an error. -/

namespace HollysysController

open Durable

/-! ## Notices -/

/-- `_enqueue_progress`. The minimal level keeps only what asks to be kept. -/
def enqueueProgress (cfg : Config) (run : RunRecord) (eventKey : String)
    (allowMinimal : Bool) : Service Unit :=
  if !cfg.progressNotices && !allowMinimal then pure ()
  else store (.enqueue
    { key := s!"{run.runKey}:progress:{eventKey}", runKey := run.runKey, event := "progress" })

/-- The run that a failure notice is about: the body of its root card, or the
record when there is no root to read. -/
def noticeRun (runKey : String) : Service (Option RunRecord) := do
  let cards ← store (.cardsForRun runKey)
  match cards.find? (·.purpose == .root) with
  | none => store (.runRecord runKey)
  | some root =>
    match ← hermes (.task root.board root.cardId) with
    | none => store (.runRecord runKey)
    | some task =>
      match parseRunBody task.body with
      | .ok run => pure (some run)
      | .error _ => pure none

/-- `_enqueue_controller_failure`. -/
def enqueueControllerFailure (cfg : Config) (runKey : String) (e : ControllerError) :
    Service Unit := do
  match ← noticeRun runKey with
  | none => pure ()
  | some _ =>
    let suffix := clip 12 (cfg.sha256 s!"{e.className}: {e.text}")
    store (.enqueue
      { key := s!"{runKey}:controller-failure:{suffix}", runKey, event := "controller-failure" })

/-! ## Stopping a worker -/

/-- `_runtime_attempt_run_id`. -/
def CardRuntime.attemptRunId (row : CardRuntime) : Option Nat :=
  let session := (row.workerSessionId.getD "").toList
  let marker := "kanban-run:".toList
  if marker.isPrefixOf session then
    ((String.ofList (session.drop marker.length)).toNat?).filter (0 < ·)
  else none

/-- `_worker_identity`: the runtime row and the task name the same attempt. -/
def workerIdentity (board : String) (id : CardId) (runtime : Option CardRuntime)
    (task : TaskRecord) : Option WorkerIdentity :=
  runtime.bind fun row =>
    match row.attemptRunId, row.workerPid with
    | some runId, some pid =>
      if pid ≤ 1 ∨ task.currentRunId ≠ some runId ∨ task.workerPid ≠ some pid then none
      else some { board, cardId := id, runId, workerPid := pid }
    | _, _ => none

/-- `_record_reclaimed_attempt`. -/
def recordReclaimedAttempt (cfg : Config) (i : WorkerIdentity) : Service Unit := do
  let now ← host .now
  store (.recordCardRuntimeEvent {
    board := i.board
    cardId := i.cardId
    kind := "reclaimed"
    createdAt := now
    workerSessionId := some s!"kanban-run:{i.runId}"
    workerPid := some i.workerPid
    leaseSeconds := cfg.workerProgressLeaseSeconds
    runId := some s!"{i.board}:{i.runId}" })

/-- The running part of `_abort_managed_task`: archive the card once the
Supervisor confirms the exit of its worker and the attempt is still the same. -/
def abortRunningTask (cfg : Config) (board : String) (id : CardId) (task : TaskRecord) :
    Service Bool := do
  let runtime ← store (.cardRuntime board id)
  match workerIdentity board id runtime task with
  | none => pure false
  | some identity =>
    if !(← host (.exitConfirmed identity)) then pure false
    else
      let currentTask ← hermes (.task board id)
      let currentRuntime ← store (.cardRuntime board id)
      if currentTask.bind (workerIdentity board id currentRuntime) ≠ some identity then pure false
      else
        abortTask board id (some (identity.runId, identity.workerPid))
        recordReclaimedAttempt cfg identity
        pure true

/-- `_abort_managed_task`: whether the card is archived now. -/
def abortManagedTask (cfg : Config) (board : String) (id : CardId) : Service Bool := do
  match ← hermes (.task board id) with
  | none => pure true
  | some task =>
    if task.status = .archived then pure true
    else if task.status ≠ .running then
      abortTask board id none
      pure true
    else
      let managed ← store (.managedCard board id)
      if managed.any (·.purpose == .root) && task.workerPid.isNone then
        archiveControllerTask board id
        pure true
      else abortRunningTask cfg board id task

/-- Cancel a card that a superseded pass has created. What goes wrong is logged. -/
def withdrawCard (cfg : Config) (board : String) (id : CardId) : Service Unit := do
  let _ ← (abortManagedTask cfg board id).attempt
  pure ()

/-- `_assert_reconcile_mutable` after a card was recorded: the card goes when the
run was moved away meanwhile. -/
def assertMutableOrWithdraw (cfg : Config) (runKey board : String) (id : CardId) :
    Service Unit := do
  match ← (assertReconcileMutable runKey).attempt with
  | .ok _ => pure ()
  | .error e =>
    if e.isSuperseded then withdrawCard cfg board id
    raise e

/-! ## Entering exception -/

def scratchDir (cfg : Config) (run : RunRecord) (key : String) : String :=
  s!"/opt/data/scratch/{run.runGeneration}/{clip 20 (cfg.sha256 key)}"

def exceptionSuffix (cfg : Config) (reason : String) : String := clip 12 (cfg.sha256 reason)

def exceptionKey (cfg : Config) (run : RunRecord) (reason : String) : String :=
  s!"{run.runKey}:exception:{exceptionSuffix cfg reason}:work"

def exceptionRecord (cfg : Config) (run : RunRecord) (parent : CardId) (reason : String) :
    ExceptionCardRecord where
  run
  parentCardId := parent
  idempotencyKey := exceptionKey cfg run reason
  reason := clip 1000 reason
  scratchDir := scratchDir cfg run (exceptionKey cfg run reason)

/-- What `_exception` checks of the task it got under its key. -/
def exceptionIntent (run : RunRecord) (parent : CardId) (key : String) (t : TaskRecord) : Bool :=
  t.createdBy == some "hollysys-controller" && t.idempotencyKey == some key &&
    t.tenant == some run.runKey && t.assignee == some "dispatcher" && t.parents == [parent] &&
    t.skills.contains "hollysys-dispatch-kanban"

def exceptionCard (run : RunRecord) (parent : CardId) (key : String) (t : TaskRecord) :
    ManagedCard where
  board := run.workspace.board
  cardId := t.id
  runKey := run.runKey
  stage := .exception
  iteration := 1
  idempotencyKey := key
  parentCardId := some parent
  purpose := .exception
  createdAt := t.createdAt

/-- The first part of `_exception`: an active parent card is archived. -/
def archiveParent (cfg : Config) (run : RunRecord) (parent : CardId) : Service Unit := do
  let _ ← assertReconcileMutable run.runKey
  match ← hermes (.task run.workspace.board parent) with
  | none => pure ()
  | some task =>
    if task.status.isActive then
      if !(← abortManagedTask cfg run.workspace.board parent) then
        raise (.runPolicy "worker_recovery_pending")
      else pure ()
    else pure ()

/-- The second part of `_exception`: the exception card is created and recorded. -/
def recordExceptionCard (cfg : Config) (run : RunRecord) (parent : CardId) (reason : String) :
    Service TaskRecord := do
  let key := exceptionKey cfg run reason
  host (.scratch (scratchDir cfg run key))
  let task ← createExceptionTask (exceptionRecord cfg run parent reason)
  if !exceptionIntent run parent key task then
    raise (.valueError s!"created exception card {task.id.text} does not match intent")
  else
    store (.addManagedCard (exceptionCard run parent key task))
    pure task

/-- The third part of `_exception`: the run enters exception. -/
def enterException (cfg : Config) (run : RunRecord) (id : CardId) (reason : String) :
    Service Unit := do
  assertMutableOrWithdraw cfg run.runKey run.workspace.board id
  match ← (store (.setRunException run.runKey reason)).attempt with
  | .ok _ => pure ()
  | .error e =>
    if e.isValueError then
      let control ← runControl run.runKey
      if control.state.isReconcilable ∨ control.state = .exception then raise e
      else
        withdrawCard cfg run.workspace.board id
        raise (.superseded
          s!"exception_transition_superseded:{run.runKey}:{control.state.value}")
    else raise e

/-- `_exception`. -/
def exception (cfg : Config) (run : RunRecord) (parent : CardId) (reason : String) :
    Service TaskRecord := do
  archiveParent cfg run parent
  let task ← recordExceptionCard cfg run parent reason
  enterException cfg run task.id reason
  store (.enqueue
    { key := s!"{run.runKey}:exception:{exceptionSuffix cfg reason}", runKey := run.runKey,
      event := "exception" })
  pure task

/-! ## Handling errors -/

/-- `_record_run_exception`. -/
def recordRunException (cfg : Config) (runKey : String) (e : ControllerError) : Service Unit := do
  match ← store (.runControl runKey) with
  | none => pure ()
  | some control =>
    if control.state.isReconcilable then
      let _ ← store (.setRunException runKey e.text)
      enqueueControllerFailure cfg runKey e
    else pure ()

end HollysysController
