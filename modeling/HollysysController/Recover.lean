import HollysysController.Reconcile

/-! # Recovering a run

A human takes a run out of exception: its exception cards are archived, the
run is active again, and what the exception interrupted is done anew. -/

namespace HollysysController

open Durable

/-! ## Initialization -/

/-- One ledgered preparation step of a run. -/
def prepareStep (run : RunRecord) (step : String) (details : List String) : Service Unit := do
  let _ ← operation
    { key := s!"{run.runKey}:{step}", kind := step, payload := .prepare run.runKey details }
    none do
      host (.prepare step run)
      pure (.prepared step)
  pure ()

def rootArgs (run : RunRecord) : CreateArgs where
  board := run.workspace.board
  body := .run run
  assignee := none
  parents := []
  tenant := run.runKey
  idempotencyKey := s!"{run.runKey}:run-init"
  skills := []

def rootCard (run : RunRecord) (t : TaskRecord) : ManagedCard where
  board := run.workspace.board
  cardId := t.id
  runKey := run.runKey
  stage := .runInit
  iteration := 0
  idempotencyKey := s!"{run.runKey}:run-init"
  parentCardId := none
  purpose := .root
  createdAt := t.createdAt

/-- Create the root card of the run and enter it in the ledger. -/
def recordRootCard (run : RunRecord) : Service TaskRecord := do
  let root ← createTask (rootArgs run) none "created run-init card was not readable"
  fromExcept (verifyRoot root run)
  store (.addManagedCard (rootCard run root))
  pure root

/-- `_initialize_run`: the first work card. -/
def initializeRun (cfg : Config) (run : RunRecord) : Service TaskRecord := do
  let base := run.workspace.repositoryBaseSha
  prepareStep run "remote-branch" [run.workspace.branch, base]
  prepareStep run "workspace" [base]
  if ← store .deepPreflight then prepareStep run "offline-caches" [run.workspace.worktree]
  prepareStep run "board" [run.workspace.board, run.workspace.worktree]
  let root ← recordRootCard run
  let _ ← operation
    { key := s!"{run.runKey}:complete-root", kind := "complete-root",
      payload := .completeRoot run.workspace.board root.id }
    none do
      completeRoot run.workspace.board root.id
      pure (.card root.id)
  let first ← createWork cfg run { stage := .specWrite, parent := root.id }
  enqueueProgress cfg run "run-accepted" false
  enqueueProgress cfg run s!"{Phase.spec.value}:started" false
  pure first

/-! ## The request -/

/-- `RecoverRequest`. -/
structure RecoverRequest where
  messageId : String
  runKey : String
  reason : String
  sender : String
  chatId : String
  threadId : Option String := none
  deriving DecidableEq, Repr

def RecoverRequest.key (r : RecoverRequest) : String := s!"recover:{r.messageId}"

def RecoverRequest.payload (r : RecoverRequest) : String :=
  let thread := r.threadId.getD ""
  s!"{r.messageId}|{r.runKey}|{r.reason}|{r.sender}|{r.chatId}|{thread}"

/-- Who may recover a run, and where. -/
def authorizeRecovery (cfg : Config) (r : RecoverRequest) (run : RunRecord) :
    Except ControllerError Unit :=
  if r.sender ≠ run.origin.initiatorOpenId ∧ r.sender ∉ cfg.abortAdminOpenIds then
    .error (.permissionError
      "only the run initiator or configured administrator may recover this run")
  else if r.chatId ≠ run.origin.chatId ∨ threadOf r.threadId ≠ threadOf run.origin.threadId then
    .error (.permissionError "recovery must be requested in the original run chat/thread")
  else .ok ()

/-- The history of the run, none while its initialization is pending. -/
def recoverableHistory (runKey : String) : Service (Option (List HistoryItem) × RunRecord) := do
  match ← (history runKey).attempt with
  | .ok (items, run) => pure (some items, run)
  | .error e =>
    if e = .valueError s!"unknown run {runKey}" then
      match ← store (.runRecord runKey) with
      | some run => pure (none, run)
      | none => raise e
    else raise e

/-- Archive the active exception cards of the run. -/
def archiveExceptions (cfg : Config) (board : String) : List HistoryItem → Service Unit
  | [] => pure ()
  | i :: is => do
    if i.managed.purpose = .exception ∧ i.task.status.isActive then
      if ← abortManagedTask cfg board i.task.id then archiveExceptions cfg board is
      else raise (.runPolicy "worker_recovery_pending")
    else archiveExceptions cfg board is

/-- The newest work card when it has to be issued again: no work card is active
and it is not done. -/
def interruptedWork (items : List HistoryItem) : Option HistoryItem :=
  let work := items.filter (·.isWork)
  if work.any (·.task.status.isActive) then none
  else work.getLast?.filter (·.task.status != .done)

/-- Issue an interrupted work card again. -/
def reissueWork (cfg : Config) (run : RunRecord) (r : RecoverRequest) (i : HistoryItem) :
    Service TaskRecord := do
  let record ← fromText (parseCardBody i.task.body)
  let stage ← fromText i.workStage
  createWork cfg run
    { stage, parent := i.task.id, mode := record.mode, repairContext := record.repairContext,
      resumeAnswer := some r.reason, resumedFrom := some i.task.id }

/-- A continuation that failed puts the run back into exception. -/
def orException {α : Type} (cfg : Config) (runKey : String) (p : Service α) : Service α := do
  match ← p.attempt with
  | .ok a => pure a
  | .error e =>
    let _ ← store (.setRunException runKey e.text)
    enqueueControllerFailure cfg runKey e
    raise e

/-- What the recovery goes on with, as its response names it. -/
def continueRecovery (cfg : Config) (r : RecoverRequest) (items : Option (List HistoryItem))
    (run : RunRecord) : Service String :=
  match items with
  | none => do
    let first ← orException cfg r.runKey (initializeRun cfg run)
    pure s!"initialization-resumed:{first.id.text}"
  | some items =>
    match interruptedWork items with
    | none => pure "pending-reconcile"
    | some i => do
      let task ← orException cfg r.runKey (reissueWork cfg run r i)
      pure s!"work-reissued:{task.id.text}"

def recoveryTransitionOf (r : RecoverRequest) (control : RunControl) : Transition where
  runKey := r.runKey
  expectedStates := [.exception]
  newState := .active
  reason := s!"human_exception_recovery:{r.reason}"
  expectedVersion := some control.stateVersion

/-- The body of `recover`, from the claimed request to its response. -/
def recoverOnce (cfg : Config) (r : RecoverRequest) : Service String := do
  let (items, run) ← recoverableHistory r.runKey
  fromExcept (authorizeRecovery cfg r run)
  match ← store (.runControl r.runKey) with
  | none => raise (.valueError "run is not in recoverable exception state")
  | some control =>
    if control.state ≠ .exception then
      raise (.valueError "run is not in recoverable exception state")
    else
      archiveExceptions cfg run.workspace.board (items.getD [])
      let recovered ← store (.transitionRun (recoveryTransitionOf r control))
      let continuation ← continueRecovery cfg r items run
      store (.enqueue
        { key := s!"{r.runKey}:exception-recovered:{recovered.stateVersion}", runKey := r.runKey,
          event := "exception-recovered" })
      let response := s!"{r.runKey}|{recovered.state.value}|{recovered.stateVersion}|{continuation}"
      store (.finishRequest r.key response)
      pure response

/-- `_record_request_dependency_error`. -/
def recordRequestDependencyError (cfg : Config) (runKey : String) (kind : DependencyKind)
    (text : String) (c : ErrorContext) : Service Unit := do
  match ← store (.runControl runKey) with
  | some _ => handleDependencyError cfg runKey kind text c
  | none =>
    let scope := if c.dependency = "gitlab" ∧ (kind = .auth ∨ kind = .rateLimited) then
      c.dependency else s!"{c.dependency}:request"
    let _ ← store (.recordDependencyFailure (failureOf cfg scope kind c))

/-- What `recover` does with an error: a dependency may answer later, anything
else fails the request. -/
def settleRecovery (cfg : Config) (r : RecoverRequest) (e : ControllerError) : Service String := do
  match e with
  | .dependency .contract text _ => store (.failRequest r.key text)
  | .dependency kind text c => recordRequestDependencyError cfg r.runKey kind text c
  | _ => store (.failRequest r.key e.text)
  raise e

/-- `recover`. -/
def recover (cfg : Config) (r : RecoverRequest) : Service String := do
  match ← store (.beginRequest r.key r.payload) with
  | some previous => pure previous
  | none =>
    match ← (recoverOnce cfg r).attempt with
    | .ok response => pure response
    | .error e => settleRecovery cfg r e

end HollysysController
