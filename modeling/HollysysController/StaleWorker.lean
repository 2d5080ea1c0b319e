import HollysysController.Poll

/-! # Stale workers

A worker whose heartbeat and progress are overdue, and whose exit the
Supervisor has confirmed, is dispatched again, or its card is given up when the
redispatch budget is used up. -/

namespace HollysysController

open Durable

def exhaustedReason (cfg : Config) (managed : ManagedCard) (row : CardRuntime) : String :=
  "worker redispatch budget exhausted after Supervisor-confirmed exit; " ++
    s!"stage={managed.stage.value}; card={managed.cardId.text}; attempt={row.attempt}; " ++
    s!"limit={cfg.workerRedispatchLimit}"

/-- The card is archived and the run enters exception. -/
def exhaustedWorker (cfg : Config) (run : RunRecord) (managed : ManagedCard) (row : CardRuntime)
    (i : WorkerIdentity) : Service Unit := do
  abortTask run.workspace.board managed.cardId (some (i.runId, i.workerPid))
  recordReclaimedAttempt cfg i
  let _ ← exception cfg run managed.cardId (exhaustedReason cfg managed row)

/-- The attempt is reclaimed and the card handed to the dispatcher again. -/
def redispatchWorker (cfg : Config) (run : RunRecord) (managed : ManagedCard) (row : CardRuntime)
    (i : WorkerIdentity) : Service Unit := do
  let _ ← redispatchStaleWorker run.workspace.board managed.cardId i.runId i.workerPid
  recordReclaimedAttempt cfg i
  store (.updateWorkerWatchdog {
    board := managed.board
    cardId := managed.cardId
    attemptStatus := "redispatch_requested"
    leaseSeconds := some (min cfg.workerProgressLeaseSeconds 300)
    reason := some "exit_confirmed_redispatch"
    incrementRedispatch := true })
  if cfg.verboseNotices then
    let control ← runControl run.runKey
    let round := s!"{row.attempt}:{row.redispatchCount + 1}:{control.stateVersion}"
    enqueueProgress cfg run s!"agent:{managed.cardId.text}:redispatch:{round}" false

/-- The recovery of one worker in `_enqueue_stale_worker_notices`, once its exit and
the unchanged state around it are confirmed. -/
def recoverStaleWorker (cfg : Config) (run : RunRecord) (managed : ManagedCard)
    (row : CardRuntime) (i : WorkerIdentity) : Service Unit := do
  let attempted := if cfg.workerRedispatchLimit ≤ row.redispatchCount
    then exhaustedWorker cfg run managed row i else redispatchWorker cfg run managed row i
  match ← attempted.attempt with
  | .ok _ => pure ()
  | .error e =>
    match e with
    | .dependency .contract _ _ => recordRunException cfg run.runKey e
    | .dependency kind text c => handleDependencyError cfg run.runKey kind text c
    | _ => raise e

end HollysysController
