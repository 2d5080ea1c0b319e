import HollysysController.World

/-! # Kanban commands of the Controller

The compound commands: each reads the task, runs one Hermes command and reads
the task again. -/

namespace HollysysController

open Durable

def raise {α : Type} (e : ControllerError) : Service α := Prog.raise e

/-- `release`: promote the card unless it is released already. A command that
fails although the card left the hold counts as done. -/
def release (board : String) (id : CardId) : Service Unit := do
  match ← hermes (.task board id) with
  | none => raise (.runtimeError s!"unknown task {id.text}")
  | some task =>
    if task.status.isReleased then pure ()
    else
      match ← (hermes (.promote board id)).attempt with
      | .error e =>
        if e.isDependency then
          match ← hermes (.task board id) with
          | some released => if released.status.isReleased then pure () else raise e
          | none => raise e
        else raise e
      | .ok _ =>
        match ← hermes (.task board id) with
        | some released =>
          if released.status.isReleased then pure ()
          else raise (.runtimeError s!"card {id.text} did not leave controller hold")
        | none => raise (.runtimeError s!"card {id.text} did not leave controller hold")

/-- The second half of `abort_task`: archive what no worker owns. -/
def archiveUnclaimed (board : String) (id : CardId) : Service Unit := do
  match ← hermes (.task board id) with
  | none => pure ()
  | some task =>
    if task.status = .running then raise (.valueError "stale_attempt")
    else if task.status = .archived then pure ()
    else
      hermes (.archive board id)
      match ← hermes (.task board id) with
      | none => pure ()
      | some archived =>
        if archived.status = .archived then pure () else raise (.valueError "stale_attempt")

/-- `abort_task`, with the Supervisor's evidence when the task is running. -/
def abortTask (board : String) (id : CardId) (evidence : Option (Nat × Nat)) : Service Unit := do
  match ← hermes (.task board id) with
  | none => pure ()
  | some task =>
    if task.status = .archived then pure ()
    else if task.status = .running then
      match evidence with
      | none => raise (.valueError "running_task_requires_supervisor_evidence")
      | some (runId, pid) =>
        if task.currentRunId ≠ some runId ∨ task.workerPid ≠ some pid then
          raise (.valueError "stale_attempt")
        else
          hermes (.reclaim board id runId pid true)
          archiveUnclaimed board id
    else archiveUnclaimed board id

/-- `archive_controller_task`. -/
def archiveControllerTask (board : String) (id : CardId) : Service Unit := do
  match ← hermes (.task board id) with
  | none => pure ()
  | some task =>
    if task.status = .archived then pure ()
    else if task.status = .running ∧ task.workerPid.isSome then
      raise (.valueError "running_task_requires_supervisor_evidence")
    else hermes (.archive board id)

/-- The common part of the two CAS reclaims that do not archive: reclaim the
attempt if the task still runs, and read the task again. -/
def reclaimAttempt (board : String) (id : CardId) (runId workerPid : Nat) :
    Service (Option TaskRecord) := do
  match ← hermes (.task board id) with
  | none => raise (.valueError s!"unknown task {id.text}")
  | some task =>
    if task.status = .running then
      if task.currentRunId ≠ some runId ∨ task.workerPid ≠ some workerPid then
        raise (.valueError "stale_attempt")
      else
        hermes (.reclaim board id runId workerPid false)
        hermes (.task board id)
    else hermes (.task board id)

def redispatchable (t : TaskRecord) : Bool :=
  t.status == .todo || t.status == .ready || t.status == .running

/-- `redispatch_stale_worker`. -/
def redispatchStaleWorker (board : String) (id : CardId) (runId workerPid : Nat) :
    Service TaskRecord := do
  match ← reclaimAttempt board id runId workerPid with
  | none => raise (.runtimeError s!"reclaimed task {id.text} disappeared")
  | some refreshed =>
    if refreshed.status = .running then raise (.valueError "stale_attempt")
    else if refreshed.status = .blocked then
      release board id
      match ← hermes (.task board id) with
      | some t =>
        if redispatchable t then pure t
        else raise (.runtimeError
          s!"reclaimed task {id.text} is not redispatchable: {t.status.value}")
      | none =>
        raise (.runtimeError s!"reclaimed task {id.text} is not redispatchable: missing")
    else if redispatchable refreshed then pure refreshed
    else raise (.runtimeError
      s!"reclaimed task {id.text} is not redispatchable: {refreshed.status.value}")

/-- `quarantine_provider_tempfail`: reclaim, and insist on a blocked task. -/
def quarantineProviderTempfail (board : String) (id : CardId) (runId workerPid : Nat) :
    Service TaskRecord := do
  match ← reclaimAttempt board id runId workerPid with
  | none => raise (.runtimeError s!"reclaimed task {id.text} disappeared")
  | some refreshed =>
    if refreshed.status ≠ .blocked then
      raise (.runtimeError
        s!"provider tempfail card {id.text} did not enter cooldown block: {refreshed.status.value}")
    else pure refreshed

/-- `complete_root`. -/
def completeRoot (board : String) (id : CardId) : Service Unit := do
  match ← hermes (.task board id) with
  | some task => if task.status = .done then pure () else hermes (.complete board id)
  | none => hermes (.complete board id)

/-- `kanban.create` under an idempotency key, then the task as read back. What is
wrong with the body comes up when there is no task yet. -/
def createTask (a : CreateArgs) (invalid : Option String) (unreadable : String) :
    Service TaskRecord := do
  match ← hermes (.taskByIdempotency a.board a.idempotencyKey) with
  | some existing => pure existing
  | none =>
    match invalid with
    | some text => raise (.valueError text)
    | none =>
      let id ← hermes (.create a)
      match ← hermes (.task a.board id) with
      | some task => pure task
      | none => raise (.runtimeError unreadable)

def workArgs (card : CardRecord) : CreateArgs where
  board := card.run.workspace.board
  body := .work card
  assignee := some card.assignee
  parents := [card.parentCardId]
  tenant := card.run.runKey
  idempotencyKey := card.idempotencyKey
  skills := card.skills

/-- `kanban.create_work`. -/
def createWorkTask (card : CardRecord) : Service TaskRecord :=
  createTask (workArgs card) none "created work card was not readable"

def exceptionArgs (record : ExceptionCardRecord) : CreateArgs where
  board := record.run.workspace.board
  body := .exception record
  assignee := some "dispatcher"
  parents := [record.parentCardId]
  tenant := record.run.runKey
  idempotencyKey := record.idempotencyKey
  skills := ["hollysys-dispatch-kanban"]

/-- `kanban.create_exception`. -/
def createExceptionTask (record : ExceptionCardRecord) : Service TaskRecord :=
  createTask (exceptionArgs record)
    (if record.reason = "" then some "String should have at least 1 character" else none)
    "created exception card was not readable"

end HollysysController
