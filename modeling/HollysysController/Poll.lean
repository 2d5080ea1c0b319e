import HollysysController.ProviderCooldown
import HollysysController.Recover

/-! # Polling Hermes events

The Controller reads the event log of a board from its cursor on, records what
each event says about the attempts of its card, and moves the cursor. -/

namespace HollysysController

open Durable

/-- The session an event names, by its payload or by its Hermes run. -/
def eventSession (event : EventRecord) : Option String :=
  match (event.payload.bind (·.workerSessionId)).filter fun s => strip s != [] with
  | some session => some session
  | none => event.runId.map fun runId => s!"kanban-run:{runId}"

def eventPid (event : EventRecord) : Option Nat :=
  (event.payload.bind (·.workerPid)).filter (0 < ·)

/-- The arguments `record_card_runtime_event` gets for a polled event. -/
def lifecycleEvent (cfg : Config) (managed : ManagedCard) (event : EventRecord) :
    RuntimeEvent where
  board := managed.board
  cardId := managed.cardId
  kind := event.kind
  createdAt := event.createdAt
  workerSessionId := eventSession event
  workerPid := eventPid event
  leaseSeconds := cfg.workerProgressLeaseSeconds
  runId := event.runId.map fun runId => s!"{managed.board}:{runId}"

/-- The worker exited on its own with the code of a provider failure. -/
def isTempfailExit (event : EventRecord) : Bool :=
  event.kind == "worker_exited" && event.runId.isSome &&
    event.payload.any fun p => p.exitKind == some "exited" && p.exitCode == some 75

def interruptedKinds : List String :=
  ["blocked", "crashed", "rate_limited", "timed_out", "gave_up", "spawn_auto_blocked"]

/-- The word of the notice about an event, when there is one. -/
def lifecycleVerdict (cfg : Config) (kind : String) : Option String :=
  if startedKinds.contains kind then
    if cfg.verboseNotices then some "started" else none
  else if interruptedKinds.contains kind then
    if cfg.verboseNotices || fuseKinds.contains kind then some s!"interrupted-{kind}" else none
  else none

/-- The notice about a started or interrupted agent. -/
def enqueueLifecycleNotice (cfg : Config) (managed : ManagedCard) (verdict : String) :
    Service Unit := do
  let read : Service (RunRecord × Option TaskRecord) := do
    let (_, run) ← history managed.runKey
    let task ← hermes (.task managed.board managed.cardId)
    pure (run, task)
  match ← read.attempt with
  | .error e =>
    if e.isValueError then recordRunException cfg managed.runKey e else raise e
  | .ok (_, none) => pure ()
  | .ok (run, some _) =>
    let runtime ← store (.cardRuntime managed.board managed.cardId)
    let control ← runControl run.runKey
    enqueueProgress cfg run
      s!"agent:{managed.cardId.text}:{attemptNumber runtime}:{verdict}:{control.stateVersion}" false

/-- `_record_agent_lifecycle_event`. -/
def recordAgentLifecycleEvent (cfg : Config) (managed : ManagedCard) (event : EventRecord) :
    Service Unit :=
  if managed.purpose ≠ .work then pure ()
  else do
    store (.recordCardRuntimeEvent (lifecycleEvent cfg managed event))
    match isTempfailExit event, eventPid event with
    | true, some pid => recordProviderTempfailExit cfg managed event pid
    | _, _ => pure ()
    match lifecycleVerdict cfg event.kind with
    | none => pure ()
    | some verdict => enqueueLifecycleNotice cfg managed verdict

/-- `TERMINAL_EVENT_KINDS`: the events after which a run is reconciled. -/
def terminalEventKinds : List String :=
  ["completed", "blocked", "crashed", "rate_limited", "timed_out", "gave_up",
   "spawn_auto_blocked", "status", "promoted_manual"]

/-- The events of a board, one after the other. The cursor moves once an event is
recorded; the answer lists the runs to reconcile. -/
def pollEventList (cfg : Config) (board : String) :
    List EventRecord → Service (List (String × Nat × String))
  | [] => pure []
  | e :: es => do
    let managed ← store (.managedCard board e.taskId)
    match managed with
    | some m => recordAgentLifecycleEvent cfg m e
    | none => pure ()
    store (.setCursor board e.id)
    let rest ← pollEventList cfg board es
    match managed with
    | some m => pure (if terminalEventKinds.contains e.kind then
        (m.runKey, e.id, s!"kanban:{e.kind}") :: rest else rest)
    | none => pure rest

/-- The events of one board in `poll_once`. -/
def pollBoard (cfg : Config) (board : String) : Service (List (String × Nat × String)) := do
  let cursor ← store (.cursor board)
  let events ← hermes (.eventsAfter board cursor 200)
  pollEventList cfg board events

/-- The boards of `poll_once`, sorted. -/
def pollBoards (cfg : Config) : List String → Service (List (String × Nat × String))
  | [] => pure []
  | board :: boards => do
    let here ← pollBoard cfg board
    let rest ← pollBoards cfg boards
    pure (here ++ rest)

/-- `pending_reconcile[run_key] = (event.id, reason)`. -/
def setPending (pending : List (String × Nat × String)) (entry : String × Nat × String) :
    List (String × Nat × String) :=
  if pending.any (·.1 == entry.1) then pending.map fun p => if p.1 = entry.1 then entry else p
  else pending ++ [entry]

/-- The dictionary of the runs to reconcile: the last event of a run wins. -/
def pendingReconcile (entries : List (String × Nat × String)) : List (String × Nat × String) :=
  entries.foldl setPending []

/-- The enqueues at the end of `poll_once`; `intentId` draws the id of a new intent. -/
def enqueuePending (intentId : String → String) : List (String × Nat × String) → Service Unit
  | [] => pure ()
  | (runKey, eventId, reason) :: rest => do
    store (.enqueueReconcile runKey reason (some eventId) (intentId runKey))
    enqueuePending intentId rest

/-- `poll_once`, over the boards that were found. -/
def pollOnce (cfg : Config) (intentId : String → String) (boards : List String) :
    Service Unit := do
  let entries ← pollBoards cfg boards
  enqueuePending intentId (pendingReconcile entries)

end HollysysController
