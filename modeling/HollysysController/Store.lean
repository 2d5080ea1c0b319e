import HollysysController.Durable.Table
import HollysysController.Errors
import HollysysController.Intents
import HollysysController.Models
import Mathlib.Algebra.Order.Ring.Nat
import Mathlib.Data.List.Dedup
import Mathlib.Data.List.Sort

/-! # The Controller store

The tables of the Controller database and the transactions on them. A
transaction commits its answer and the new store, or raises and leaves the
store as it was. -/

namespace HollysysController

open Durable

inductive RunState where
  | active | transitionPending | humanBlocked | retryWait | dependencyDegraded | mergeWait
  | abortRequested | aborting | exception
  | completed | completedReady | completedWithFindings | completedTestFailed
  | aborted | completedBeforeAbort
  deriving DecidableEq, Repr

def RunState.value : RunState → String
  | .active => "active"
  | .transitionPending => "transition_pending"
  | .humanBlocked => "human_blocked"
  | .retryWait => "retry_wait"
  | .dependencyDegraded => "dependency_degraded"
  | .mergeWait => "merge_wait"
  | .abortRequested => "abort_requested"
  | .aborting => "aborting"
  | .exception => "exception"
  | .completed => "completed"
  | .completedReady => "completed_ready"
  | .completedWithFindings => "completed_with_findings"
  | .completedTestFailed => "completed_test_failed"
  | .aborted => "aborted"
  | .completedBeforeAbort => "completed_before_abort"

/-- `TERMINAL_RUN_STATES`. -/
def RunState.isTerminal : RunState → Bool
  | .completed | .completedReady | .completedWithFindings | .completedTestFailed
  | .aborted | .completedBeforeAbort => true
  | _ => false

/-- The states in which a reconcile may change the run. -/
def RunState.isReconcilable : RunState → Bool
  | .active | .dependencyDegraded | .mergeWait => true
  | _ => false

structure RunControl where
  state : RunState := .active
  stateVersion : Nat := 1
  terminalAt : Option Nat := none
  lastTransitionReason : Option String := none
  nextRetryAt : Option Nat := none
  compliance : Option String := none
  completionSource : Option String := none
  checkedHead : Option String := none
  mergeCommitSha : Option String := none
  abortRequestedBy : Option String := none
  abortReason : Option String := none
  abortRequestedAt : Option Nat := none
  abortedAt : Option Nat := none
  deriving DecidableEq, Repr

/-- The `stage` column of `managed_cards`. -/
inductive CardStage where
  | runInit | exception | work (s : Stage)
  deriving DecidableEq, Repr

def CardStage.value : CardStage → String
  | .runInit => "run-init"
  | .exception => "exception"
  | .work s => s.value

inductive Purpose where
  | root | work | exception
  deriving DecidableEq, Repr

structure ManagedCard where
  board : String
  cardId : CardId
  runKey : String
  stage : CardStage
  iteration : Nat
  idempotencyKey : String
  parentCardId : Option CardId
  purpose : Purpose
  createdAt : Nat
  deriving DecidableEq, Repr

inductive OperationStatus where
  | executing | running | done | failed | blocked | superseded | uncertain
  deriving DecidableEq, Repr

/-- The JSON payloads of the ledgered operations. -/
inductive OperationPayload where
  | release (board : String) (cardId : CardId)
  | deliveryReady (runKey : String) (mrIid : Nat) (checkedHead : String)
  | providerTempfail (runKey board : String) (cardId : CardId) (attemptRunId workerPid : Nat)
  | providerRelease (runKey board : String) (cardId : CardId) (workerSessionId : String)
  | prepare (runKey : String) (details : List String)
  | completeRoot (board : String) (cardId : CardId)
  | publishDelivery (runKey : String) (cardId : CardId) (headSha descriptionDigest : String)
  deriving DecidableEq, Repr

/-- The JSON results of the ledgered operations. -/
inductive OperationResult where
  | card (cardId : CardId)
  | deliveryReady (sha : String)
  | quarantined (status : String) (attemptRunId : Nat)
  | released (status : String)
  | merged (submittedByController : Bool)
  | prepared (step : String)
  | delivery (binding : DeliveryBinding)
  deriving DecidableEq, Repr

structure OperationRow where
  kind : String
  payload : OperationPayload
  status : OperationStatus := .executing
  result : Option OperationResult := none
  error : Option String := none
  expectedStateVersion : Option Nat := none
  expectedHeadSha : Option String := none
  uncertainAt : Option Nat := none
  attempts : Nat := 1
  deriving DecidableEq, Repr

structure OutboxRow where
  key : String
  runKey : String
  event : String
  deriving DecidableEq, Repr

structure CardRuntime where
  profile : Option String := none
  dispatchKey : Option String := none
  workerPid : Option Nat := none
  workerStartedAt : Option Nat := none
  workerSessionId : Option String := none
  lastHeartbeatAt : Option Nat := none
  lastProgressEventAt : Option Nat := none
  deadlineAt : Option Nat := none
  lastEventKind : Option String := none
  attempt : Nat := 1
  redispatchCount : Nat := 0
  worktree : Option String := none
  branch : Option String := none
  mrIid : Option Nat := none
  headSha : Option String := none
  attemptStatus : String := "created"
  finishedAt : Option Nat := none
  terminalReason : Option String := none
  deriving DecidableEq, Repr

structure CardAttempt where
  runId : String
  board : String
  cardId : CardId
  runKey : String
  attempt : Nat
  workerPid : Option Nat
  workerSessionId : Option String
  startedAt : Option Nat := none
  blockedAt : Option Nat := none
  completionAt : Option Nat := none
  exitedAt : Option Nat := none
  lastHeartbeatAt : Option Nat := none
  lastProgressAt : Option Nat := none
  status : String
  terminalReason : Option String := none
  recoveryReason : Option String := none
  redispatchedFromRunId : Option String := none
  deriving DecidableEq, Repr

inductive RequestStatus where
  | running | done | failed
  deriving DecidableEq, Repr

/-- A ledgered request. The payload is its JSON text. -/
structure RequestRow where
  payload : String
  runKey : Option String := none
  status : RequestStatus := .running
  response : Option String := none
  error : Option String := none
  deriving DecidableEq, Repr

inductive AbortStatus where
  | pending | expired | confirmed
  deriving DecidableEq, Repr

/-- A row of `abort_requests`. -/
structure AbortRow where
  requestId : String
  runKey : String
  tokenHash : String
  sender : String
  chatId : String
  threadId : Option String
  reason : String
  expiresAt : Nat
  status : AbortStatus := .pending
  confirmMessageId : Option String := none
  createdAt : Nat := 0
  deriving DecidableEq, Repr

/-- A row of `dependency_outages`. Each outage has a fresh id. -/
structure Outage where
  dependency : String
  outageId : Nat
  isOpen : Bool := true
  kind : DependencyKind
  failures : Nat
  nextRetryAt : Nat
  deriving DecidableEq, Repr

/-- A row of `validation_runs`. -/
structure ValidationRun where
  runKey : String
  cardId : CardId
  check : DeterministicCheck
  deriving DecidableEq, Repr

structure Store where
  runs : List RunRecord := []
  deliveryBindings : List (String × DeliveryBinding) := []
  managedCards : List ManagedCard := []
  cardRuntime : Table (String × CardId) CardRuntime := .empty
  cardAttempts : List CardAttempt := []
  attemptMetrics : List (String × String) := []
  runControl : Table String RunControl := .empty
  operations : Table String OperationRow := .empty
  requests : Table String RequestRow := .empty
  abortRequests : List AbortRow := []
  outbox : List OutboxRow := []
  outages : List Outage := []
  /-- `dependency_outage_runs`: the dependency, the outage and the run. -/
  outageRuns : List (String × Nat × String) := []
  nextOutage : Nat := 1
  cursors : Table String Nat := .empty
  intents : List ReconcileIntent := []
  validationRuns : List ValidationRun := []
  deepPreflight : Bool := false

/-- A transaction: the committed answer and store, or the error raised. -/
abbrev Txn (α : Type) := Store → Except ControllerError (α × Store)

/-- A transaction as the process sees it: an error rolls back. -/
def Txn.commit {α : Type} (t : Txn α) (s : Store) : Except ControllerError α × Store :=
  match t s with
  | .ok (a, s') => (.ok a, s')
  | .error e => (.error e, s)

theorem Txn.commit_eq_ok {α : Type} {t : Txn α} {s s' : Store} {a : α} :
    t.commit s = (.ok a, s') ↔ t s = .ok (a, s') := by
  unfold Txn.commit
  rcases t s with e | ⟨b, s₁⟩ <;> simp

/-- A committed transaction that does not fail. -/
theorem commit_ok {α : Type} {t : Txn α} {s : Store} {a : α}
    (h : (t.commit s).1 = .ok a) : t s = .ok (a, (t.commit s).2) := by
  unfold Txn.commit at h ⊢
  split at h
  · next ht =>
    cases h
    simp [ht]
  · cases h

theorem commit_error {α : Type} {t : Txn α} {s : Store} {e : ControllerError}
    (h : (t.commit s).1 = .error e) : (t.commit s).2 = s := by
  unfold Txn.commit at h ⊢
  split at h
  · cases h
  · rfl

/-- The error every `sqlite3.DatabaseError` is turned into. -/
def databaseError : ControllerError := .fatal "controller_store_database_error"

/-! ## Runs and delivery bindings -/

def Store.runRecord (s : Store) (runKey : String) : Option RunRecord :=
  s.runs.find? (·.runKey == runKey)

/-- `save_run`: the key is primary and the generation is unique. -/
def saveRun (run : RunRecord) : Txn Unit := fun s =>
  match s.runRecord run.runKey with
  | some persisted =>
    if persisted = run then .ok ((), s)
    else .error (.fatal s!"run_identity_conflict:{run.runKey}")
  | none =>
    if s.runs.any (·.runGeneration == run.runGeneration) then .error databaseError
    else .ok ((), { s with runs := s.runs ++ [run] })

def Store.deliveryBinding (s : Store) (runKey : String) : Option DeliveryBinding :=
  (s.deliveryBindings.find? (·.1 == runKey)).map (·.2)

/-- `bind_delivery`. The column `mr_iid` of `delivery_bindings` is unique. -/
def bindDelivery (runKey : String) (binding : DeliveryBinding) : Txn Unit := fun s =>
  match s.runRecord runKey with
  | none => .error (.valueError s!"unknown_run:{runKey}")
  | some _ =>
    match s.deliveryBinding runKey with
    | some persisted =>
      if persisted = binding then .ok ((), s)
      else .error (.fatal s!"delivery_binding_conflict:{runKey}")
    | none =>
      if s.deliveryBindings.any (·.2.mrIid == binding.mrIid) then .error databaseError
      else .ok ((), { s with deliveryBindings := s.deliveryBindings ++ [(runKey, binding)] })

/-! ## Managed cards -/

def Store.managedCard (s : Store) (board : String) (cardId : CardId) : Option ManagedCard :=
  s.managedCards.find? fun c => c.board == board && c.cardId == cardId

/-- `ORDER BY created_at, rowid`. -/
def Store.cardsForRun (s : Store) (runKey : String) : List ManagedCard :=
  (s.managedCards.filter (·.runKey == runKey)).insertionSort fun a b =>
    a.createdAt ≤ b.createdAt

/-- `run_keys`: `SELECT DISTINCT run_key .. ORDER BY run_key`. -/
def Store.runKeys (s : Store) : List String :=
  ((s.managedCards.map (·.runKey)).dedup).insertionSort (· ≤ ·)

/-- Another row of the board holds the key, `UNIQUE (board, idempotency_key)`. -/
def Store.keyTaken (s : Store) (c : ManagedCard) : Bool :=
  s.managedCards.any fun d =>
    d.board == c.board && d.idempotencyKey == c.idempotencyKey && d.cardId != c.cardId

/-- `add_managed_card`: the conflict target is `(board, card_id)` only. -/
def addManagedCard (c : ManagedCard) : Txn Unit := fun s =>
  if s.keyTaken c then .error databaseError
  else match s.managedCard c.board c.cardId with
    | some _ =>
      .ok ((), { s with managedCards := s.managedCards.map fun d =>
        if d.board = c.board ∧ d.cardId = c.cardId
        then { c with createdAt := d.createdAt } else d })
    | none => .ok ((), { s with managedCards := s.managedCards ++ [c] })

/-! ## Run control -/

/-- `ensure_run_control`: `INSERT OR IGNORE`. -/
def ensureRunControl (runKey : String) : Txn Unit := fun s =>
  match s.runControl runKey with
  | some _ => .ok ((), s)
  | none => .ok ((), { s with runControl := s.runControl.put runKey {} })

structure Transition where
  runKey : String
  expectedStates : List RunState
  newState : RunState
  reason : String
  expectedVersion : Option Nat := none
  nextRetryAt : Option Nat := none
  compliance : Option String := none
  completionSource : Option String := none
  checkedHead : Option String := none
  mergeCommitSha : Option String := none
  deriving DecidableEq, Repr

/-- The row `transition_run` writes over `row`. -/
def Transition.apply (t : Transition) (now : Nat) (row : RunControl) : RunControl where
  state := t.newState
  stateVersion := row.stateVersion + 1
  terminalAt := if t.newState.isTerminal then some now else none
  lastTransitionReason := some (clip 1000 t.reason)
  nextRetryAt := t.nextRetryAt
  compliance := t.compliance <|> row.compliance
  completionSource := t.completionSource <|> row.completionSource
  checkedHead := t.checkedHead <|> row.checkedHead
  mergeCommitSha := t.mergeCommitSha <|> row.mergeCommitSha
  abortRequestedBy := row.abortRequestedBy
  abortReason := row.abortReason
  abortRequestedAt := row.abortRequestedAt
  abortedAt := row.abortedAt

/-- `transition_run`. -/
def transitionRun (t : Transition) (now : Nat) : Txn RunControl := fun s =>
  match s.runControl t.runKey with
  | none => .error (.valueError s!"unknown_run:{t.runKey}")
  | some row =>
    if row.state ∉ t.expectedStates then .error (.valueError "invalid_run_transition")
    else if t.expectedVersion.any (· != row.stateVersion) then
      .error (.valueError "stale_run_version")
    else .ok (t.apply now row, { s with runControl := s.runControl.put t.runKey (t.apply now row) })

/-- The states from which a run may enter exception or a flow's end. -/
def unsettledStates : List RunState :=
  [.active, .transitionPending, .humanBlocked, .retryWait, .dependencyDegraded, .mergeWait]

/-- `set_run_exception`. -/
def setRunException (runKey reason : String) (now : Nat) : Txn RunControl := fun s =>
  match s.runControl runKey with
  | none => .error (.valueError s!"unknown_run:{runKey}")
  | some row =>
    if row.state = .exception then .ok (row, s)
    else transitionRun
      { runKey, expectedStates := unsettledStates, newState := .exception, reason } now s

/-- The compliance that `mark_flow_completed` records. -/
def flowCompliance : RunState → Option String
  | .completedReady => some "verified"
  | .completedWithFindings | .completedTestFailed => some "unverified"
  | _ => none

def isSha (sha : String) : Bool :=
  sha.toList.length == 40 && sha.toList.all "0123456789abcdef".toList.contains

/-- `mark_flow_completed`. -/
def markFlowCompleted (runKey : String) (state : RunState) (checkedHead reason : String)
    (now : Nat) : Txn RunControl := fun s =>
  match flowCompliance state with
  | none => .error (.valueError "invalid flow terminal state")
  | some compliance =>
    if !isSha checkedHead then
      .error (.valueError "flow completion requires a valid checked head SHA")
    else match s.runControl runKey with
      | none => .error (.valueError s!"unknown_run:{runKey}")
      | some row =>
        if row.state.isTerminal then .ok (row, s)
        else transitionRun
          { runKey, expectedStates := unsettledStates, newState := state, reason,
            compliance := some compliance, completionSource := some "controller",
            checkedHead := some checkedHead } now s

/-- `mark_completed`: the run's MR was merged. -/
def markCompleted (runKey : String) (external : Bool) (compliance checkedHead : String)
    (mergeCommitSha : Option String) (reason : String) (now : Nat) : Txn RunControl := fun s =>
  if !isSha checkedHead then .error (.valueError "completed run requires a valid checked head SHA")
  else if mergeCommitSha.any (!isSha ·) then
    .error (.valueError "completed run has an invalid merge commit SHA")
  else match s.runControl runKey with
    | none => .error (.valueError s!"unknown_run:{runKey}")
    | some row =>
      if row.state.isTerminal then .ok (row, s)
      else transitionRun
        { runKey, expectedStates := .exception :: unsettledStates, newState := .completed, reason,
          compliance := some compliance,
          completionSource := some (if external then "external" else "controller"),
          checkedHead := some checkedHead, mergeCommitSha } now s

/-- The row `mark_aborting` writes over a requested one. -/
def RunControl.abortStarted (row : RunControl) : RunControl :=
  { row with
    state := .aborting
    stateVersion := row.stateVersion + 1
    lastTransitionReason := some "abort_execution_started"
    terminalAt := none
    nextRetryAt := none }

/-- `mark_aborting`. -/
def markAborting (runKey : String) : Txn Unit := fun s =>
  match s.runControl runKey with
  | none => .ok ((), s)
  | some row =>
    if row.state = .abortRequested then
      .ok ((), { s with runControl := s.runControl.put runKey row.abortStarted })
    else .ok ((), s)

/-- The row `finish_abort` writes over that of an abort. -/
def RunControl.abortFinished (merged : Bool) (checkedHead mergeCommitSha : Option String)
    (now : Nat) (row : RunControl) : RunControl :=
  { row with
    state := if merged then .completedBeforeAbort else .aborted
    stateVersion := row.stateVersion + 1
    abortedAt := some now
    terminalAt := some now
    lastTransitionReason := some (if merged then "merged_before_abort" else "human_abort_completed")
    nextRetryAt := none
    checkedHead := checkedHead <|> row.checkedHead
    mergeCommitSha := mergeCommitSha <|> row.mergeCommitSha }

/-- `finish_abort`, for `aborted` or, when the MR was merged first, for
`completed_before_abort`. -/
def finishAbort (runKey : String) (merged : Bool) (checkedHead mergeCommitSha : Option String)
    (now : Nat) : Txn Unit := fun s =>
  if merged ∧ !checkedHead.any isSha then
    .error (.valueError "completed_before_abort requires a valid checked head SHA")
  else if mergeCommitSha.any (!isSha ·) then
    .error (.valueError "abort terminal has an invalid merge commit SHA")
  else match s.runControl runKey with
    | none => .ok ((), s)
    | some row =>
      if row.state = .abortRequested ∨ row.state = .aborting then
        let finished := row.abortFinished merged checkedHead mergeCommitSha now
        .ok ((), { s with runControl := s.runControl.put runKey finished })
      else .ok ((), s)

/-! ## Abort requests -/

/-- The states from which an abort can be requested and confirmed. -/
def abortableStates : List RunState := [.active, .dependencyDegraded, .mergeWait, .exception]

/-- `create_abort_request`, after `ensure_run_control`: older requests of the run
expire. -/
def createAbortRequest (row : AbortRow) (now : Nat) : Txn Unit := fun s =>
  match s.runControl row.runKey with
  | none => .error (.valueError s!"unknown run {row.runKey}")
  | some control =>
    if control.state ∉ abortableStates then
      .error (.valueError s!"run {row.runKey} cannot request abort from {control.state.value}")
    else if s.abortRequests.any (·.requestId == row.requestId) then .error databaseError
    else
      let expired := s.abortRequests.map fun r =>
        if r.runKey = row.runKey ∧ r.status = .pending then { r with status := .expired } else r
      .ok ((), { s with abortRequests := expired ++ [{ row with createdAt := now }] })

/-- The arguments of `confirm_abort_request`. -/
structure AbortConfirmation where
  runKey : String
  tokenHash : String
  sender : String
  chatId : String
  threadId : Option String
  messageId : String
  deriving DecidableEq, Repr

/-- The token, the requester and the channel are those of the request. -/
def AbortConfirmation.matchesRequest (c : AbortConfirmation) (row : AbortRow) : Bool :=
  row.tokenHash == c.tokenHash && row.sender == c.sender && row.chatId == c.chatId &&
    threadOf row.threadId == threadOf c.threadId

/-- The newest pending request of the run, `ORDER BY created_at DESC LIMIT 1`. -/
def Store.pendingAbort (s : Store) (runKey : String) : Option AbortRow :=
  ((s.abortRequests.filter fun r => r.runKey == runKey && r.status == .pending).insertionSort
    fun a b => b.createdAt ≤ a.createdAt).head?

/-- The row `confirm_abort_request` writes over an abortable one. -/
def RunControl.abortConfirmed (row : AbortRow) (sender : String) (now : Nat) (c : RunControl) :
    RunControl :=
  { c with
    state := .abortRequested
    abortRequestedBy := some sender
    abortReason := some row.reason
    abortRequestedAt := some now
    stateVersion := c.stateVersion + 1
    lastTransitionReason := some "human_abort_confirmed"
    terminalAt := none
    nextRetryAt := none }

/-- What `confirm_abort_request` commits: the request is confirmed, and an abortable run
is to be aborted. The answer is the row read last. -/
def confirmRequest (c : AbortConfirmation) (now : Nat) : Txn (Option RunControl) := fun s =>
  match s.pendingAbort c.runKey with
  | none => .error (.valueError "no pending abort request")
  | some row =>
    if row.expiresAt < now then .error (.valueError "abort confirmation token expired")
    else if !c.matchesRequest row then
      .error (.permissionError "abort confirmation must match token, requester, and channel")
    else
      let confirmed := s.abortRequests.map fun r => if r.requestId = row.requestId then
        { r with status := .confirmed, confirmMessageId := some c.messageId } else r
      match s.runControl c.runKey with
      | none => .ok (none, { s with abortRequests := confirmed })
      | some control =>
        if control.state ∈ abortableStates then
          let updated := control.abortConfirmed row c.sender now
          .ok (some updated, { s with
            abortRequests := confirmed
            runControl := s.runControl.put c.runKey updated })
        else .ok (some control, { s with abortRequests := confirmed })

/-- A confirmation is refused, takes up an abortable run, or leaves the run as it is. -/
theorem confirmRequest_cases (c : AbortConfirmation) (now : Nat) (s : Store) :
    (∃ e, confirmRequest c now s = .error e) ∨
    ∃ row control s', s.pendingAbort c.runKey = some row ∧
      confirmRequest c now s = .ok (control, s') ∧
      ((∃ r, s.runControl c.runKey = some r ∧ r.state ∈ abortableStates ∧
          control = some (r.abortConfirmed row c.sender now) ∧
          s'.runControl = s.runControl.put c.runKey (r.abortConfirmed row c.sender now)) ∨
        ((∀ r, s.runControl c.runKey = some r → r.state ∉ abortableStates) ∧
          control = s.runControl c.runKey ∧ s'.runControl = s.runControl)) := by
  unfold confirmRequest
  cases hrow : s.pendingAbort c.runKey with
  | none => exact .inl ⟨_, rfl⟩
  | some row =>
    dsimp only
    split
    · exact .inl ⟨_, rfl⟩
    · split
      · exact .inl ⟨_, rfl⟩
      · cases hc : s.runControl c.runKey with
        | none => exact .inr ⟨row, _, _, rfl, rfl, .inr ⟨by simp, rfl, rfl⟩⟩
        | some r =>
          dsimp only
          by_cases hs : r.state ∈ abortableStates
          · rw [if_pos hs]
            exact .inr ⟨row, _, _, rfl, rfl, .inl ⟨r, rfl, hs, rfl, rfl⟩⟩
          · rw [if_neg hs]
            exact .inr ⟨row, _, _, rfl, rfl, .inr ⟨fun q hq => by cases hq; exact hs, rfl, rfl⟩⟩

/-- `confirm_abort_request`: what was read is judged after the commit. -/
def confirmAbortRequest (c : AbortConfirmation) (now : Nat) (s : Store) :
    Except ControllerError RunControl × Store :=
  match (confirmRequest c now).commit s with
  | (.error e, s') => (.error e, s')
  | (.ok control, s') =>
    match control.filter (·.state == .abortRequested) with
    | some control => (.ok control, s')
    | none => (.error (.valueError "run is no longer active"), s')

/-! ## The operation ledger -/

/-- The call that `operation_result` compares with the stored row. -/
structure OperationCall where
  key : String
  kind : String
  payload : OperationPayload
  expectedStateVersion : Option Nat := none
  expectedHeadSha : Option String := none
  deriving DecidableEq, Repr

/-- The expected version may stay or grow. -/
def versionAdmitted : Option Nat → Option Nat → Bool
  | none, none => true
  | some stored, some expected => decide (stored ≤ expected)
  | _, _ => false

/-- `operation_result`: the stored result of a done operation, else the row is
executing afterwards. -/
def operationResult (c : OperationCall) (now : Nat) : Txn (Option OperationResult) := fun s =>
  match s.operations c.key with
  | some row =>
    if row.kind ≠ c.kind ∨ row.payload ≠ c.payload then
      .error (.valueError s!"operation key {c.key} was reused")
    else if row.expectedHeadSha ≠ c.expectedHeadSha then
      .error (.valueError s!"operation expectation changed for {c.key}")
    else if !versionAdmitted row.expectedStateVersion c.expectedStateVersion then
      .error (.valueError s!"operation expectation changed for {c.key}")
    else if row.status = .done ∧ row.result.isSome then .ok (row.result, s)
    else
      let uncertainAt := if row.status ∈ [.executing, .running, .uncertain] then some now
        else row.uncertainAt
      .ok (none, { s with operations := s.operations.put c.key { row with
        status := .executing
        uncertainAt
        attempts := row.attempts + 1
        expectedStateVersion := c.expectedStateVersion } })
  | none =>
    .ok (none, { s with operations := s.operations.put c.key {
      kind := c.kind
      payload := c.payload
      expectedStateVersion := c.expectedStateVersion
      expectedHeadSha := c.expectedHeadSha } })

def finishOperation (key : String) (result : OperationResult) : Txn Unit := fun s =>
  .ok ((), { s with operations := s.operations.modify key fun row =>
    { row with status := .done, result := some result, error := none, uncertainAt := none } })

/-- `fail_operation`, `block_operation` and `supersede_operation` write the same
columns under different statuses. -/
def closeOperation (status : OperationStatus) (key error : String) : Txn Unit := fun s =>
  .ok ((), { s with operations := s.operations.modify key fun row =>
    { row with status, error := some (clip 2000 error) } })

def failOperation : String → String → Txn Unit := closeOperation .failed

def supersedeOperation : String → String → Txn Unit := closeOperation .superseded

def markOperationUncertain (key error : String) (now : Nat) : Txn Unit := fun s =>
  .ok ((), { s with operations := s.operations.modify key fun row =>
    { row with status := .uncertain, error := some (clip 2000 error),
               uncertainAt := row.uncertainAt <|> some now } })

/-! ## Requests and the outbox -/

/-- `begin_request`: the stored response of a done request, else the request is
running afterwards. -/
def beginRequest (key payload : String) : Txn (Option String) := fun s =>
  match s.requests key with
  | some row =>
    if row.payload ≠ payload then
      .error (.valueError s!"idempotency key {key} was reused with new payload")
    else match row.status, row.response with
      | .done, some response => .ok (some response, s)
      | .failed, _ => .error (.runtimeError (row.error.getD s!"request {key} failed"))
      | _, _ => .ok (none, s)
  | none => .ok (none, { s with requests := s.requests.put key { payload } })

def finishRequest (key response : String) : Txn Unit := fun s =>
  .ok ((), { s with requests := s.requests.modify key fun row =>
    { row with status := .done, response := some response, error := none } })

def failRequest (key error : String) : Txn Unit := fun s =>
  .ok ((), { s with requests := s.requests.modify key fun row =>
    { row with status := .failed, error := some (clip 2000 error) } })

/-- `bind_request_run`. -/
def bindRequestRun (key runKey : String) : Txn Unit := fun s =>
  match s.requests key with
  | none => .error (.valueError s!"request_not_running:{key}")
  | some row =>
    if row.status ≠ .running then .error (.valueError s!"request_not_running:{key}")
    else if row.runKey.any (· != runKey) then
      .error (.valueError s!"request_run_key_changed:{key}")
    else .ok ((), { s with requests := s.requests.put key { row with runKey := some runKey } })

/-- `INSERT OR IGNORE`: the first row under a key stays. -/
def enqueue (row : OutboxRow) : Txn Unit := fun s =>
  if s.outbox.any (·.key == row.key) then .ok ((), s)
  else .ok ((), { s with outbox := s.outbox ++ [row] })

/-! ## Dependency outages -/

/-- `_dependency_retry_blocked`. -/
def Store.retryBlocked (s : Store) (dependency : String) (now : Nat) : Bool :=
  s.outages.any fun o => o.isOpen && o.dependency == dependency && decide (now < o.nextRetryAt)

/-- The arguments of `record_dependency_failure`. -/
structure DependencyFailure where
  dependency : String
  kind : DependencyKind
  initialBackoffSeconds : Nat
  maximumBackoffSeconds : Nat
  retryAfterSeconds : Option Nat := none
  deriving DecidableEq, Repr

/-- The backoff after `failures` failures in a row. -/
def DependencyFailure.delay (f : DependencyFailure) (failures : Nat) : Nat :=
  max (min f.maximumBackoffSeconds (f.initialBackoffSeconds * 2 ^ (failures - 1)))
    (f.retryAfterSeconds.getD 0)

/-- `record_dependency_failure`: go on with the open outage or open a new one. -/
def recordDependencyFailure (f : DependencyFailure) (now : Nat) : Txn Outage := fun s =>
  let previous := s.outages.find? fun o => o.dependency == f.dependency && o.isOpen
  let failures := (previous.map (·.failures + 1)).getD 1
  let outage : Outage :=
    { dependency := f.dependency
      outageId := (previous.map (·.outageId)).getD s.nextOutage
      kind := f.kind
      failures
      nextRetryAt := now + max 1 (f.delay failures) }
  .ok (outage, { s with
    outages := s.outages.filter (·.dependency != f.dependency) ++ [outage]
    nextOutage := s.nextOutage + 1 })

/-- `associate_outage_run`. -/
def associateOutageRun (dependency : String) (outageId : Nat) (runKey : String) : Txn Unit :=
  fun s =>
    if s.outageRuns.contains (dependency, outageId, runKey) then .ok ((), s)
    else .ok ((), { s with outageRuns := s.outageRuns ++ [(dependency, outageId, runKey)] })

/-- The runs whose own GitLab outages are transient and open. -/
def Store.corroboratingRuns (s : Store) : List String :=
  ((s.outages.filter fun o => o.isOpen && "gitlab:".isPrefixOf o.dependency &&
      o.dependency != "gitlab:request" && o.kind == .transient).flatMap fun o =>
    (s.outageRuns.filter fun a => a.1 == o.dependency && a.2.1 == o.outageId).map (·.2.2)).dedup

/-- The open outage of a dependency. -/
def Store.openOutage (s : Store) (dependency : String) : Option Outage :=
  s.outages.find? fun o => o.isOpen && o.dependency == dependency

/-- `outage_run_keys`. -/
def Store.outageRunKeys (s : Store) (dependency : String) (outageId : Nat) : List String :=
  (s.outageRuns.filter fun a => a.1 == dependency && a.2.1 == outageId).map (·.2.2)

/-- The open outages that the run is associated with. -/
def Store.runOutages (s : Store) (runKey : String) : List Outage :=
  s.outages.filter fun o => o.isOpen && s.outageRuns.contains (o.dependency, o.outageId, runKey)

/-- `recover_dependency`: the outage that was open, closed now. -/
def recoverDependency (dependency : String) : Txn (Option Outage) := fun s =>
  match s.openOutage dependency with
  | none => .ok (none, s)
  | some outage => .ok (some outage, { s with outages := s.outages.map fun o =>
      if o.dependency = dependency then { o with isOpen := false, failures := 0 } else o })

/-! ## Event cursors -/

/-- `set_cursor`: a cursor never moves back. -/
def setCursor (board : String) (cursor : Nat) : Txn Unit := fun s =>
  .ok ((), { s with cursors := s.cursors.put board (max ((s.cursors board).getD 0) cursor) })

/-! ## Reconcile intents -/

/-- `enqueue_reconcile`, with the id drawn for a new intent. -/
def enqueueReconcile (runKey reason : String) (eventId : Option Nat) (intentId : String)
    (now : Nat) : Txn Unit := fun s =>
  match s.runRecord runKey with
  | none => .error (.valueError s!"unknown_run:{runKey}")
  | some _ =>
    match upsertIntent runKey reason eventId intentId now s.intents with
    | none => .error databaseError
    | some rows => .ok ((), { s with intents := rows })

end HollysysController
