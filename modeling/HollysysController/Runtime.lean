import HollysysController.Store

/-! # Worker runtime

What the Controller records about the worker attempts of a card: one
`card_runtime` row a card, written by polled Hermes events, by the acceptance
of completions and by the watchdog, and one `card_attempts` row a Hermes run. -/

namespace HollysysController

open Durable

/-- The arguments of `record_card_runtime_event`. -/
structure RuntimeEvent where
  board : String
  cardId : CardId
  kind : String
  createdAt : Nat
  workerSessionId : Option String
  workerPid : Option Nat := none
  leaseSeconds : Nat
  runId : Option String := none
  deriving DecidableEq, Repr

def startedKinds : List String := ["claimed", "started", "worker_started"]

def heartbeatKinds : List String := ["heartbeat", "worker_heartbeat"]

def terminalKinds : List String :=
  ["completed", "blocked", "reclaimed", "crashed", "rate_limited", "timed_out", "gave_up",
   "spawn_auto_blocked"]

namespace RuntimeEvent

variable (e : RuntimeEvent)

def key : String × CardId := (e.board, e.cardId)

def started : Bool := startedKinds.contains e.kind

def heartbeat : Bool := heartbeatKinds.contains e.kind

def terminal : Bool := terminalKinds.contains e.kind

def progress : Bool := e.started || e.kind == "progress" || e.terminal

/-- The event starts a session other than the recorded one. -/
def newSession (previous : Option CardRuntime) : Bool :=
  e.started && previous.any fun p =>
    truthy e.workerSessionId && e.workerSessionId != p.workerSessionId

/-- A finished row is kept unless a terminal event or a new session comes. -/
def preservesFinished (previous : Option CardRuntime) : Bool :=
  previous.any (·.finishedAt.isSome) && !e.terminal && !e.newSession previous

/-- A late event of an older worker attempt. -/
def fromOldSession (previous : Option CardRuntime) : Bool :=
  !e.started && previous.any fun p =>
    truthy p.workerSessionId && truthy e.workerSessionId &&
      e.workerSessionId != p.workerSessionId

/-- A replayed start that is older than the current session. -/
def replayedStart (previous : Option CardRuntime) : Bool :=
  e.newSession previous && previous.any fun p =>
    p.workerStartedAt.any fun t => decide (e.createdAt < t)

def newAttempt (previous : Option CardRuntime) : Bool :=
  e.newSession previous && previous.any (·.workerStartedAt.isSome)

/-- The status column of a new attempt. -/
def attemptStatus : String :=
  if e.kind = "worker_exited" then "exited"
  else if e.kind = "reclaimed" then "reclaimed"
  else if e.kind = "blocked" then "blocked"
  else if e.kind = "completed" then "completion_recorded"
  else if e.terminal then e.kind
  else "running"

/-- The status column of an attempt that had status `old`. -/
def nextAttemptStatus (old : String) : String :=
  if e.kind = "worker_exited" ∧ old ≠ "reclaimed" then "exited"
  else if e.kind = "reclaimed" then "reclaimed"
  else if e.kind = "blocked" then "blocked"
  else if e.kind = "completed" then "completion_recorded"
  else if e.terminal then e.kind
  else old

def exitTime : Option Nat :=
  if e.kind = "worker_exited" ∨ e.kind = "reclaimed" then some e.createdAt else none

/-- `CASE WHEN b THEN created_at END`. -/
def timeIf (b : Bool) : Option Nat := if b then some e.createdAt else none

def firstAttempt (runId runKey : String) (attempt : Nat) : CardAttempt where
  runId
  board := e.board
  cardId := e.cardId
  runKey
  attempt
  workerPid := e.workerPid
  workerSessionId := e.workerSessionId
  startedAt := e.timeIf e.started
  blockedAt := e.timeIf (e.kind == "blocked")
  completionAt := e.timeIf (e.kind == "completed")
  exitedAt := e.exitTime
  lastHeartbeatAt := e.timeIf e.heartbeat
  lastProgressAt := e.timeIf e.progress
  status := e.attemptStatus
  terminalReason := if e.terminal then some e.kind else none

def updateAttempt (a : CardAttempt) : CardAttempt :=
  { a with
    workerPid := e.workerPid <|> a.workerPid
    workerSessionId := e.workerSessionId <|> a.workerSessionId
    startedAt := a.startedAt <|> e.timeIf e.started
    blockedAt := a.blockedAt <|> e.timeIf (e.kind == "blocked")
    completionAt := a.completionAt <|> e.timeIf (e.kind == "completed")
    exitedAt := a.exitedAt <|> e.exitTime
    lastHeartbeatAt := e.timeIf e.heartbeat <|> a.lastHeartbeatAt
    lastProgressAt := e.timeIf e.progress <|> a.lastProgressAt
    status := e.nextAttemptStatus a.status
    terminalReason := if e.terminal then some e.kind else a.terminalReason }

end RuntimeEvent

def CardAttempt.ofCard (board : String) (cardId : CardId) (a : CardAttempt) : Bool :=
  a.board == board && a.cardId == cardId

/-- `COALESCE(MAX(attempt), 0) + 1` over the attempts of a card. -/
def Store.nextAttempt (s : Store) (board : String) (cardId : CardId) : Nat :=
  ((s.cardAttempts.filter (·.ofCard board cardId)).map (·.attempt)).foldr max 0 + 1

/-- `ORDER BY attempt DESC LIMIT 1`. -/
def latestAttempt (attempts : List CardAttempt) : Option CardAttempt :=
  attempts.foldl (fun best a => match best with
    | none => some a
    | some b => if b.attempt < a.attempt then some a else some b) none

/-- The latest reclaimed attempt of the card other than `runId`. -/
def Store.reclaimedBefore (s : Store) (e : RuntimeEvent) (runId : String) : Option CardAttempt :=
  latestAttempt (s.cardAttempts.filter fun a =>
    a.ofCard e.board e.cardId && a.status == "reclaimed" && a.runId != runId)

def Store.mapAttempt (s : Store) (runId : String) (f : CardAttempt → CardAttempt) : Store :=
  { s with cardAttempts := s.cardAttempts.map fun a => if a.runId = runId then f a else a }

/-- A start after a reclaim records which run it was redispatched from. -/
def linkRedispatch (e : RuntimeEvent) (runId : String) (s : Store) : Store :=
  if e.started then
    match s.reclaimedBefore e runId with
    | some reclaimed => s.mapAttempt runId fun a =>
        { a with redispatchedFromRunId := a.redispatchedFromRunId <|> some reclaimed.runId }
    | none => s
  else s

/-- The attempt part of `record_card_runtime_event`, made when the event names
its Hermes run. -/
def recordAttempt (e : RuntimeEvent) (runId : String) : Txn Unit := fun s =>
  match s.managedCard e.board e.cardId with
  | none => .error (.valueError s!"unknown_managed_card:{e.board}:{e.cardId.text}")
  | some managed =>
    match s.cardAttempts.find? (·.runId == runId) with
    | some a =>
      if a.board ≠ e.board ∨ a.cardId ≠ e.cardId ∨ a.runKey ≠ managed.runKey then
        .error (.fatal s!"attempt_run_id_conflict:{runId}")
      else .ok ((), linkRedispatch e runId (s.mapAttempt runId e.updateAttempt))
    | none =>
      -- `card_attempts.run_key` references `runs`.
      if (s.runRecord managed.runKey).isNone then .error databaseError
      else .ok ((), linkRedispatch e runId { s with cardAttempts := s.cardAttempts ++
        [e.firstAttempt runId managed.runKey (s.nextAttempt e.board e.cardId)] })

/-- The row `record_card_runtime_event` leaves over `previous`. -/
def RuntimeEvent.runtimeRow (e : RuntimeEvent) (previous : Option CardRuntime) : CardRuntime :=
  let row := previous.getD {}
  { row with
    workerPid := e.workerPid <|> row.workerPid
    workerStartedAt :=
      if e.newAttempt previous then e.timeIf e.started
      else row.workerStartedAt <|> e.timeIf e.started
    workerSessionId := e.workerSessionId <|> row.workerSessionId
    lastHeartbeatAt := e.timeIf e.heartbeat <|> row.lastHeartbeatAt
    lastProgressEventAt := e.timeIf e.progress <|> row.lastProgressEventAt
    deadlineAt := (e.timeIf e.progress).map (· + e.leaseSeconds) <|> row.deadlineAt
    lastEventKind := some e.kind
    attempt := row.attempt + if e.newAttempt previous then 1 else 0
    attemptStatus :=
      if e.terminal then "finished"
      else if e.progress || e.heartbeat then "running"
      else "created"
    finishedAt := e.timeIf e.terminal
    terminalReason := if e.terminal then some e.kind else none }

/-- The event reaches the `card_runtime` row. -/
def RuntimeEvent.written (e : RuntimeEvent) (previous : Option CardRuntime) : Bool :=
  !e.preservesFinished previous && !e.fromOldSession previous && !e.replayedStart previous

/-- `record_card_runtime_event`. -/
def recordCardRuntimeEvent (e : RuntimeEvent) : Txn Unit := fun s =>
  let previous := s.cardRuntime e.key
  -- A finished attempt still takes the `worker_exited` that closes its timeline.
  if e.preservesFinished previous ∧ e.kind ≠ "worker_exited" then .ok ((), s)
  else
    match (match e.runId with
      | some runId => recordAttempt e runId s
      | none => .ok ((), s)) with
    | .error err => .error err
    | .ok (_, s) =>
      if e.written previous then
        .ok ((), { s with cardRuntime := s.cardRuntime.put e.key (e.runtimeRow previous) })
      else .ok ((), s)

/-! ## The other writers -/

/-- `record_attempt_metric`: the run id references `card_attempts`. -/
def recordAttemptMetric (runId metric : String) : Txn Unit := fun s =>
  if s.cardAttempts.any (·.runId == runId) then
    .ok ((), { s with attemptMetrics :=
      if s.attemptMetrics.contains (runId, metric) then s.attemptMetrics
      else s.attemptMetrics ++ [(runId, metric)] })
  else .error databaseError

structure AttemptRegistration where
  board : String
  cardId : CardId
  profile : String
  dispatchKey : String
  worktree : String
  branch : String
  deriving DecidableEq, Repr

/-- `register_card_attempt`. -/
def registerCardAttempt (r : AttemptRegistration) : Txn Unit := fun s =>
  let row := (s.cardRuntime (r.board, r.cardId)).getD {}
  .ok ((), { s with cardRuntime := s.cardRuntime.put (r.board, r.cardId) { row with
    profile := some r.profile
    dispatchKey := some r.dispatchKey
    worktree := some r.worktree
    branch := some r.branch } })

/-- The arguments of `record_attempt_completion`. -/
structure AttemptCompletion where
  board : String
  cardId : CardId
  accepted : Bool
  mrIid : Option Nat
  headSha : Option String
  reason : Option String := none
  deriving DecidableEq, Repr

/-- `reason[:1000] if reason else None`. -/
def clippedReason (reason : Option String) : Option String :=
  if truthy reason then reason.map (clip 1000) else none

/-- The row `record_attempt_completion` leaves over `row`. -/
def AttemptCompletion.apply (c : AttemptCompletion) (now : Nat) (row : CardRuntime) :
    CardRuntime :=
  { row with
    mrIid := c.mrIid <|> row.mrIid
    headSha := c.headSha <|> row.headSha
    attemptStatus := if c.accepted then "completed_accepted" else "completed_rejected"
    finishedAt := row.finishedAt <|> some now
    terminalReason := clippedReason c.reason <|> row.terminalReason }

/-- `record_attempt_completion`: an `UPDATE`, so a card without a row stays without. -/
def recordAttemptCompletion (c : AttemptCompletion) (now : Nat) : Txn Unit := fun s =>
  .ok ((), { s with cardRuntime := s.cardRuntime.modify (c.board, c.cardId) (c.apply now) })

/-- The arguments of `update_worker_watchdog`. -/
structure WatchdogUpdate where
  board : String
  cardId : CardId
  attemptStatus : String
  leaseSeconds : Option Nat := none
  reason : Option String := none
  incrementRedispatch : Bool := false
  deriving DecidableEq, Repr

/-- The attempts and the redispatch count after `increment_redispatch`. -/
def WatchdogUpdate.redispatch (u : WatchdogUpdate) (s : Store) : List CardAttempt × Option Nat :=
  if !u.incrementRedispatch then (s.cardAttempts, none)
  else match latestAttempt (s.cardAttempts.filter (·.ofCard u.board u.cardId)) with
    | some current =>
      let why := clip 1000 (if truthy u.reason then u.reason.getD "" else "redispatch_requested")
      let attempts := s.cardAttempts.map fun a =>
        if a.runId = current.runId then { a with recoveryReason := a.recoveryReason <|> some why }
        else a
      (attempts,
        some ((attempts.filter fun a => a.ofCard u.board u.cardId && a.recoveryReason.isSome).length))
    | none => (s.cardAttempts, (s.cardRuntime (u.board, u.cardId)).map (·.redispatchCount + 1))

/-- `update_worker_watchdog`. The update is committed before the row count is
looked at, so the attempts are written even when the card has no runtime row. -/
def updateWorkerWatchdog (u : WatchdogUpdate) (now : Nat) (s : Store) :
    Except ControllerError Unit × Store :=
  let (attempts, count) := u.redispatch s
  let row (r : CardRuntime) : CardRuntime :=
    { r with
      attemptStatus := u.attemptStatus
      deadlineAt := u.leaseSeconds.map (now + ·) <|> r.deadlineAt
      redispatchCount := count.getD r.redispatchCount
      terminalReason := clippedReason u.reason <|> r.terminalReason }
  let s' := { s with cardAttempts := attempts,
                     cardRuntime := s.cardRuntime.modify (u.board, u.cardId) row }
  if (s.cardRuntime (u.board, u.cardId)).isSome then (.ok (), s')
  else (.error (.valueError s!"unknown_card_runtime:{u.board}:{u.cardId.text}"), s')

/-! ## What the writers do to the row -/

theorem recordAttempt_runtime {e : RuntimeEvent} {runId : String} {s s' : Store} {u : Unit}
    (h : recordAttempt e runId s = .ok (u, s')) : s'.cardRuntime = s.cardRuntime := by
  have hlink : ∀ t : Store, (linkRedispatch e runId t).cardRuntime = t.cardRuntime := by
    intro t
    unfold linkRedispatch Store.mapAttempt
    split
    · split <;> rfl
    · rfl
  unfold recordAttempt at h
  split at h
  · cases h
  · split at h
    · split at h
      · cases h
      · cases h
        exact hlink _
    · split at h
      · cases h
      · cases h
        exact hlink _

/-- The row of a card after an event of the card: the old one or the written one. -/
theorem recordCardRuntimeEvent_row {e : RuntimeEvent} {s s' : Store} {u : Unit}
    (h : recordCardRuntimeEvent e s = .ok (u, s')) :
    s'.cardRuntime = if e.written (s.cardRuntime e.key)
      then s.cardRuntime.put e.key (e.runtimeRow (s.cardRuntime e.key)) else s.cardRuntime := by
  unfold recordCardRuntimeEvent at h
  dsimp only at h
  split at h
  · rename_i hp
    cases h
    simp [RuntimeEvent.written, hp.1]
  · split at h
    · cases h
    · rename_i s₁ hs₁
      have hrow : s₁.cardRuntime = s.cardRuntime := by
        revert hs₁
        cases e.runId with
        | none =>
          intro hs₁
          cases hs₁
          rfl
        | some runId => exact recordAttempt_runtime
      split at h <;> rename_i hw <;> cases h <;> simp [hw, hrow]

end HollysysController
