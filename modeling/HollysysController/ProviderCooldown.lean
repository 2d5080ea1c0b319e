import HollysysController.Delivery
import HollysysController.Operations

/-! # Provider cooldowns

A worker that exits with code 75 met a provider failure. The Controller means
to quarantine the attempt: reclaim it, keep its card blocked, and release the
card when the cooldown is over. The patched CAS reclaim writes `ready`, so the
quarantine never finds the card blocked. -/

namespace HollysysController

open Durable

/-- The operation that quarantines an attempt. -/
def tempfailCall (run : RunRecord) (managed : ManagedCard) (runId workerPid : Nat) :
    OperationCall where
  key := s!"{run.runKey}:provider-tempfail:{managed.cardId.text}:{runId}:{workerPid}"
  kind := "provider-tempfail-quarantine"
  payload := .providerTempfail run.runKey managed.board managed.cardId runId workerPid

/-- The `rate_limited` event the quarantine records. -/
def tempfailEvent (cfg : Config) (managed : ManagedCard) (createdAt runId workerPid : Nat) :
    RuntimeEvent where
  board := managed.board
  cardId := managed.cardId
  kind := "rate_limited"
  createdAt
  workerSessionId := some s!"kanban-run:{runId}"
  workerPid := some workerPid
  leaseSeconds := cfg.providerTempfailCooldownSeconds
  runId := some s!"{managed.board}:{runId}"

/-- The inner `quarantine` of `_record_provider_tempfail_exit`. -/
def quarantine (cfg : Config) (managed : ManagedCard) (createdAt runId workerPid : Nat) :
    Service OperationResult := do
  let refreshed ← quarantineProviderTempfail managed.board managed.cardId runId workerPid
  store (.recordCardRuntimeEvent (tempfailEvent cfg managed createdAt runId workerPid))
  store (.updateWorkerWatchdog {
    board := managed.board
    cardId := managed.cardId
    attemptStatus := "provider_cooldown"
    leaseSeconds := some cfg.providerTempfailCooldownSeconds
    reason := some "provider_tempfail_exit_75" })
  pure (.quarantined refreshed.status.value runId)

/-- `_record_provider_tempfail_exit`. -/
def recordProviderTempfailExit (cfg : Config) (managed : ManagedCard) (event : EventRecord)
    (workerPid : Nat) : Service Unit :=
  match event.runId with
  | none => pure ()
  | some runId => do
    store (.recordAttemptMetric s!"{managed.board}:{runId}" "worker_exit")
    match ← hermes (.task managed.board managed.cardId) with
    | none => pure ()
    | some task =>
      if task.status ≠ .running ∨ task.currentRunId ≠ some runId ∨
          task.workerPid ≠ some workerPid then pure ()
      else
        match ← store (.runRecord managed.runKey) with
        | none => raise (.fatal s!"unknown_run:{managed.runKey}")
        | some run =>
          let _ ← operation (tempfailCall run managed runId workerPid) none
            (quarantine cfg managed event.createdAt runId workerPid)
          pure ()

/-- The operation that releases a card whose cooldown is over. -/
def cooldownCall (runKey board : String) (id : CardId) (session : String) : OperationCall where
  key := s!"{runKey}:provider-tempfail-release:{id.text}:{session}"
  kind := "provider-tempfail-release"
  payload := .providerRelease runKey board id session

/-- The end of the release: the card must be on its way to a worker. -/
def retryReady (board : String) (id : CardId) : Option TaskRecord → Service OperationResult
  | none => raise (.valueError "provider cooldown card is not retryable: missing")
  | some task =>
    if redispatchable task then do
      store (.updateWorkerWatchdog {
        board
        cardId := id
        attemptStatus := "provider_retry_ready"
        reason := some "provider_tempfail_cooldown_elapsed" })
      pure (.released task.status.value)
    else raise (.valueError s!"provider cooldown card is not retryable: {task.status.value}")

/-- `release` of `_release_provider_cooldowns`. -/
def releaseCooldown (board : String) (id : CardId) : Service OperationResult := do
  match ← hermes (.task board id) with
  | none => raise (.valueError s!"unknown task {id.text}")
  | some task =>
    if task.status = .blocked then
      release board id
      let refreshed ← hermes (.task board id)
      retryReady board id refreshed
    else retryReady board id (some task)

/-! ## What the cooldown owes -/

/-- A status in which neither the dispatcher nor a worker takes the card up. -/
def TaskStatus.isHeld (s : TaskStatus) : Bool := s.isActive && s != .todo && s != .ready &&
  s != .running

/-- The row records a provider cooldown. -/
def CardRuntime.cooling (row : CardRuntime) : Prop :=
  row.attemptStatus = "provider_cooldown" ∧ row.deadlineAt.isSome

/-- The store after polling events, each committed or rolled back. -/
def pollEvents : List RuntimeEvent → Store → Store
  | [], s => s
  | e :: es, s => pollEvents es ((recordCardRuntimeEvent e).commit s).2

/-- The event belongs to the attempt the row records. -/
def RuntimeEvent.ofAttempt (e : RuntimeEvent) (key : String × CardId) (row : CardRuntime) : Prop :=
  e.key = key ∧ truthy e.workerSessionId ∧ e.workerSessionId = row.workerSessionId

/-- What an exit with code 75 of a running card owes: no fatal end, a card that
is held, and a cooldown row that the later events of the attempt leave as it is. -/
structure CooldownLaw (managed : ManagedCard) (r : Durable.Outcome ControllerError Unit)
    (w : World) : Prop where
  notFatal : ∀ text, r ≠ .raised (.fatal text)
  held : ∀ t, w.hermes.find managed.board managed.cardId = some t → t.status.isHeld
  kept : ∃ row, w.store.cardRuntime (managed.board, managed.cardId) = some row ∧ row.cooling ∧
    ∀ es : List RuntimeEvent, (∀ e ∈ es, e.ofAttempt (managed.board, managed.cardId) row) →
      ∃ row', (pollEvents es w.store).cardRuntime (managed.board, managed.cardId) = some row' ∧
        row'.attemptStatus = row.attemptStatus ∧ row'.deadlineAt = row.deadlineAt

/-- The card still runs the attempt that exited. -/
def StillRunning (w : World) (managed : ManagedCard) (event : EventRecord) (pid : Nat) : Prop :=
  ∃ t runId, w.hermes.find managed.board managed.cardId = some t ∧ t.status = .running ∧
    event.runId = some runId ∧ t.currentRunId = some runId ∧ t.workerPid = some pid

/-! ## The quarantine never holds the card -/

/-- The card is running or ready. -/
def Dispatchable (managed : ManagedCard) (w : World) : Prop :=
  ∃ t, w.hermes.find managed.board managed.cardId = some t ∧
    (t.status = .running ∨ t.status = .ready)

/-- The operations of the quarantine: store transactions, reads, and the CAS
reclaim that does not archive. -/
def quarantineOp : Op → Prop
  | .store _ => True
  | .hermes (.task _ _) => True
  | .hermes (.reclaim _ _ _ _ archive) => archive = false
  | _ => False

theorem quarantine_uses (cfg : Config) (managed : ManagedCard) (createdAt runId pid : Nat) :
    (quarantine cfg managed createdAt runId pid).Uses quarantineOp := by
  have ht : (hermes (.task managed.board managed.cardId)).Uses quarantineOp := Prog.uses_op trivial
  have hr : (hermes (.reclaim managed.board managed.cardId runId pid false)).Uses quarantineOp :=
    Prog.uses_op rfl
  have hreclaim : (reclaimAttempt managed.board managed.cardId runId pid).Uses quarantineOp := by
    refine ht.bind fun t => ?_
    cases t with
    | none => trivial
    | some t =>
      dsimp only
      split
      · split
        · trivial
        · exact hr.bind fun _ => ht
      · exact ht
  refine Prog.Uses.bind (hreclaim.bind fun t => ?_) fun t => ?_
  · cases t with
    | none => trivial
    | some t =>
      dsimp only
      split <;> trivial
  · exact (Prog.uses_op trivial).bind fun _ => (Prog.uses_op trivial).bind fun _ => trivial

theorem recordProviderTempfailExit_uses (cfg : Config) (managed : ManagedCard)
    (event : EventRecord) (pid : Nat) :
    (recordProviderTempfailExit cfg managed event pid).Uses quarantineOp := by
  unfold recordProviderTempfailExit
  cases event.runId with
  | none => trivial
  | some runId =>
    refine (Prog.uses_op trivial).bind fun _ => (Prog.uses_op trivial).bind fun t => ?_
    cases t with
    | none => trivial
    | some t =>
      dsimp only
      split
      · trivial
      · refine (Prog.uses_op trivial).bind fun run => ?_
        cases run with
        | none => trivial
        | some run =>
          exact (operation_closed (closed_uses quarantineOp) (fun _ _ => Prog.uses_op trivial)
            (quarantine_uses _ _ _ _ _)).bind fun _ => trivial

/-- A reclaim that does not archive leaves a running or ready card so. -/
theorem reclaim_dispatchable {h : Hermes} {board board' : String} {id id' : CardId}
    {runId pid now : Nat} {t : HermesTask} (hf : h.find board id = some t)
    (ht : t.status = .running ∨ t.status = .ready) :
    ∃ t', ((Hermes.reclaim board' id' runId pid false now).commit h).2.find board id = some t' ∧
      (t'.status = .running ∨ t'.status = .ready) := by
  simp only [Command.commit, Hermes.reclaim]
  split
  · rename_i h₁
    split at h₁
    · cases h₁
    · split at h₁
      · cases h₁
        simp only [Hermes.find_appendEvent, Bool.false_eq_true, if_false]
        rw [Hermes.find_updateTask (f := (·.reclaimed false)) (fun t => ⟨rfl, rfl⟩), hf]
        simp only [Option.map_some, Option.some.injEq, exists_eq_left']
        split
        · exact .inr rfl
        · exact ht
      · cases h₁
  · exact ⟨t, hf, ht⟩

theorem dispatchable_step {managed : ManagedCard} (o : Op) (w : World) (ho : quarantineOp o)
    (h : Dispatchable managed w) : Dispatchable managed (machine.exec o w).2 := by
  obtain ⟨t, hf, ht⟩ := h
  cases o with
  | store o =>
    rw [exec_store]
    exact ⟨t, hf, ht⟩
  | hermes o =>
    rw [exec_hermes]
    cases o with
    | task => exact ⟨t, hf, ht⟩
    | reclaim board' id' runId' pid' archive =>
      obtain rfl : archive = false := ho
      exact reclaim_dispatchable hf ht
    | taskByIdempotency | eventsAfter | create | promote | complete | completeWith | specify
    | comment | archive =>
      exact ho.elim
  | gitlab o => exact ho.elim
  | host o => exact ho.elim

/-- **An exit with code 75 never leaves its card held.** Whatever fails or stops on
the way, the card ends running or ready, so no input meets the cooldown law. -/
theorem tempfail_never_cools {cfg : Config} {managed : ManagedCard} {event : EventRecord}
    {pid : Nat} {w w' : World} {r : Durable.Outcome ControllerError Unit}
    (hw : StillRunning w managed event pid)
    (hr : Runs machine (.alone _ _ _) (recordProviderTempfailExit cfg managed event pid) w r w') :
    ¬ CooldownLaw managed r w' := by
  obtain ⟨t, runId, hf, hrun, -⟩ := hw
  have hd : Dispatchable managed w' := hr.sound (wp_invariant
    (I := Dispatchable managed) (fun s s' hs ho => by cases ho; exact hs)
    (fun o s ho hs => dispatchable_step o s ho hs)
    (recordProviderTempfailExit_uses cfg managed event pid) ⟨t, hf, .inl hrun⟩)
  rintro ⟨-, hheld, -⟩
  obtain ⟨t', hf', ht'⟩ := hd
  have := hheld t' hf'
  rcases ht' with ht' | ht' <;> simp [ht', TaskStatus.isHeld, TaskStatus.isActive] at this

/-! ## A quarantine that ends fatally -/

/-- A GitLab that is down. -/
def downGitLab : GitLab where
  mr _ _ _ := .error (.dependency .transient "timeout" { dependency := "gitlab" })
  check _ := .error (.dependency .transient "timeout" { dependency := "gitlab" })

def sampleConfig : Config where
  sha256 text := text
  contextDigest record := record.idempotencyKey

def sampleCard (id parent : Nat) (stage : Stage) : ManagedCard where
  board := "app"
  cardId := ⟨id⟩
  runKey := "run-a"
  stage := .work stage
  iteration := 1
  idempotencyKey := s!"run-a:{stage.value}:1:normal:work"
  parentCardId := some ⟨parent⟩
  purpose := .work
  createdAt := 10

/-- Attempt 3 runs the card as process 40, and its claim was polled. -/
def tempfailWorld : World where
  store :=
    let claimed : RuntimeEvent :=
      { board := "app", cardId := ⟨5⟩, kind := "claimed", createdAt := 20,
        workerSessionId := some "kanban-run:3", workerPid := some 40, leaseSeconds := 1800,
        runId := some "app:3" }
    ((recordCardRuntimeEvent claimed).commit
      { runs := [sampleRun "run-a" "ga" 1], managedCards := [sampleCard 5 4 .implement] }).2
  hermes :=
    { tasks := [{ id := ⟨5⟩, board := "app", body := .other "", assignee := some "coder",
                  status := .running, createdBy := some "hollysys-controller", createdAt := 10,
                  idempotencyKey := some "run-a:implement:1:normal:work", tenant := some "run-a",
                  skills := [], parents := [⟨4⟩], currentRunId := some 3, workerPid := some 40 }]
      nextTask := 6
      nextRun := 4 }
  gitlab := downGitLab
  now := 100

/-- Process 40 exits with code 75. -/
def tempfailExit : EventRecord where
  id := 9
  board := "app"
  taskId := ⟨5⟩
  runId := some 3
  kind := "worker_exited"
  payload := some { workerPid := some 40, exitKind := some "exited", exitCode := some 75 }
  createdAt := 99

theorem tempfailWorld_running : StillRunning tempfailWorld (sampleCard 5 4 .implement)
    tempfailExit 40 :=
  ⟨tempfailWorld.hermes.tasks.head (by decide), 3, rfl, rfl, rfl, rfl, rfl⟩

/-- The undisturbed call kills the Controller and leaves the card ready. -/
theorem tempfailExit_fatal :
    let run := recordProviderTempfailExit sampleConfig (sampleCard 5 4 .implement) tempfailExit 40
    StillRunning tempfailWorld (sampleCard 5 4 .implement) tempfailExit 40 ∧
    (machine.eval run tempfailWorld).1 = .raised (.fatal
      "operation_failed_without_classification:provider-tempfail-quarantine:provider tempfail card t_5 did not enter cooldown block: ready") ∧
    ¬ CooldownLaw (sampleCard 5 4 .implement) (machine.eval run tempfailWorld).1
      (machine.eval run tempfailWorld).2 := by
  have hr : (machine.eval (recordProviderTempfailExit sampleConfig (sampleCard 5 4 .implement)
      tempfailExit 40) tempfailWorld).1 = .raised (.fatal
      "operation_failed_without_classification:provider-tempfail-quarantine:provider tempfail card t_5 did not enter cooldown block: ready") := by
    decide +kernel
  exact ⟨tempfailWorld_running, hr, fun h => h.notFatal _ hr⟩

theorem tempfailExit_never_cools :
    ¬ CooldownLaw (sampleCard 5 4 .implement)
      (machine.replay (recordProviderTempfailExit sampleConfig (sampleCard 5 4 .implement)
        tempfailExit 40) [] tempfailWorld).1
      (machine.replay (recordProviderTempfailExit sampleConfig (sampleCard 5 4 .implement)
        tempfailExit 40) [] tempfailWorld).2 :=
  tempfail_never_cools tempfailWorld_running
    (replay_runs (fun _ => rfl) (fun _ _ _ => trivial) _ [] tempfailWorld)

/-! ## What the later events would do to a cooldown -/

/-- A polled event of a finished attempt leaves its cooldown alone exactly when
it is not terminal. The `reclaimed` and `blocked` events of the quarantine are. -/
theorem event_keeps_cooldown_iff {e : RuntimeEvent} {s s' : Store} {row : CardRuntime}
    (hrow : s.cardRuntime e.key = some row) (hcool : row.cooling)
    (hfin : row.finishedAt.isSome) (he : e.ofAttempt e.key row)
    (hs : recordCardRuntimeEvent e s = .ok ((), s')) :
    (∃ row', s'.cardRuntime e.key = some row' ∧ row'.attemptStatus = row.attemptStatus ∧
      row'.deadlineAt = row.deadlineAt) ↔ e.terminal = false := by
  obtain ⟨-, -, hsession⟩ := he
  rw [recordCardRuntimeEvent_row hs, hrow]
  have hnew : e.newSession (some row) = false := by simp [RuntimeEvent.newSession, hsession]
  cases ht : e.terminal with
  | true =>
    have hw : e.written (some row) = true := by
      simp [RuntimeEvent.written, RuntimeEvent.preservesFinished, RuntimeEvent.fromOldSession,
        RuntimeEvent.replayedStart, ht, hnew, hsession]
    simp [hw, RuntimeEvent.runtimeRow, ht, hcool.1]
  | false =>
    have hw : e.written (some row) = false := by
      simp [RuntimeEvent.written, RuntimeEvent.preservesFinished, ht, hnew, hfin]
    simp [hw, hrow]

end HollysysController
