import HollysysController.ReconcileAll

/-! # The calls of the service

Everything the Controller does to its store it does in one of a few calls: the
requests, the poll, the pass over one run, and the periodic pass. What holds of
the store operations that the calls issue holds of every call. -/

namespace HollysysController

open Durable

/-! ## The requests that get in -/

/-- The characters after the prefix of an id. -/
def isIdChar (c : Char) : Bool :=
  c.isAlphanum || c == '_' || c == '-'

/-- `^ou_[A-Za-z0-9_-]+$`. -/
def isOpenId (text : String) : Bool :=
  let rest := text.toList.drop 3
  "ou_".toList.isPrefixOf text.toList && !rest.isEmpty && rest.all isIdChar

/-- What `AbortRequest.model_validate` asks of the sender and the reason. -/
def AbortRequest.accepted (r : AbortRequest) : Bool :=
  isOpenId r.sender && !r.reason.isEmpty && decide (r.reason.length ≤ 1000)

theorem isOpenId_ne {text : String} (h : isOpenId text = true) : text ≠ "" := by
  rintro rfl
  revert h
  decide

theorem AbortRequest.accepted_named {r : AbortRequest} (h : r.accepted = true) :
    r.sender ≠ "" ∧ r.reason ≠ "" := by
  simp only [AbortRequest.accepted, Bool.and_eq_true, Bool.not_eq_true'] at h
  refine ⟨isOpenId_ne h.1.1, fun hr => ?_⟩
  rw [hr] at h
  exact absurd h.1.2 (by decide)

/-- A call of the service, with what it draws. -/
inductive Call where
  | start (draw : RunDraw) (inFlight : Bool) (r : StartRequest)
  | resolve (inFlight : Bool) (r : ResolveRequest)
  | recover (r : RecoverRequest)
  | abortRequest (token : String) (r : AbortRequest) (accepted : r.accepted = true)
  | abortConfirm (c : AbortConfirmRequest)
  | pollOnce (intentId : String → String) (boards : List String)
  | reconcile (runKey : String)
  | reconcileAll (sweep : Sweep)

def Call.run (cfg : Config) : Call → Service Unit
  | .start draw inFlight r => do let _ ← HollysysController.start cfg draw inFlight r
  | .resolve inFlight r => do let _ ← HollysysController.resolve cfg inFlight r
  | .recover r => do let _ ← HollysysController.recover cfg r
  | .abortRequest token r _ => do let _ ← HollysysController.abortRequest cfg token r
  | .abortConfirm c => do let _ ← HollysysController.abortConfirm cfg c
  | .pollOnce intentId boards => HollysysController.pollOnce cfg intentId boards
  | .reconcile runKey => reconcileWithPolicy cfg runKey
  | .reconcileAll sweep => HollysysController.reconcileAll cfg sweep

/-! ## The operations a call issues -/

/-- The arguments the service gives a store operation. -/
def StoreOp.Issued : StoreOp → Prop
  | transitionRun t => t.Issued
  | markCompleted _ _ compliance _ _ _ => isCompliance compliance = true
  | createAbortRequest row => row.sender ≠ "" ∧ row.reason ≠ ""
  | _ => True

def Op.Issued : Op → Prop
  | .store o => o.Issued
  | _ => True

/-- A judgement about everything the service issues. -/
structure Issuing (K : ∀ {α : Type}, Service α → Prop) : Prop extends Closed K where
  op : ∀ o : Op, o.Issued → K (Prog.op o : Service o.Ret)

theorem issuing_uses : Issuing (fun {α} (p : Service α) => p.Uses Op.Issued) where
  toClosed := closed_uses Op.Issued
  op _ ho := Prog.uses_op ho

/-- The arguments the service gives a store operation that it may issue anywhere. -/
def StoreOp.Called : StoreOp → Prop
  | transitionRun t => t.newState ≠ .dependencyDegraded ∧ t.Issued
  | createAbortRequest row => row.sender ≠ "" ∧ row.reason ≠ ""
  | markFlowCompleted _ _ _ _ | markCompleted _ _ _ _ _ _ | finishAbort _ _ _ _
  | associateOutageRun _ _ _ | recoverDependency _ => False
  | updateWorkerWatchdog u => u.incrementRedispatch = false
  | _ => True

def HermesOp.Called : HermesOp → Prop
  | reclaim _ _ _ _ _ => False
  | _ => True

def Op.Called : Op → Prop
  | .store o => o.Called
  | .hermes o => o.Called
  | _ => True

/-- A watchdog update that counts nothing. -/
theorem called_count {u : WatchdogUpdate} (h : (!u.incrementRedispatch) = true) :
    (StoreOp.updateWorkerWatchdog u).Called := by
  simpa [StoreOp.Called] using h

theorem HermesOp.called_of {o : HermesOp} (ho : o.evicts = false) : o.Called := by
  cases o <;> first | exact trivial | cases ho

theorem Op.Called.issued {o : Op} (h : o.Called) : o.Issued := by
  cases o with
  | store o => cases o <;> first | exact trivial | exact h.2 | exact h | exact h.elim
  | hermes o => exact trivial
  | gitlab o => exact trivial
  | host o => exact trivial

/-- A judgement about everything the service does: operations that it may issue anywhere, and
wholes that belong together. -/
structure Calling (K : ∀ {α : Type}, Service α → Prop) : Prop extends Closed K where
  op : ∀ o : Op, o.Called → K (Prog.op o : Service o.Ret)
  running : ∀ (cfg : Config) (board : String) (id : CardId) (task : TaskRecord),
    K (abortRunningTask cfg board id task)
  ended : ∀ (o : StoreOp) (row : OutboxRow), o.Issued → o.Tells row → K (tellEnd o row)
  failure : ∀ (cfg : Config) (runKey : String) (kind : DependencyKind) (text : String)
    (c : ErrorContext), K (handleDependencyError cfg runKey kind text c)
  recovery : ∀ (cfg : Config) (runKey base : String), K (recoverRunDependency cfg runKey base)
  circuit : ∀ cfg : Config, K (recoverGitlabCircuit cfg)
  requested : ∀ dependency : String,
    K (HollysysController.store (.recoverDependency s!"{dependency}:request"))
  late : ∀ (cfg : Config) (run : RunRecord) (x : LateWorker) (task : TaskRecord)
    (identity : WorkerIdentity) (head : String) (mr : Option MergeRequest),
    workerIdentity x.managed.board x.managed.cardId (some x.row) task = some identity →
      K (recoverLateWorker cfg run x identity head mr)

/-! ## Wholes -/

namespace Bookkeeping

variable {K : ∀ {α : Type}, Service α → Prop} (h : Bookkeeping K)
include h

theorem finishDependencyRecovery (cfg : Config) (base dependency : String) (outage : Outage) :
    K (finishDependencyRecovery cfg base dependency outage) :=
  h.bind (h.store _ rfl) fun _ => h.forM (fun _ => h.finishRunRecovery _ _ _ _) _

theorem recoverGitlabCircuit (cfg : Config) (hhealth : K (HollysysController.gitlab .health)) :
    K (recoverGitlabCircuit cfg) := by
  have hdegrade : ∀ kind c updated runKey, K (degradeAgain cfg kind c updated runKey) :=
    fun kind c updated runKey => by
      have hnotice : K (enqueueDependencyOutage cfg runKey updated) :=
        h.outageNotice _ _ _
      refine h.bind (h.store _ rfl) fun control => ?_
      split
      · exact hnotice
      · exact h.bind (h.transition _ (by simp [RunState.isReconcilable]) (by simp)
          ⟨by simp [RunState.isTerminal], rfl, fun _ => rfl, by simp [RunState.isAborting], rfl⟩)
          fun _ => hnotice
  refine h.bind (h.store _ rfl) fun outage => ?_
  cases outage with
  | none => exact h.pure _
  | some outage =>
    refine h.bind (h.host _) fun now => ?_
    split
    · exact h.pure _
    · refine h.bind (h.attempt hhealth) fun health => ?_
      cases health with
      | ok u =>
        refine h.bind (h.outage _ rfl) fun recovered => ?_
        cases recovered with
        | none => exact h.pure _
        | some recovered => exact h.finishDependencyRecovery _ _ _ _
      | error e =>
        dsimp only
        split
        · exact h.bind (h.outage _ rfl) fun _ => h.bind (h.store _ rfl) fun _ =>
            h.forM (hdegrade _ _ _) _
        · exact h.raise _

end Bookkeeping

namespace Passing

variable {K : ∀ {α : Type}, Service α → Prop} (h : Passing K)
include h

theorem leaseNotice (cfg : Config) (run : RunRecord) (x : LateWorker) (code : String) :
    K (enqueueWorkerLeaseNotice cfg run x code) := by
  unfold enqueueWorkerLeaseNotice
  split
  · exact h.pure _
  · exact h.store _ rfl

theorem watchdogTargetIsCurrent (x : LateWorker) : K (watchdogTargetIsCurrent x) := by
  refine h.bind (h.store _ rfl) fun control => ?_
  dsimp only
  split
  · exact h.pure _
  · refine h.bind (h.hermes _ rfl) fun task => ?_
    cases task with
    | none => exact h.pure _
    | some task =>
      dsimp only
      split
      · exact h.pure _
      · refine h.bind (h.store _ rfl) fun current => ?_
        cases current <;> exact h.pure _

theorem reclaimed (cfg : Config) (i : WorkerIdentity) : K (recordReclaimedAttempt cfg i) :=
  h.bind (h.host _) fun _ => h.store _ rfl

theorem reclaimAttempt (board : String) (id : CardId) (runId pid : Nat)
    (hreclaim : K (HollysysController.hermes (.reclaim board id runId pid false))) :
    K (reclaimAttempt board id runId pid) := by
  refine h.bind (h.hermes _ rfl) fun task => ?_
  cases task with
  | none => exact h.raise _
  | some task =>
    dsimp only
    split
    · split
      · exact h.raise _
      · exact h.bind hreclaim fun _ => h.hermes _ rfl
    · exact h.hermes _ rfl

section Evictions

variable {S : ∀ {α : Type}, Service α → Prop} (hlead : Leads K S)
include hlead

/-- The redispatch of a task, given its reclaim. -/
theorem redispatchStaleWorker {board : String} {id : CardId} {runId pid : Nat}
    (hattempt : S (HollysysController.reclaimAttempt board id runId pid)) :
    S (redispatchStaleWorker board id runId pid) := by
  refine hlead hattempt fun refreshed => ?_
  cases refreshed with
  | none => exact h.raise _
  | some refreshed =>
    dsimp only
    split
    · exact h.raise _
    · split
      · refine h.bind (h.plain.release _ _) fun _ => h.bind (h.hermes _ rfl) fun task => ?_
        cases task with
        | none => exact h.raise _
        | some task =>
          dsimp only
          split
          · exact h.pure _
          · exact h.raise _
      · split
        · exact h.pure _
        · exact h.raise _

/-- The redispatch of a late worker, given the reclaim of its task. -/
theorem redispatchWorker (cfg : Config) {run : RunRecord} {managed : ManagedCard}
    (row : CardRuntime) {i : WorkerIdentity}
    (hattempt : S (HollysysController.reclaimAttempt run.workspace.board managed.cardId i.runId
      i.workerPid))
    (hcount : ∀ u : WatchdogUpdate, K (HollysysController.store (.updateWorkerWatchdog u))) :
    S (redispatchWorker cfg run managed row i) := by
  refine hlead (h.redispatchStaleWorker hlead hattempt) fun _ =>
    h.bind (h.reclaimed _ _) fun _ => h.bind (hcount _) fun _ => ?_
  split
  · exact h.bind (h.reading.runControl _) fun _ => h.plain.enqueueProgress _ _ _ _
  · exact h.pure _

/-- A late worker whose budget is used up, given the end of its task. -/
theorem exhaustedWorker (cfg : Config) {run : RunRecord} {managed : ManagedCard}
    (row : CardRuntime) {i : WorkerIdentity}
    (habort : S (abortTask run.workspace.board managed.cardId (some (i.runId, i.workerPid)))) :
    S (exhaustedWorker cfg run managed row i) :=
  hlead habort fun _ => h.bind (h.reclaimed _ _) fun _ => h.bind (h.exception _ _ _ _) fun _ =>
    h.pure _

end Evictions

/-- The recovery of a late worker, given the reclaims and their counts. -/
theorem recoverLateWorker (cfg : Config) (run : RunRecord) (x : LateWorker)
    (identity : WorkerIdentity) (head : String) (mr : Option MergeRequest)
    (hreclaim : ∀ board id runId pid archive,
      K (HollysysController.hermes (.reclaim board id runId pid archive)))
    (hcount : ∀ u : WatchdogUpdate, K (HollysysController.store (.updateWorkerWatchdog u))) :
    K (recoverLateWorker cfg run x identity head mr) := by
  refine h.bind (h.watchdogTargetIsCurrent x) fun current => ?_
  split
  · exact h.pure _
  · refine h.bind (h.host _) fun confirmed => ?_
    split
    · exact h.leaseNotice _ _ _ _
    · refine h.bind (h.watchdogTargetIsCurrent x) fun current => ?_
      split
      · exact h.leaseNotice _ _ _ _
      · refine h.bind (h.host _) fun after =>
          h.bind (h.reading.boundDeliveryMr _ _) fun mrAfter => ?_
        split
        · exact h.leaseNotice _ _ _ _
        · split
          · exact h.exhaustedWorker h.bind cfg _
              (h.body.handling.abortTask _ _ _ fun _ _ _ => hreclaim _ _ _ _ _)
          · exact h.redispatchWorker h.bind cfg _
              (h.reclaimAttempt _ _ _ _ (hreclaim _ _ _ _ _)) hcount

end Passing

/-- Where every operation is allowed that the service may issue anywhere, and the ends of a
run with their notices, so are its wholes. -/
theorem calling_of_ends {K : ∀ {α : Type}, Service α → Prop} (hclosed : Closed K)
    (hop : ∀ o : Op, o.Called → K (Prog.op o : Service o.Ret))
    (hreclaim : ∀ board id runId pid archive, K (hermes (.reclaim board id runId pid archive)))
    (hcount : ∀ u : WatchdogUpdate, K (store (.updateWorkerWatchdog u)))
    (houtage : ∀ o : StoreOp, o.isOutage = true → K (store o))
    (htransition : ∀ t : Transition, t.Issued → K (store (.transitionRun t)))
    (hended : ∀ (o : StoreOp) (row : OutboxRow), o.Issued → o.Tells row → K (tellEnd o row)) :
    Calling K := by
  have hstore : ∀ o : StoreOp, o.isLive = true → K (store o) := fun o ho =>
    hop (.store o) (by cases o <;> first | exact trivial | exact called_count ho | cases ho)
  have hhermes : ∀ o : HermesOp, K (hermes o) := fun o => by
    cases o <;> first | exact hop (.hermes _) trivial | exact hreclaim _ _ _ _ _
  have hpassing : Passing K := passing_of_ends hclosed hstore houtage htransition
    (fun o row ho => hended o row (by cases o <;> first | exact trivial | exact ho | cases ho))
    hhermes (fun o => hop (.gitlab o) trivial) fun o => hop (.host o) trivial
  have hbook : Bookkeeping K := bookkeeping_of_ops hclosed hstore hhermes
    (fun o => hop (.gitlab o) trivial) (fun o => hop (.host o) trivial) houtage
    fun t _ => htransition t
  exact {
    hclosed with
    op := hop
    running := hpassing.running
    ended := hended
    failure := hpassing.failure
    recovery := hpassing.recovery
    circuit := fun cfg => hbook.recoverGitlabCircuit cfg (hop (.gitlab .health) trivial)
    requested := fun _ => houtage _ rfl
    late := fun cfg run x _ identity head mr _ =>
      hpassing.recoverLateWorker cfg run x identity head mr hreclaim hcount }

/-- Where everything the service issues is allowed, so are its wholes. -/
theorem Issuing.calling {K : ∀ {α : Type}, Service α → Prop} (h : Issuing K) : Calling K :=
  calling_of_ends h.toClosed (fun o ho => h.op o ho.issued) (fun _ _ _ _ _ => h.op (.hermes _) trivial)
    (fun _ => h.op (.store _) trivial) (fun o ho => h.op (.store o) (by cases o <;> first | exact trivial | cases ho))
    (fun _ ht => h.op (.store _) ht)
    fun o _ ho _ => h.bind (h.op (.store o) ho) fun _ => h.op (.store _) trivial

namespace Calling

variable {K : ∀ {α : Type}, Service α → Prop} (h : Calling K)
include h

theorem store (o : StoreOp) (ho : o.Called) : K (HollysysController.store o) := h.op (.store o) ho

theorem passing : Passing K where
  toClosed := h.toClosed
  store o ho := h.store o (by cases o <;> first | exact trivial | exact called_count ho | cases ho)
  transition _ hnew ht := h.store _ ⟨hnew, ht⟩
  ended o row ho := h.ended o row (by cases o <;> first | exact trivial | exact ho | cases ho)
  hermes _ ho := h.op (.hermes _) (HermesOp.called_of ho)
  running := h.running
  failure := h.failure
  recovery := h.recovery
  gitlab _ := h.op (.gitlab _) trivial
  host _ := h.op (.host _) trivial

theorem body : Body K := h.passing.body

theorem plain : Plain K := h.passing.plain

theorem reading : Reading K := h.passing.reading

/-! ## Requests -/

theorem recordRequestDependencyError (cfg : Config) (runKey : String) (kind : DependencyKind)
    (text : String) (c : ErrorContext) :
    K (recordRequestDependencyError cfg runKey kind text c) :=
  h.body.recordRequestDependencyError _ _ _ _ _

theorem settleStart (cfg : Config) (r : StartRequest) (runKey : Option String)
    (e : ControllerError) : K (settleStart cfg r runKey e) := by
  have hfail : ∀ text, K (do
      HollysysController.store (.failRequest r.key text)
      raise e : Service String) := fun text =>
    h.bind (h.store _ trivial) fun _ => h.raise _
  unfold HollysysController.settleStart
  dsimp only
  split
  · exact hfail _
  · exact h.bind (h.recordRequestDependencyError _ _ _ _ _) fun _ => h.raise _
  · split
    · exact h.raise _
    · exact hfail _
  · exact hfail _

theorem start (cfg : Config) (draw : RunDraw) (inFlight : Bool) (r : StartRequest) :
    K (start cfg draw inFlight r) := by
  have hfacts : K (startFacts cfg draw r) := by
    refine h.bind (h.bind (h.store _ trivial) fun row => ?_) fun run => ?_
    · split
      · exact h.store _ trivial
      · exact h.pure _
    · cases run with
      | some run => exact h.pure _
      | none => exact h.bind (h.op _ trivial) fun _ => h.bind (h.op _ trivial) fun _ => h.pure _
  have hrun : ∀ run, K (startRun cfg inFlight r run) := fun run => by
    refine h.bind (h.bind (h.store _ trivial) fun _ => h.bind (h.store _ trivial) fun _ =>
      h.store _ trivial) fun _ => ?_
    split
    · exact h.raise _
    · exact h.bind (startBound_body h.body cfg run) fun _ =>
        h.bind (h.store _ trivial) fun _ => h.pure _
  refine h.bind (h.store _ trivial) fun previous => ?_
  cases previous with
  | some previous => exact h.pure _
  | none =>
    refine h.bind (h.attempt hfacts) fun facts => ?_
    cases facts with
    | error e => exact h.settleStart _ _ _ _
    | ok run =>
      refine h.bind (h.attempt (hrun run)) fun response => ?_
      cases response with
      | error e => exact h.settleStart _ _ _ _
      | ok response => exact h.pure _

theorem resolveOnce (cfg : Config) (r : ResolveRequest) : K (resolveOnce cfg r) := by
  refine h.bind (h.reading.history _) fun read => ?_
  obtain ⟨items, run⟩ := read
  refine h.bind (h.reading.fromExcept _) fun i => h.bind (h.reading.fromExcept _) fun _ =>
    h.bind (h.reading.fromText _) fun found => ?_
  obtain ⟨stage, record⟩ := found
  refine h.bind (h.bind (h.reading.runControl _) fun control => ?_) fun _ =>
    h.bind (h.body.retryOf _ _ _ _ _ _ _) fun _ =>
    h.body.settleBlock _ _ _ _ _ _ fun _ => h.store _ trivial
  split
  · exact h.bind (h.store _ ⟨(fun hnew => by cases hnew), by simp [RunState.isTerminal], rfl,
      fun _ => rfl, by simp [RunState.isAborting], rfl⟩) fun _ => h.pure _
  · exact h.pure _

theorem resolve (cfg : Config) (inFlight : Bool) (r : ResolveRequest) :
    K (resolve cfg inFlight r) := by
  have hfail : ∀ e text, K (do
      HollysysController.store (.failRequest r.key text)
      raise e : Service String) := fun e text =>
    h.bind (h.store _ trivial) fun _ => h.raise _
  have hsettle : ∀ e, K (settleResolution cfg r e) := fun e => by
    unfold settleResolution
    dsimp only
    split
    · exact hfail _ _
    · exact h.bind (h.recordRequestDependencyError _ _ _ _ _) fun _ => h.raise _
    · split
      · exact h.raise _
      · exact hfail _ _
    · exact hfail _ _
  refine h.bind (h.store _ trivial) fun previous => ?_
  cases previous with
  | some previous => exact h.pure _
  | none =>
    refine h.bind (h.attempt ?_) fun response => ?_
    · split
      · exact h.raise _
      · exact h.resolveOnce _ _
    · cases response with
      | ok response => exact h.pure _
      | error e => exact hsettle e

theorem orException {α : Type} (cfg : Config) (runKey : String) {p : Service α} (hp : K p) :
    K (orException cfg runKey p) := by
  refine h.bind (h.attempt hp) fun r => ?_
  cases r with
  | ok a => exact h.pure _
  | error e =>
    exact h.bind (h.store _ trivial) fun _ =>
      h.bind (h.plain.enqueueControllerFailure _ _ _) fun _ => h.raise _

theorem archiveExceptions (cfg : Config) (board : String) (items : List HistoryItem) :
    K (archiveExceptions cfg board items) := by
  induction items with
  | nil => exact h.pure _
  | cons i is ih =>
    unfold HollysysController.archiveExceptions
    split
    · refine h.bind (h.body.handling.abortManagedTask _ _ _) fun archived => ?_
      split
      · exact ih
      · exact h.raise _
    · exact ih

theorem recoverOnce (cfg : Config) (r : RecoverRequest) : K (recoverOnce cfg r) := by
  have hhistory : K (recoverableHistory r.runKey) := by
    refine h.bind (h.attempt (h.reading.history _)) fun read => ?_
    cases read with
    | ok read => exact h.pure _
    | error e =>
      dsimp only
      split
      · refine h.bind (h.store _ trivial) fun run => ?_
        cases run with
        | none => exact h.raise _
        | some run => exact h.pure _
      · exact h.raise _
  have hcontinue : ∀ items run, K (continueRecovery cfg r items run) := fun items run => by
    unfold continueRecovery
    split
    · exact h.bind (h.orException _ _ (h.body.initializeRun _ _)) fun _ => h.pure _
    · split
      · exact h.pure _
      · exact h.bind (h.orException _ _ (h.bind (h.reading.fromText _) fun _ =>
          h.bind (h.reading.fromText _) fun _ => h.body.createWork _ _ _)) fun _ => h.pure _
  refine h.bind hhistory fun read => ?_
  obtain ⟨items, run⟩ := read
  refine h.bind (h.reading.fromExcept _) fun _ => h.bind (h.store _ trivial) fun control => ?_
  cases control with
  | none => exact h.raise _
  | some control =>
    dsimp only
    split
    · exact h.raise _
    · exact h.bind (h.archiveExceptions _ _ _) fun _ =>
        h.bind (h.store _ ⟨(fun hnew => by cases hnew),
          by simp [recoveryTransitionOf, RunState.isTerminal], rfl, fun _ => rfl,
          by simp [recoveryTransitionOf, RunState.isAborting], rfl⟩) fun _ =>
        h.bind (hcontinue _ _) fun _ => h.bind (h.store _ trivial) fun _ =>
        h.bind (h.store _ trivial) fun _ => h.pure _

theorem recover (cfg : Config) (r : RecoverRequest) : K (recover cfg r) := by
  have hfail : ∀ e text, K (do
      HollysysController.store (.failRequest r.key text)
      raise e : Service String) := fun e text =>
    h.bind (h.store _ trivial) fun _ => h.raise _
  have hsettle : ∀ e, K (settleRecovery cfg r e) := fun e => by
    unfold settleRecovery
    dsimp only
    split
    · exact hfail _ _
    · exact h.bind (h.recordRequestDependencyError _ _ _ _ _) fun _ => h.raise _
    · exact hfail _ _
  refine h.bind (h.store _ trivial) fun previous => ?_
  cases previous with
  | some previous => exact h.pure _
  | none =>
    refine h.bind (h.attempt (h.recoverOnce _ _)) fun response => ?_
    cases response with
    | ok response => exact h.pure _
    | error e => exact hsettle e

theorem abortRequest (cfg : Config) (token : String) (r : AbortRequest)
    (hr : r.accepted = true) : K (abortRequest cfg token r) := by
  have hfail : ∀ e text, K (do
      HollysysController.store (.failRequest r.key text)
      raise e : Service AbortAnswer) := fun e text =>
    h.bind (h.store _ trivial) fun _ => h.raise _
  have hsettle : ∀ e, K (settleAbortRequest cfg r e) := fun e => by
    unfold settleAbortRequest
    dsimp only
    split
    · exact hfail _ _
    · exact h.bind (h.recordRequestDependencyError _ _ _ _ _) fun _ => h.raise _
    · exact hfail _ _
  have honce : K (abortRequestOnce cfg token r) := by
    refine h.bind (h.reading.history _) fun read => ?_
    obtain ⟨items, run⟩ := read
    refine h.bind (h.reading.fromExcept _) fun _ => h.bind (h.store _ trivial) fun _ =>
      h.bind (h.reading.fromExcept _) fun _ => h.bind (h.op _ trivial) fun _ =>
      h.bind (h.store _ trivial) fun _ => h.bind (h.store _ ?_) fun _ =>
      h.bind (h.reading.history _) fun read => ?_
    · exact AbortRequest.accepted_named hr
    · obtain ⟨items, run⟩ := read
      exact h.bind (h.store _ trivial) fun _ => h.pure _
  refine h.bind (h.store _ trivial) fun previous => ?_
  cases previous with
  | some previous => exact h.pure _
  | none =>
    refine h.bind (h.attempt honce) fun answer => ?_
    cases answer with
    | ok answer => exact h.pure _
    | error e => exact hsettle e

theorem abortConfirm (cfg : Config) (c : AbortConfirmRequest) : K (abortConfirm cfg c) := by
  refine h.bind (h.store _ trivial) fun previous => ?_
  cases previous with
  | some previous => exact h.pure _
  | none =>
    refine h.bind (h.attempt (h.bind (h.store _ trivial) fun _ =>
      h.bind (h.store _ trivial) fun _ => h.pure _)) fun response => ?_
    cases response with
    | ok response => exact h.pure _
    | error e => exact h.bind (h.store _ trivial) fun _ => h.raise _

/-! ## The poll -/

section Poll

variable (hreclaim : ∀ board id runId pid,
  K (HollysysController.hermes (.reclaim board id runId pid false)))
include hreclaim

theorem recordAgentLifecycleEvent (cfg : Config) (managed : ManagedCard) (event : EventRecord) :
    K (recordAgentLifecycleEvent cfg managed event) := by
  have hnotice := h.plain.enqueueLifecycleNotice cfg managed
  unfold HollysysController.recordAgentLifecycleEvent
  split
  · exact h.pure _
  · refine h.bind (h.store _ trivial) fun _ => ?_
    dsimp only
    split
    · refine h.bind (h.plain.recordProviderTempfailExit _ _ _ _ (fun _ => hreclaim _ _ _ _)
        fun _ _ => h.store _ trivial) fun _ => ?_
      split
      · exact h.pure _
      · exact hnotice _
    · split
      · exact h.pure _
      · exact hnotice _

theorem pollEventList (cfg : Config) (board : String) (events : List EventRecord) :
    K (pollEventList cfg board events) := by
  induction events with
  | nil => exact h.pure _
  | cons e es ih =>
    refine h.bind (h.store _ trivial) fun managed => ?_
    have hcursor : K (HollysysController.store (.setCursor board e.id)) := h.store _ trivial
    cases managed with
    | none => exact h.bind hcursor fun _ => h.bind ih fun rest => h.pure _
    | some m =>
      exact h.bind (h.recordAgentLifecycleEvent hreclaim _ _ _) fun _ =>
        h.bind hcursor fun _ => h.bind ih fun rest => h.pure _

theorem pollOnce (cfg : Config) (intentId : String → String) (boards : List String) :
    K (pollOnce cfg intentId boards) := by
  have hboards : K (pollBoards cfg boards) := by
    induction boards with
    | nil => exact h.pure _
    | cons board boards ih =>
      refine h.bind (h.bind (h.store _ trivial) fun _ => h.bind (h.op _ trivial) fun _ =>
        h.pollEventList hreclaim _ _ _) fun _ => h.bind ih fun _ => h.pure _
  have hpending : ∀ entries, K (enqueuePending intentId entries) := fun entries => by
    induction entries with
    | nil => exact h.pure _
    | cons entry entries ih =>
      obtain ⟨runKey, eventId, reason⟩ := entry
      exact h.bind (h.store _ trivial) fun _ => ih
  exact h.bind hboards fun _ => hpending _

end Poll

/-! ## The pass over a run -/

theorem reconcileCompletion (cfg : Config) (run : RunRecord) (items : List HistoryItem)
    (latest : HistoryItem) : K (reconcileCompletion cfg run items latest) := by
  have p := h.passing
  have haccept : ∀ m, K (acceptCompletion cfg run items latest m) := fun m => by
    have hfollow : ∀ paired modifications,
        K (followRoute cfg run items latest m paired modifications) := fun paired modifications =>
      p.followRoute _ _ _ _ _ _ _ fun _ _ _ _ _ => h.ended _ _ trivial
    refine h.bind (h.reading.assertReconcileMutable _) fun _ => h.bind (h.store _ trivial) fun _ =>
      h.bind (p.enqueueAgentNotice _ _ _ _) fun _ =>
      h.bind (h.reading.codeModificationCount _) fun modifications =>
      h.bind (h.reading.pairedTest _ _ _) fun pairing => ?_
    cases pairing with
    | missing => exact p.restartAtTest _ _ _
    | notNeeded => exact hfollow _ _
    | found test => exact hfollow _ _
  refine h.bind (h.reading.caught (h.reading.validateCompletion _ _ _ _)) fun r => ?_
  cases r with
  | error text => exact p.protocolFailure _ _ _ _ _
  | ok m =>
    refine h.bind (h.reading.caught (h.reading.authoringCheck _ _)) fun r => ?_
    cases r with
    | error text => exact p.protocolFailure _ _ _ _ _
    | ok u =>
      refine h.bind (h.reading.caught (h.reading.gateCheck _ _)) fun r => ?_
      cases r with
      | error text => exact p.gateFailure _ _ _ _ _ _
      | ok u =>
        refine h.bind (h.reading.caught (h.reading.finalizationCheck _ _)) fun r => ?_
        cases r with
        | error text => exact p.protocolFailure _ _ _ _ _
        | ok u =>
          refine h.bind (p.liveCheck _ _ _ _ _) fun live => ?_
          split
          · exact haccept _
          · exact h.pure _

theorem reconcileRun (cfg : Config) (runKey : String) : K (reconcileRun cfg runKey) := by
  refine h.passing.reconcileRun cfg runKey (h.bind (h.reading.history _) fun read => ?_)
  obtain ⟨items, run⟩ := read
  exact h.passing.reconcileRead cfg runKey run items
    (h.passing.reconcileCards cfg run items fun latest _ _ =>
      h.reconcileCompletion cfg run items latest)

theorem reconcileWithPolicy (cfg : Config) (runKey : String) :
    K (reconcileWithPolicy cfg runKey) :=
  h.passing.reconcileWithPolicy cfg runKey (h.reconcileRun cfg runKey)

/-! ## The periodic pass -/

theorem replayRequest (cfg : Config) (sweep : Sweep) (dependencies : List String)
    (runKey : String) {replay : Service String} (hreplay : K replay) :
    K (replayRequest cfg sweep dependencies runKey replay) := by
  have hblocked : ∀ scopes, K (anyRetryBlocked scopes) := fun scopes => by
    induction scopes with
    | nil => exact h.pure _
    | cons scope scopes ih =>
      refine h.bind (h.store _ trivial) fun blocked => ?_
      split
      · exact h.pure _
      · exact ih
  have hdependency : ∀ dependency, K (recoverRequestDependency dependency) := fun dependency => by
    refine h.bind (h.op _ trivial) fun now => h.bind (h.store _ trivial) fun outage => ?_
    cases outage with
    | none => exact h.pure _
    | some outage =>
      dsimp only
      split
      · exact h.pure _
      · exact h.bind (h.requested _) fun _ => h.pure _
  have hcircuit : K (circuitOpen dependencies) := by
    unfold circuitOpen
    split
    · exact h.bind (h.store _ trivial) fun _ => h.pure _
    · exact h.pure _
  have hanswered : ∀ runKey, K (recoverAnswered cfg dependencies runKey) := fun runKey => by
    unfold recoverAnswered
    split
    · exact h.pure _
    · refine h.bind (h.recovery _ _ _) fun _ => ?_
      split
      · exact h.recovery _ _ _
      · exact h.pure _
  refine h.bind hcircuit fun waits => ?_
  split
  · exact h.pure _
  · refine h.bind (hblocked _) fun blocked => ?_
    split
    · exact h.pure _
    · exact h.bind hreplay fun _ => h.bind (hanswered _) fun _ => h.forM hdependency _

theorem requestStep (cfg : Config) (sweep : Sweep) (q : PersistedRequest) :
    K (requestStep cfg sweep q) := by
  have hsensitive : ∀ key runKey confirm, K (recoverSensitiveRequest key runKey confirm) :=
    fun key runKey confirm => by
      unfold recoverSensitiveRequest
      dsimp only
      split
      · refine h.bind (h.store _ trivial) fun control => ?_
        split <;> exact h.store _ trivial
      · exact h.store _ trivial
  have hresume : K (resumeRequest cfg sweep q) := by
    cases q with
    | start draw inFlight r runKey => exact h.replayRequest cfg sweep _ _ (h.start cfg draw inFlight r)
    | resolve inFlight r => exact h.replayRequest cfg sweep _ _ (h.resolve cfg inFlight r)
    | recover r => exact h.replayRequest cfg sweep _ _ (h.recover cfg r)
    | abortRequest key runKey => exact hsensitive key runKey false
    | abortConfirm key runKey => exact hsensitive key runKey true
  refine h.bind (h.attempt hresume) fun r => ?_
  cases r with
  | ok u => exact h.pure _
  | error e =>
    dsimp only
    split
    · exact h.raise _
    · exact h.pure _

theorem abortStep (cfg : Config) (sweep : Sweep) (runKey : String) :
    K (abortStep cfg sweep runKey) := by
  have habort : K (abortRun cfg sweep runKey) := by
    unfold abortRun
    split
    · exact h.pure _
    · exact h.bind (h.passing.continueAbort _ _) fun _ =>
        h.bind (h.recovery _ _ _) fun _ => h.recovery _ _ _
  refine h.bind (h.attempt habort) fun r => ?_
  cases r with
  | ok u => exact h.pure _
  | error e =>
    dsimp only
    unfold settleAbort
    split
    · exact h.plain.enqueueControllerFailure _ _ _
    · exact h.failure _ _ _ _ _
    · exact h.raise _
    · exact h.raise _

theorem retireExceptions (cfg : Config) (board : String) (review : CompletionMetadata)
    (items : List HistoryItem) : K (retireExceptions cfg board review items) := by
  induction items with
  | nil => exact h.pure _
  | cons i is ih =>
    unfold HollysysController.retireExceptions
    split
    · refine h.bind (h.op _ trivial) fun _ =>
        h.bind (h.body.handling.abortManagedTask _ _ _) fun archived => ?_
      split
      · exact ih
      · exact h.raise _
    · exact ih

theorem upgradeStep (cfg : Config) (sweep : Sweep) (runKey : String) :
    K (upgradeStep cfg sweep runKey) := by
  have hupgrade : K (upgradeLegacy cfg sweep runKey) := by
    refine h.bind (h.store _ trivial) fun control => ?_
    cases control with
    | none => exact h.pure _
    | some control =>
      dsimp only
      split
      · exact h.pure _
      · refine h.bind (h.reading.history _) fun read => ?_
        obtain ⟨items, run⟩ := read
        refine h.bind (h.reading.codeModificationCount _) fun modifications => ?_
        dsimp only
        split
        · exact h.pure _
        · refine h.bind (h.reading.fromText _) fun review => ?_
          cases review with
          | none => exact h.pure _
          | some review =>
            exact h.bind (h.retireExceptions _ _ _ _) fun _ =>
              h.bind (h.store _ ⟨(fun hnew => by cases hnew), by simp [RunState.isTerminal], rfl,
                fun _ => rfl, by simp [RunState.isAborting], rfl⟩) fun _ => h.store _ trivial
  refine h.bind (h.attempt hupgrade) fun r => ?_
  cases r with
  | ok u => exact h.pure _
  | error e =>
    dsimp only
    unfold settleUpgrade
    split
    · exact h.failure _ _ _ _ _
    · exact h.raise _
    · exact h.raise _

theorem releaseProviderCooldowns (sweep : Sweep) : K (releaseProviderCooldowns sweep) := by
  have hready : ∀ board id task, K (retryReady board id task) := fun board id task => by
    cases task with
    | none => exact h.raise _
    | some task =>
      unfold retryReady
      dsimp only
      split
      · exact h.bind (h.store _ rfl) fun _ => h.pure _
      · exact h.raise _
  have hrelease : ∀ board id, K (releaseCooldown board id) := fun board id => by
    refine h.bind (h.op _ trivial) fun task => ?_
    cases task with
    | none => exact h.raise _
    | some task =>
      dsimp only
      split
      · exact h.bind (h.plain.release _ _) fun _ => h.bind (h.op _ trivial) fun _ => hready _ _ _
      · exact hready _ _ _
  have hrows : ∀ runKey now rows, K (releaseRows runKey now rows) := fun runKey now rows => by
    induction rows with
    | nil => exact h.pure _
    | cons entry rows ih =>
      obtain ⟨managed, row⟩ := entry
      unfold releaseRows
      dsimp only
      split
      · exact h.bind (h.plain.operation _ _ (hrelease _ _)) fun _ => ih
      · exact ih
  have hstep : ∀ now runKey, K (cooldownStep sweep now runKey) := fun now runKey => by
    refine h.bind (h.store _ trivial) fun control => ?_
    split
    · exact hrows _ _ _
    · exact h.pure _
  exact h.bind (h.op _ trivial) fun now => h.bind (h.store _ trivial) fun runs =>
    h.forM (hstep now) _

/-! ## The watchdog -/

theorem checkOverdue (cfg : Config) (sweep : Sweep) (run : RunRecord) (x : LateWorker)
    (task : TaskRecord) (identity : WorkerIdentity)
    (hidentity : workerIdentity x.managed.board x.managed.cardId (some x.row) task = some identity) :
    K (checkOverdue cfg sweep run x task identity) := by
  have hnotice : ∀ code answer, K (do
      enqueueWorkerLeaseNotice cfg run x code
      pure answer : Service Bool) := fun code answer =>
    h.bind (h.passing.leaseNotice _ _ _ _) fun _ => h.pure _
  have hmr : K (watchedMr run x) := by
    refine h.bind (h.store _ trivial) fun binding => ?_
    split
    · exact h.reading.boundDeliveryMr _ _
    · split
      · exact h.reading.boundDeliveryMr _ _
      · exact h.raise _
  have hsettle : ∀ e, K (settleLateWorker cfg x.runKey e) := fun e => by
    unfold settleLateWorker
    split
    · exact h.plain.recordRunException _ _ _
    · exact h.failure _ _ _ _ _
    · exact h.raise _
  unfold HollysysController.checkOverdue
  split
  · exact hnotice _ _
  · refine h.bind (h.op _ trivial) fun workspace => ?_
    split
    · exact hnotice _ _
    · refine h.bind (h.attempt hmr) fun mr => ?_
      cases mr with
      | error e =>
        dsimp only
        split
        · exact h.bind (h.failure _ _ _ _ _) fun _ => hnotice _ _
        · exact h.raise _
      | ok mr =>
        dsimp only
        split
        · exact hnotice _ _
        · split
          · exact h.pure _
          · refine h.bind (h.attempt (h.late _ _ _ _ _ _ _ hidentity)) fun r => ?_
            cases r with
            | ok u => exact h.pure _
            | error e => exact h.bind (hsettle e) fun _ => h.pure _

theorem watchWorker (cfg : Config) (sweep : Sweep) (x : LateWorker) :
    K (watchWorker cfg sweep x) := by
  have hcheck : ∀ run task, K (checkLateWorker cfg sweep run x task) := fun run task => by
    unfold checkLateWorker
    split
    · exact h.bind (h.passing.leaseNotice _ _ _ _) fun _ => h.pure _
    · next identity hidentity =>
      split
      · exact h.bind (h.passing.leaseNotice _ _ _ _) fun _ => h.pure _
      · split
        · exact h.bind (h.op _ trivial) fun _ =>
            h.bind (h.passing.leaseNotice _ _ _ _) fun _ => h.pure _
        · exact h.checkOverdue _ _ _ _ _ _ hidentity
  have hsettle : ∀ e, K (settleWatched cfg x.runKey e) := fun e => by
    unfold settleWatched
    split
    · exact h.plain.recordRunException _ _ _
    · exact h.plain.recordRunException _ _ _
    · exact h.plain.recordRunException _ _ _
    · exact h.failure _ _ _ _ _
    · exact h.raise _
  refine h.bind (h.attempt (h.op _ trivial)) fun read => ?_
  cases read with
  | error e =>
    dsimp only
    split
    · exact h.bind (h.failure _ _ _ _ _) fun _ => h.pure _
    · exact h.raise _
  | ok task =>
    cases task with
    | none => exact h.pure _
    | some task =>
      dsimp only
      split
      · exact h.pure _
      · refine h.bind (h.attempt (h.reading.history _)) fun read => ?_
        cases read with
        | error e => exact h.bind (hsettle e) fun _ => h.pure _
        | ok read => exact h.bind (h.reading.fromText _) fun _ => hcheck _ _

theorem enqueueStaleWorkerNotices (cfg : Config) (sweep : Sweep) :
    K (enqueueStaleWorkerNotices cfg sweep) := by
  have hrows : ∀ now runKey rows, K (watchRows cfg sweep now runKey rows) :=
    fun now runKey rows => by
      induction rows with
      | nil => exact h.pure _
      | cons entry rows ih =>
        obtain ⟨managed, row⟩ := entry
        unfold watchRows
        split
        · exact ih
        · refine h.bind (h.watchWorker _ _ _) fun further => ?_
          split
          · exact ih
          · exact h.pure _
  have hstep : ∀ now runKey, K (watchdogStep cfg sweep now runKey) := fun now runKey => by
    refine h.bind (h.store _ trivial) fun control => ?_
    split
    · exact h.pure _
    · exact hrows _ _ _
  exact h.bind (h.op _ trivial) fun now => h.bind (h.store _ trivial) fun runs =>
    h.forM (hstep now) _

theorem reconcileAll (cfg : Config) (sweep : Sweep) : K (reconcileAll cfg sweep) := by
  refine h.bind (h.forM (h.requestStep cfg sweep) _) fun _ =>
    h.bind (h.forM (h.abortStep cfg sweep) _) fun _ => h.bind (h.store _ trivial) fun runs =>
    h.bind (h.forM (h.upgradeStep cfg sweep) _) fun _ => h.bind (h.store _ trivial) fun blocked => ?_
  split
  · exact h.pure _
  · refine h.bind (h.circuit _) fun _ => h.bind (h.store _ trivial) fun blocked => ?_
    split
    · exact h.pure _
    · exact h.bind (h.releaseProviderCooldowns _) fun _ =>
        h.bind (h.enqueueStaleWorkerNotices _ _) fun _ =>
        h.forM (fun runKey => h.store (.enqueueReconcile runKey _ _ _) trivial) _

/-- Every call issues its operations as the service does, given the reclaims of a poll. -/
theorem call (cfg : Config) (c : Call) (hreclaim : ∀ board id runId pid,
      K (HollysysController.hermes (.reclaim board id runId pid false))) : K (c.run cfg) := by
  cases c with
  | start draw inFlight r => exact h.bind (h.start _ _ _ _) fun _ => h.pure _
  | resolve inFlight r => exact h.bind (h.resolve _ _ _) fun _ => h.pure _
  | recover r => exact h.bind (h.recover _ _) fun _ => h.pure _
  | abortRequest token r hr => exact h.bind (h.abortRequest _ _ _ hr) fun _ => h.pure _
  | abortConfirm c => exact h.bind (h.abortConfirm _ _) fun _ => h.pure _
  | pollOnce intentId boards => exact h.pollOnce hreclaim _ _ _
  | reconcile runKey => exact h.reconcileWithPolicy _ _
  | reconcileAll sweep => exact h.reconcileAll _ _

end Calling

theorem Issuing.call {K : ∀ {α : Type}, Service α → Prop} (h : Issuing K) (cfg : Config)
    (c : Call) : K (c.run cfg) :=
  h.calling.call cfg c fun _ _ _ _ => h.op (.hermes _) trivial

end HollysysController
