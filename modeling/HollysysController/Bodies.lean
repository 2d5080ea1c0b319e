import HollysysController.Resolve
import HollysysController.Traversal

/-! # The bodies of the requests

What the service functions do between the begin of a request and its end: they
create and publish cards, record dependency errors, and initialize runs. None of
it touches the requests or the table of runs. -/

namespace HollysysController

open Durable

/-! ## Transitions -/

/-- The states in which a run waits for a time of its own. -/
def RunState.isScheduled : RunState → Bool
  | .dependencyDegraded | .mergeWait | .retryWait => true
  | _ => false

/-- The abort of the run is under way. -/
def RunState.isAborting : RunState → Bool
  | .abortRequested | .aborting => true
  | _ => false

/-- What the service asks of `transition_run`: it moves a live run to a live state, with a
time for the retry exactly when the run waits for one, and moves no run into an abort or
out of one. -/
structure Transition.Issued (t : Transition) : Prop where
  live : ∀ s ∈ t.expectedStates, s.isTerminal = false
  unended : t.newState.isTerminal = false
  scheduled : t.newState.isAborting = false → t.nextRetryAt.isSome = t.newState.isScheduled
  abort : ∀ s ∈ t.expectedStates, s.isAborting = t.newState.isAborting
  unmerged : t.mergeCommitSha = none

/-! ## Outages -/

/-- A best-effort notice about a run that can be read. -/
theorem Reading.outageNotice {K : ∀ {α : Type}, Service α → Prop} (h : Reading K) (silent : Bool)
    (runKey : String) {row : OutboxRow} (hrow : K (store (.enqueue row))) :
    K (if silent then pure () else do
      match ← (history runKey).attempt with
      | .error _ => pure ()
      | .ok _ => store (.enqueue row)) := by
  split
  · exact h.pure _
  · refine h.bind (h.attempt (h.history _)) fun r => ?_
    cases r with
    | error e => exact h.pure _
    | ok items => exact hrow

/-- The bookkeeping of dependency outages. -/
def StoreOp.isOutage : StoreOp → Bool
  | recordDependencyFailure _ | associateOutageRun _ _ _ | recoverDependency _ | enqueue _ => true
  | _ => false

/-- A judgement about the bookkeeping of outages: each transition is about a run at work or
in an abort, and none leads to a human or into exception. -/
structure Bookkeeping (K : ∀ {α : Type}, Service α → Prop) : Prop extends Reading K where
  outage : ∀ o : StoreOp, o.isOutage = true → K (HollysysController.store o)
  transition : ∀ t : Transition,
    (∀ s ∈ t.expectedStates, s.isReconcilable = true ∨ s.isAborting = true) →
    t.newState ≠ .humanBlocked ∧ t.newState ≠ .exception → t.Issued →
      K (HollysysController.store (.transitionRun t))

/-- A dependency failure moves runs at work and in an abort. -/
theorem degradedState_moves {s newState : RunState} (h : degradedState s = some newState) :
    (s.isReconcilable = true ∨ s.isAborting = true) ∧
      newState ≠ .humanBlocked ∧ newState ≠ .exception := by
  unfold degradedState at h
  split at h
  · next hs =>
    cases h
    exact ⟨.inl hs, nofun, nofun⟩
  · split at h
    · next hs =>
      cases h
      rcases hs with hs | hs <;> rw [hs] <;> exact ⟨.inr rfl, nofun, nofun⟩
    · cases h

/-- A dependency failure degrades a live run, and an abort stays what it is. -/
theorem degraded_issued {runKey reason : String} {s newState : RunState} {version : Option Nat}
    {retryAt : Nat} (h : degradedState s = some newState) :
    Transition.Issued { runKey, expectedStates := [s], newState, reason,
                        expectedVersion := version, nextRetryAt := some retryAt } := by
  unfold degradedState at h
  split at h
  · next hs =>
    cases h
    have hlive : s.isTerminal = false ∧ s.isAborting = false := by
      revert hs
      cases s <;> decide
    exact ⟨by simpa using hlive.1, rfl, fun _ => rfl, by simpa [RunState.isAborting] using hlive.2, rfl⟩
  · split at h
    · next hs =>
      cases h
      rcases hs with rfl | rfl <;> exact ⟨by simp [RunState.isTerminal], rfl, nofun,
        by simp, rfl⟩
    · cases h

/-- A run that recovers is active, or waits for its next outage. -/
theorem recovery_issued (runKey base : String) (control : RunControl) (remaining : List Outage) :
    (recoveryTransition runKey base control remaining).Issued := by
  unfold recoveryTransition
  cases remaining with
  | nil =>
    exact ⟨by simp [RunState.isTerminal], rfl, fun _ => rfl, by simp [RunState.isAborting], rfl⟩
  | cons o os =>
    refine ⟨by simp [RunState.isTerminal], rfl, fun _ => ?_, by simp [RunState.isAborting], rfl⟩
    have hmin : ((o :: os).map (·.nextRetryAt)).min?.isSome = true :=
      List.isSome_min?_of_mem (a := o.nextRetryAt) (by simp)
    exact hmin

namespace Bookkeeping

variable {K : ∀ {α : Type}, Service α → Prop} (h : Bookkeeping K)
include h

theorem openHostCircuit (cfg : Config) (kind : DependencyKind) (c : ErrorContext) :
    K (openHostCircuit cfg kind c) := by
  refine h.bind (h.store _ rfl) fun runs => ?_
  split
  · exact h.bind (h.outage _ rfl) fun outage => h.forM (fun _ => h.outage _ rfl) _
  · exact h.pure _

theorem outageNotice (silent : Bool) (runKey : String) (row : OutboxRow) :
    K (if silent then pure () else do
      match ← (history runKey).attempt with
      | .error _ => pure ()
      | .ok _ => HollysysController.store (.enqueue row)) :=
  h.toReading.outageNotice silent runKey (h.outage _ rfl)

theorem handleDependencyError (cfg : Config) (runKey : String) (kind : DependencyKind)
    (text : String) (c : ErrorContext) : K (handleDependencyError cfg runKey kind text c) := by
  unfold HollysysController.handleDependencyError
  split
  · exact h.raise _
  · refine h.bind (h.outage _ rfl) fun outage => h.bind (h.outage _ rfl) fun _ => ?_
    have hnotice : K (enqueueDependencyOutage cfg runKey outage) := h.outageNotice _ _ _
    refine h.guarded (h.openHostCircuit _ _ _) (h.bind (h.store _ rfl) fun control => ?_)
    cases control with
    | none => exact hnotice
    | some control =>
      dsimp only
      split
      · exact hnotice
      · next newState hstate =>
        obtain ⟨hfrom, hto⟩ := degradedState_moves hstate
        exact h.bind (h.transition _ (by simpa using hfrom) hto (degraded_issued hstate))
          fun _ => hnotice

theorem recordRequestDependencyError (cfg : Config) (runKey : String) (kind : DependencyKind)
    (text : String) (c : ErrorContext) :
    K (recordRequestDependencyError cfg runKey kind text c) := by
  refine h.bind (h.store _ rfl) fun control => ?_
  cases control with
  | some control => exact h.handleDependencyError _ _ _ _ _
  | none => exact h.bind (h.outage _ rfl) fun _ => h.pure _

theorem finishRunRecovery (cfg : Config) (base runKey : String) (outage : Outage) :
    K (finishRunRecovery cfg base runKey outage) := by
  have hnotice : K (enqueueDependencyRecovered cfg runKey outage) := h.outageNotice _ _ _
  refine h.bind (h.store _ rfl) fun control => ?_
  cases control with
  | none => exact hnotice
  | some control =>
    dsimp only
    split
    · refine h.bind (h.store _ rfl) fun remaining =>
        h.bind (h.transition _ (by simp [recoveryTransition, RunState.isReconcilable]) ?_
          (recovery_issued _ _ _ _))
          fun _ => hnotice
      unfold recoveryTransition
      dsimp only
      split <;> exact ⟨nofun, nofun⟩
    · exact hnotice

theorem recoverRunDependency (cfg : Config) (runKey base : String) :
    K (recoverRunDependency cfg runKey base) := by
  refine h.bind (h.host _) fun now => h.bind (h.store _ rfl) fun outage => ?_
  cases outage with
  | none => exact h.pure _
  | some outage =>
    dsimp only
    split
    · exact h.pure _
    · refine h.bind (h.store _ rfl) fun associated => ?_
      split
      · exact h.pure _
      · refine h.bind (h.outage _ rfl) fun recovered => ?_
        cases recovered with
        | none => exact h.pure _
        | some recovered =>
          exact h.bind (h.store _ rfl) fun runs =>
            h.forM (fun _ => h.finishRunRecovery _ _ _ _) _

end Bookkeeping

/-! ## Stopping a worker -/

/-- Reclaiming takes a task away from its worker. -/
def HermesOp.evicts : HermesOp → Bool
  | reclaim _ _ _ _ _ => true
  | _ => false

/-- A judgement about reads and the archiving of one card. -/
structure Retiring (K : ∀ {α : Type}, Service α → Prop) (board : String) (id : CardId) : Prop
    extends Reading K where
  archive : K (HollysysController.hermes (.archive board id))

namespace Retiring

variable {K : ∀ {α : Type}, Service α → Prop} {board : String} {id : CardId}
variable (h : Retiring K board id)
include h

theorem archiveUnclaimed : K (archiveUnclaimed board id) := by
  refine h.bind (h.hermes _ rfl) fun task => ?_
  cases task with
  | none => exact h.pure _
  | some task =>
    dsimp only
    split
    · exact h.raise _
    · split
      · exact h.pure _
      · refine h.bind h.archive fun _ => h.bind (h.hermes _ rfl) fun archived => ?_
        cases archived with
        | none => exact h.pure _
        | some archived =>
          dsimp only
          split
          · exact h.pure _
          · exact h.raise _

/-- The end of a task, given that an attempt with evidence may be reclaimed. -/
theorem abortTask (evidence : Option (Nat × Nat))
    (hreclaim : ∀ runId pid, evidence = some (runId, pid) →
      K (HollysysController.hermes (.reclaim board id runId pid true))) :
    K (abortTask board id evidence) := by
  refine h.bind (h.hermes _ rfl) fun task => ?_
  cases task with
  | none => exact h.pure _
  | some task =>
    dsimp only
    split
    · exact h.pure _
    · split
      · cases evidence with
        | none => exact h.raise _
        | some e =>
          dsimp only
          split
          · exact h.raise _
          · exact h.bind (hreclaim _ _ rfl) fun _ => h.archiveUnclaimed
      · exact h.archiveUnclaimed

theorem archiveControllerTask : K (archiveControllerTask board id) := by
  refine h.bind (h.hermes _ rfl) fun task => ?_
  cases task with
  | none => exact h.pure _
  | some task =>
    dsimp only
    split
    · exact h.pure _
    · split
      · exact h.raise _
      · exact h.archive

/-- The stop of a running task, given its reclaim and the end of the attempt. -/
theorem abortRunningTask (cfg : Config) (task : TaskRecord)
    (hreclaim : ∀ runId pid, K (HollysysController.hermes (.reclaim board id runId pid true)))
    (hreclaimed : ∀ e, K (HollysysController.store (.recordCardRuntimeEvent e))) :
    K (abortRunningTask cfg board id task) := by
  refine h.bind (h.store _ rfl) fun runtime => ?_
  split
  · exact h.pure _
  · refine h.bind (h.host _) fun confirmed => ?_
    split
    · exact h.pure _
    · refine h.bind (h.hermes _ rfl) fun _ => h.bind (h.store _ rfl) fun _ => ?_
      split
      · exact h.pure _
      · refine h.bind (h.abortTask _ fun _ _ _ => hreclaim _ _) fun _ => h.bind ?_ fun _ => h.pure _
        exact h.bind (h.host _) fun _ => hreclaimed _

/-- The end of a card, given the stop of its worker. -/
theorem abortManagedTask (cfg : Config)
    (hrunning : ∀ task, K (HollysysController.abortRunningTask cfg board id task)) :
    K (abortManagedTask cfg board id) := by
  refine h.bind (h.hermes _ rfl) fun task => ?_
  cases task with
  | none => exact h.pure _
  | some task =>
    dsimp only
    split
    · exact h.pure _
    · split
      · exact h.bind (h.abortTask _ nofun) fun _ => h.pure _
      · refine h.bind (h.store _ rfl) fun managed => ?_
        split
        · exact h.bind h.archiveControllerTask fun _ => h.pure _
        · exact hrunning task

end Retiring

/-- What a pass that enters exception does first, given the stop of the parent's worker. -/
theorem Retiring.archiveParent {K : ∀ {α : Type}, Service α → Prop} {run : RunRecord}
    {parent : CardId} (h : Retiring K run.workspace.board parent) (cfg : Config)
    (hrunning : ∀ task,
      K (HollysysController.abortRunningTask cfg run.workspace.board parent task)) :
    K (HollysysController.archiveParent cfg run parent) := by
  refine h.bind (h.assertReconcileMutable _) fun _ => h.bind (h.hermes _ rfl) fun task => ?_
  cases task with
  | none => exact h.pure _
  | some task =>
    dsimp only
    split
    · refine h.bind (h.abortManagedTask cfg hrunning) fun archived => ?_
      split
      · exact h.raise _
      · exact h.pure _
    · exact h.pure _

/-- A judgement about reads and the moves on the board that leave the workers alone. -/
structure Boarding (K : ∀ {α : Type}, Service α → Prop) : Prop extends Reading K where
  board : ∀ o : HermesOp, o.evicts = false → K (HollysysController.hermes o)

namespace Boarding

variable {K : ∀ {α : Type}, Service α → Prop} (h : Boarding K)
include h

theorem retiring (board : String) (id : CardId) : Retiring K board id :=
  { h.toReading with archive := h.board _ rfl }

theorem archiveUnclaimed (board : String) (id : CardId) : K (archiveUnclaimed board id) :=
  (h.retiring board id).archiveUnclaimed

theorem abortTask (board : String) (id : CardId) (evidence : Option (Nat × Nat))
    (hreclaim : ∀ runId pid, evidence = some (runId, pid) →
      K (HollysysController.hermes (.reclaim board id runId pid true))) :
    K (abortTask board id evidence) :=
  (h.retiring board id).abortTask evidence hreclaim

theorem abortRunningTask (cfg : Config) (board : String) (id : CardId) (task : TaskRecord)
    (hreclaim : ∀ runId pid, K (HollysysController.hermes (.reclaim board id runId pid true)))
    (hreclaimed : ∀ e, K (HollysysController.store (.recordCardRuntimeEvent e))) :
    K (abortRunningTask cfg board id task) :=
  (h.retiring board id).abortRunningTask cfg task hreclaim hreclaimed

end Boarding

/-- A judgement about what stops a worker and creates a card: reads, moves on the board,
the stop of a running task, the end of an attempt and the record of a card. -/
structure Handling (K : ∀ {α : Type}, Service α → Prop) : Prop extends Boarding K where
  running : ∀ (cfg : Config) (board : String) (id : CardId) (task : TaskRecord),
    K (abortRunningTask cfg board id task)
  managed : ∀ c : ManagedCard, K (HollysysController.store (.addManagedCard c))

namespace Handling

variable {K : ∀ {α : Type}, Service α → Prop} (h : Handling K)
include h

theorem abortManagedTask (cfg : Config) (board : String) (id : CardId) :
    K (abortManagedTask cfg board id) :=
  (h.retiring board id).abortManagedTask cfg (h.running cfg board id)

theorem withdrawCard (cfg : Config) (board : String) (id : CardId) :
    K (withdrawCard cfg board id) :=
  h.bind (h.attempt (h.abortManagedTask _ _ _)) fun _ => h.pure _

theorem assertMutableOrWithdraw (cfg : Config) (runKey board : String) (id : CardId) :
    K (assertMutableOrWithdraw cfg runKey board id) := by
  refine h.bind (h.attempt (h.assertReconcileMutable _)) fun r => ?_
  cases r with
  | ok control => exact h.pure _
  | error e =>
    dsimp only
    split
    · exact h.bind (h.withdrawCard _ _ _) fun _ => h.raise _
    · exact h.raise _

theorem createTask (a : CreateArgs) (invalid : Option String) (unreadable : String) :
    K (createTask a invalid unreadable) := by
  refine h.bind (h.board _ rfl) fun existing => ?_
  cases existing with
  | some existing => exact h.pure _
  | none =>
    cases invalid with
    | some text => exact h.raise _
    | none =>
      refine h.bind (h.board _ rfl) fun id => h.bind (h.board _ rfl) fun task => ?_
      cases task with
      | none => exact h.raise _
      | some task => exact h.pure _

theorem archiveParent (cfg : Config) (run : RunRecord) (parent : CardId) :
    K (archiveParent cfg run parent) :=
  (h.retiring run.workspace.board parent).archiveParent cfg (h.running cfg _ parent)

theorem recordExceptionCard (cfg : Config) (run : RunRecord) (parent : CardId)
    (reason : String) : K (recordExceptionCard cfg run parent reason) := by
  refine h.bind (h.host _) fun _ => h.bind (h.createTask _ _ _) fun task => ?_
  split
  · exact h.raise _
  · exact h.bind (h.managed _) fun _ => h.pure _

end Handling

/-! ## Bodies -/

/-- Every store operation but the transitions of runs, the end of the code flow, and the
bookkeeping of runs, requests, polls and intents. -/
def StoreOp.isBody : StoreOp → Bool
  | markCompleted _ _ compliance _ _ _ => isCompliance compliance
  | saveRun _ | bindRequestRun _ _ | createAbortRequest _ | confirmAbortRequest _
  | beginRequest _ _ | finishRequest _ _ | failRequest _ _ | transitionRun _
  | markFlowCompleted _ _ _ _ | setCursor _ _ | enqueueReconcile _ _ _ _
  | bindDelivery _ _ => false
  | updateWorkerWatchdog u => !u.incrementRedispatch
  | _ => true

/-- The operations of a body that neither end a run, nor tie it to an outage, nor close one. -/
def StoreOp.isLive : StoreOp → Bool
  | markCompleted _ _ _ _ _ _ | finishAbort _ _ _ _ | associateOutageRun _ _ _
  | recoverDependency _ => false
  | o => o.isBody

theorem StoreOp.isOutage_isBody {o : StoreOp} (h : o.isOutage = true) : o.isBody = true := by
  cases o <;> first | rfl | cases h

theorem StoreOp.isLive_isBody {o : StoreOp} (h : o.isLive = true) : o.isBody = true := by
  cases o <;> first | exact h | cases h

/-- A judgement about everything a body may do, with the stop of a running task and the
record of a dependency failure as a whole. -/
structure Body (K : ∀ {α : Type}, Service α → Prop) : Prop extends Closed K where
  store : ∀ o : StoreOp, o.isLive = true → K (store o)
  admission : ∀ (cfg : Config) (run : RunRecord) (assignee : String),
    K (admitProfile cfg run assignee)
  hermes : ∀ o : HermesOp, o.evicts = false → K (hermes o)
  running : ∀ (cfg : Config) (board : String) (id : CardId) (task : TaskRecord),
    K (abortRunningTask cfg board id task)
  failure : ∀ (cfg : Config) (runKey : String) (kind : DependencyKind) (text : String)
    (c : ErrorContext), K (handleDependencyError cfg runKey kind text c)
  gitlab : ∀ o : GitLabOp, K (gitlab o)
  host : ∀ o : HostOp, K (host o)

/-- A run is parked for a retry, with its time, or for a human. -/
theorem refusal_issued {runKey reason : String} {s : RunState} {version : Option Nat}
    {wait : Bool} {retryAt : Nat} (hs : s ∈ admissionStates) :
    Transition.Issued { runKey, expectedStates := [s], reason, expectedVersion := version
                        newState := if wait then .retryWait else .humanBlocked
                        nextRetryAt := if wait then some retryAt else none } := by
  have hlive : s.isTerminal = false ∧ s.isAborting = false := by
    revert s
    decide
  cases wait <;>
    exact ⟨by simpa using hlive.1, rfl, fun _ => rfl, by simpa [RunState.isAborting] using hlive.2, rfl⟩

/-- Where the transitions that degrade no run are allowed, so is the admission of a profile. -/
theorem admission_of_transitions {K : ∀ {α : Type}, Service α → Prop} (hclosed : Closed K)
    (hstore : ∀ o : StoreOp, o.isLive = true → K (store o))
    (htransition : ∀ t : Transition, t.newState ≠ .dependencyDegraded → t.Issued →
      K (store (.transitionRun t)))
    (hhost : ∀ o : HostOp, K (host o)) (cfg : Config) (run : RunRecord) (assignee : String) :
    K (admitProfile cfg run assignee) := by
  refine hclosed.bind (hstore _ rfl) fun deep => ?_
  split
  · refine hclosed.bind (hhost _) fun refused => ?_
    cases refused with
    | none => exact hclosed.pure _
    | some errorCode =>
      refine hclosed.bind (hclosed.bind (hstore _ rfl) fun _ => hclosed.pure _) fun control =>
        hclosed.bind (hhost _) fun now => ?_
      split
      · next hstate =>
        refine hclosed.bind (htransition _ ?_ (refusal_issued hstate)) fun _ => hclosed.raise _
        dsimp only
        split <;> exact (fun h => by cases h)
      · exact hclosed.raise _
  · exact hclosed.pure _

section Builders

variable {K : ∀ {α : Type}, Service α → Prop} (hclosed : Closed K)
  (hstore : ∀ o : StoreOp, o.isLive = true → K (store o))
  (hhermes : ∀ o : HermesOp, K (hermes o)) (hgitlab : ∀ o : GitLabOp, K (gitlab o))
  (hhost : ∀ o : HostOp, K (host o))
include hclosed hstore hhermes hgitlab hhost

theorem reading_of_ops : Reading K :=
  { hclosed with
    store := fun o ho => hstore o (by cases o <;> first | rfl | cases ho)
    hermes := fun o _ => hhermes o
    gitlab := fun o _ => hgitlab o
    artifact := fun _ _ => hgitlab _
    host := hhost }

/-- Where every operation is allowed, so is the stop of a running task. -/
theorem running_of_ops (cfg : Config) (board : String) (id : CardId) (task : TaskRecord) :
    K (abortRunningTask cfg board id task) :=
  Boarding.abortRunningTask
    { reading_of_ops hclosed hstore hhermes hgitlab hhost with board := fun o _ => hhermes o }
    cfg board id task (fun _ _ => hhermes _) fun _ => hstore _ rfl

/-- Where an outage may be closed and a run moved to a state that is no human's, so may the
bookkeeping of outages. -/
theorem bookkeeping_of_ops
    (houtage : ∀ o : StoreOp, o.isOutage = true → K (store o))
    (htransition : ∀ t : Transition, t.newState ≠ .humanBlocked → t.Issued →
      K (store (.transitionRun t))) : Bookkeeping K :=
  { reading_of_ops hclosed hstore hhermes hgitlab hhost with
    outage := houtage
    transition := fun t _ hto => htransition t hto.1 }

theorem body_of_ops
    (houtage : ∀ o : StoreOp, o.isOutage = true → K (store o))
    (htransition : ∀ t : Transition, t.newState ≠ .humanBlocked → t.Issued →
      K (store (.transitionRun t)))
    (hadmission : ∀ (cfg : Config) (run : RunRecord) (assignee : String),
      K (admitProfile cfg run assignee)) : Body K where
  toClosed := hclosed
  store := hstore
  admission := hadmission
  hermes o _ := hhermes o
  running := running_of_ops hclosed hstore hhermes hgitlab hhost
  failure := (bookkeeping_of_ops hclosed hstore hhermes hgitlab hhost houtage
    htransition).handleDependencyError
  gitlab := hgitlab
  host := hhost

end Builders

namespace Body

variable {K : ∀ {α : Type}, Service α → Prop} (h : Body K)
include h

theorem plain : Plain K :=
  { h.toClosed with
    store := fun o ho => h.store o (by cases o <;> first | rfl | exact ho)
    hermes := fun o ho => h.hermes o (by cases o <;> first | rfl | cases ho)
    gitlab := h.gitlab
    host := h.host }

theorem reading : Reading K := h.plain.reading

theorem handling : Handling K :=
  { h.reading with
    board := h.hermes
    running := h.running
    managed := fun _ => h.store _ rfl }

theorem recordRequestDependencyError (cfg : Config) (runKey : String) (kind : DependencyKind)
    (text : String) (c : ErrorContext) :
    K (recordRequestDependencyError cfg runKey kind text c) := by
  refine h.bind (h.store _ rfl) fun control => ?_
  cases control with
  | some control => exact h.failure _ _ _ _ _
  | none => exact h.bind (h.store _ rfl) fun _ => h.pure _

/-! ## Creating and publishing a card -/

theorem ensureWorkPublished (run : RunRecord) (task : TaskRecord) :
    K (ensureWorkPublished run task) := by
  refine h.bind (h.reading.assertReconcileMutable _) fun control =>
    h.bind (h.reading.fromText _) fun record => h.bind (h.plain.operation _ _ ?_) fun _ =>
    h.bind (h.hermes _ rfl) fun refreshed => ?_
  · exact h.bind (h.plain.release _ _) fun _ => h.pure _
  · cases refreshed with
    | none => exact h.raise _
    | some refreshed => exact h.pure _

theorem preflightOrder (cfg : Config) (run : RunRecord) (items : List HistoryItem)
    (mr : Option MergeRequest) (o : WorkOrder) : K (preflightOrder cfg run items mr o) := by
  unfold HollysysController.preflightOrder
  split
  · exact h.pure _
  · split
    · exact h.pure _
    · refine h.bind (h.reading.frozenViolation _ _ _ _) fun violation => ?_
      cases violation with
      | none => exact h.pure _
      | some violation => exact h.bind (h.plain.enqueueProgress _ _ _ _) fun _ => h.pure _

theorem composeWork (cfg : Config) (run : RunRecord) (o : WorkOrder) :
    K (composeWork cfg run o) := by
  refine h.bind (h.reading.assertReconcileMutable _) fun _ =>
    h.bind (h.reading.history _) fun read => ?_
  obtain ⟨items, _⟩ := read
  exact h.bind (h.reading.frozenBaselines _ _ _) fun _ =>
    h.bind (h.reading.boundDeliveryMr _ _) fun _ =>
    h.bind (h.reading.assertReconcileMutable _) fun _ =>
    h.bind (h.preflightOrder _ _ _ _ _) fun _ => h.bind (h.store _ rfl) fun _ =>
    h.bind (h.admission _ _ _) fun _ => h.bind (h.store _ rfl) fun _ => h.reading.fromText _

theorem recordWorkCard (cfg : Config) (record : CardRecord) : K (recordWorkCard cfg record) :=
  h.bind (h.host _) fun _ => h.bind (h.handling.createTask _ _ _) fun _ =>
    h.bind (h.reading.fromExcept _) fun _ => h.bind (h.store _ rfl) fun _ =>
    h.bind (h.handling.assertMutableOrWithdraw _ _ _ _) fun _ => h.bind (h.store _ rfl) fun _ => h.pure _

theorem publishOrWithdraw (cfg : Config) (run : RunRecord) (task : TaskRecord) :
    K (publishOrWithdraw cfg run task) := by
  refine h.bind (h.attempt (h.ensureWorkPublished _ _)) fun r => ?_
  cases r with
  | ok refreshed => exact h.pure _
  | error e =>
    dsimp only
    split
    · exact h.bind (h.handling.withdrawCard _ _ _) fun _ => h.raise _
    · exact h.raise _

theorem createWork (cfg : Config) (run : RunRecord) (o : WorkOrder) : K (createWork cfg run o) :=
  h.bind (h.composeWork _ _ _) fun _ => h.bind (h.recordWorkCard _ _) fun _ =>
    h.publishOrWithdraw _ _ _

/-! ## Initializing a run -/

theorem prepareStep (run : RunRecord) (step : String) (details : List String) :
    K (prepareStep run step details) := by
  refine h.bind (h.plain.operation _ _ ?_) fun _ => h.pure _
  exact h.bind (h.host _) fun _ => h.pure _

theorem completeRoot (board : String) (id : CardId) : K (completeRoot board id) := by
  refine h.bind (h.hermes _ rfl) fun task => ?_
  cases task with
  | none => exact h.hermes _ rfl
  | some task =>
    dsimp only
    split
    · exact h.pure _
    · exact h.hermes _ rfl

theorem initializeRun (cfg : Config) (run : RunRecord) : K (initializeRun cfg run) := by
  have hrest : K (do
      HollysysController.prepareStep run "board" [run.workspace.board, run.workspace.worktree]
      let root ← recordRootCard run
      let _ ← HollysysController.operation
        { key := s!"{run.runKey}:complete-root", kind := "complete-root",
          payload := .completeRoot run.workspace.board root.id }
        none do
          HollysysController.completeRoot run.workspace.board root.id
          pure (.card root.id)
      let first ← HollysysController.createWork cfg run { stage := .specWrite, parent := root.id }
      HollysysController.enqueueProgress cfg run "run-accepted" false
      HollysysController.enqueueProgress cfg run s!"{Phase.spec.value}:started" false
      pure first) := by
    refine h.bind (h.prepareStep _ _ _) fun _ => h.bind ?_ fun root =>
      h.bind (h.plain.operation _ _ ?_) fun _ => h.bind (h.createWork _ _ _) fun _ =>
      h.bind (h.plain.enqueueProgress _ _ _ _) fun _ =>
      h.bind (h.plain.enqueueProgress _ _ _ _) fun _ => h.pure _
    · exact h.bind (h.handling.createTask _ _ _) fun _ => h.bind (h.reading.fromExcept _) fun _ =>
        h.bind (h.store _ rfl) fun _ => h.pure _
    · exact h.bind (h.completeRoot _ _) fun _ => h.pure _
  refine h.bind (h.prepareStep _ _ _) fun _ => h.bind (h.prepareStep _ _ _) fun _ =>
    h.bind (h.store _ rfl) fun deep => ?_
  split
  · exact h.bind (h.prepareStep _ _ _) fun _ => hrest
  · exact hrest

/-! ## Resolving a block -/

theorem createHeldWork (cfg : Config) (run : RunRecord) (o : WorkOrder) :
    K (createHeldWork cfg run o) :=
  h.bind (h.composeWork _ _ _) fun _ => h.recordWorkCard _ _

theorem retryOf (cfg : Config) (r : ResolveRequest) (run : RunRecord) (items : List HistoryItem)
    (i : HistoryItem) (stage : Stage) (record : CardRecord) :
    K (retryOf cfg r run items i stage record) := by
  unfold HollysysController.retryOf
  split
  · exact h.pure _
  · split
    · exact h.createHeldWork _ _ _
    · exact h.raise _

theorem prepareHumanBlock (board : String) (id : CardId) : K (prepareHumanBlock board id) := by
  have hread : ∀ id missing, K (readTask board id missing) := fun id missing => by
    refine h.bind (h.hermes _ rfl) fun task => ?_
    cases task with
    | none => exact h.raise _
    | some task => exact h.pure _
  refine h.bind (hread _ _) fun task => h.bind ?_ fun task => h.bind ?_ fun task => ?_
  · unfold specifyTriage
    split
    · exact h.bind (h.hermes _ rfl) fun _ => hread _ _
    · exact h.pure _
  · unfold promoteTodo
    split
    · exact h.bind (h.hermes _ rfl) fun _ => hread _ _
    · exact h.pure _
  · split
    · exact h.raise _
    · exact h.pure _

theorem completeBlocked (run : RunRecord) (i : HistoryItem) (record : CardRecord)
    (retry : TaskRecord) : K (completeBlocked run i record retry) := by
  have hcompletion : ∀ mode issues, K (controllerCompletion run i mode issues) :=
    fun mode issues => by
      refine h.bind (h.reading.history _) fun read => ?_
      obtain ⟨items, _⟩ := read
      dsimp only
      split
      · exact h.raise _
      · exact h.bind (h.reading.fromText _) fun _ => h.bind (h.reading.fromText _) fun _ =>
          h.bind (h.reading.fromText _) fun _ => h.pure _
  have hcard : ∀ p, K (completeCard run.workspace.board i.task.id p) := fun p => by
    refine h.bind (h.hermes _ rfl) fun task => ?_
    cases task with
    | none => exact h.hermes _ rfl
    | some task =>
      dsimp only
      split
      · exact h.pure _
      · exact h.hermes _ rfl
  have hend : K (if i.task.status.isResolvable then do
        let cancelled ← controllerCompletion run i record.mode
          [s!"human block resolved; superseded by {retry.id.text}"]
        completeCard run.workspace.board i.task.id cancelled
      else if i.task.status ≠ .done then
        raise (.valueError "card is no longer a resolvable human block")
      else pure ()) := by
    split
    · exact h.bind (hcompletion _ _) fun _ => hcard _
    · split
      · exact h.raise _
      · exact h.pure _
  unfold HollysysController.completeBlocked
  dsimp only
  split
  · exact h.bind (h.prepareHumanBlock _ _) fun _ => hend
  · exact hend

theorem settleBlock (r : ResolveRequest) (run : RunRecord) (i : HistoryItem) (stage : Stage)
    (record : CardRecord) (retry : TaskRecord)
    (hfinish : ∀ response, K (HollysysController.store (.finishRequest r.key response))) :
    K (settleBlock r run i stage record retry) := by
  have hend : ∀ retry : TaskRecord, K (do
      HollysysController.store (.enqueue
        { key := s!"{run.runKey}:resumed:{r.blockId}", runKey := run.runKey, event := "resumed" })
      let response := s!"{run.runKey}|{i.task.id.text}|{retry.id.text}|{stage.value}"
      HollysysController.store (.finishRequest r.key response)
      pure response) := fun retry =>
    h.bind (h.store _ rfl) fun _ => h.bind (hfinish _) fun _ => h.pure _
  have hpublish : K (do
      HollysysController.completeBlocked run i record retry
      let retry ← if retry.status.isActive then HollysysController.ensureWorkPublished run retry
        else pure retry
      HollysysController.store (.enqueue
        { key := s!"{run.runKey}:resumed:{r.blockId}", runKey := run.runKey, event := "resumed" })
      let response := s!"{run.runKey}|{i.task.id.text}|{retry.id.text}|{stage.value}"
      HollysysController.store (.finishRequest r.key response)
      pure response) := by
    refine h.bind (h.completeBlocked _ _ _ _) fun _ => ?_
    dsimp only
    split
    · exact h.bind (h.ensureWorkPublished _ _) hend
    · exact hend retry
  unfold HollysysController.settleBlock
  dsimp only
  split
  · exact h.bind (h.hermes _ rfl) fun _ => hpublish
  · exact hpublish

end Body

end HollysysController
