import HollysysController.World

/-! # What a store operation writes

Each operation of the store writes few of its tables. A proof about one table
passes over the operations that do not write it by `StoreOp.exec_get`. -/

namespace HollysysController

open Durable

inductive Column where
  | cards | runtime | attempts | metrics | control | operations | requests | outbox | outages
  | cursors | intents | runs | aborts | bindings
  deriving DecidableEq, Repr

@[reducible] def Column.Ty : Column → Type
  | cards => List ManagedCard
  | runtime => Table (String × CardId) CardRuntime
  | attempts => List CardAttempt
  | metrics => List (String × String)
  | control => Table String RunControl
  | operations => Table String OperationRow
  | requests => Table String RequestRow
  | outbox => List OutboxRow
  | outages => List Outage × List (String × Nat × String) × Nat
  | cursors => Table String Nat
  | intents => List ReconcileIntent
  | runs => List RunRecord
  | aborts => List AbortRow
  | bindings => List (String × DeliveryBinding)

def Column.get : (c : Column) → Store → c.Ty
  | cards, s => s.managedCards
  | runtime, s => s.cardRuntime
  | attempts, s => s.cardAttempts
  | metrics, s => s.attemptMetrics
  | control, s => s.runControl
  | operations, s => s.operations
  | requests, s => s.requests
  | outbox, s => s.outbox
  | outages, s => (s.outages, s.outageRuns, s.nextOutage)
  | cursors, s => s.cursors
  | intents, s => s.intents
  | runs, s => s.runs
  | aborts, s => s.abortRequests
  | bindings, s => s.deliveryBindings

/-- The tables an operation may write. -/
def StoreOp.writes : StoreOp → List Column
  | saveRun _ => [.runs]
  | ensureRunControl _ => [.control]
  | createAbortRequest _ => [.aborts]
  | confirmAbortRequest _ => [.aborts, .control]
  | bindRequestRun _ _ => [.requests]
  | bindDelivery _ _ => [.bindings]
  | addManagedCard _ => [.cards]
  | registerCardAttempt _ | recordAttemptCompletion _ => [.runtime]
  | recordCardRuntimeEvent _ | updateWorkerWatchdog _ => [.attempts, .runtime]
  | recordAttemptMetric _ _ => [.metrics]
  | transitionRun _ | setRunException _ _ | markFlowCompleted _ _ _ _ | markCompleted _ _ _ _ _ _
  | markAborting _ | finishAbort _ _ _ _ => [.control]
  | recordDependencyFailure _ | associateOutageRun _ _ _ | recoverDependency _ => [.outages]
  | setCursor _ _ => [.cursors]
  | operationResult _ | finishOperation _ _ | failOperation _ _ | supersedeOperation _ _
  | markOperationUncertain _ _ => [.operations]
  | beginRequest _ _ | finishRequest _ _ | failRequest _ _ => [.requests]
  | enqueue _ => [.outbox]
  | enqueueReconcile _ _ _ _ => [.intents]
  | _ => []

/-- The transaction writes the tables of `cs` only. -/
def Txn.WritesOnly {α : Type} (cs : List Column) (t : Txn α) : Prop :=
  ∀ s a s', t s = .ok (a, s') → ∀ c, c ∉ cs → c.get s' = c.get s

section WritesOnly

variable {α : Type} {cs : List Column}

theorem Txn.WritesOnly.commit {t : Txn α} (h : t.WritesOnly cs) (s : Store) (c : Column)
    (hc : c ∉ cs) : c.get (t.commit s).2 = c.get s := by
  unfold Txn.commit
  split
  · exact h _ _ _ ‹_› c hc
  · rfl

theorem transitionRun_writes (t : Transition) (now : Nat) :
    (transitionRun t now).WritesOnly [.control] := by
  intro s a s' h c hc
  unfold transitionRun at h
  split at h
  · cases h
  · split at h
    · cases h
    · split at h <;> cases h
      cases c <;> first | rfl | simp at hc

theorem setRunException_writes (runKey reason : String) (now : Nat) :
    (setRunException runKey reason now).WritesOnly [.control] := by
  intro s a s' h
  unfold setRunException at h
  split at h
  · cases h
  · split at h
    · cases h
      exact fun _ _ => rfl
    · exact transitionRun_writes _ _ _ _ _ h

theorem markFlowCompleted_writes (runKey : String) (state : RunState) (head reason : String)
    (now : Nat) : (markFlowCompleted runKey state head reason now).WritesOnly [.control] := by
  intro s a s' h
  unfold markFlowCompleted at h
  split at h
  · cases h
  · split at h
    · cases h
    · split at h
      · cases h
      · split at h
        · cases h
          exact fun _ _ => rfl
        · exact transitionRun_writes _ _ _ _ _ h

theorem markCompleted_writes (runKey : String) (external : Bool) (compliance head : String)
    (merge : Option String) (reason : String) (now : Nat) :
    (markCompleted runKey external compliance head merge reason now).WritesOnly [.control] := by
  intro s a s' h
  unfold markCompleted at h
  split at h
  · cases h
  · split at h
    · cases h
    · split at h
      · cases h
      · split at h
        · cases h
          exact fun _ _ => rfl
        · exact transitionRun_writes _ _ _ _ _ h

theorem addManagedCard_writes (card : ManagedCard) :
    (addManagedCard card).WritesOnly [.cards] := by
  intro s a s' h c hc
  unfold addManagedCard at h
  split at h
  · cases h
  · split at h <;> cases h <;> cases c <;> first | rfl | simp at hc

theorem operationResult_writes (call : OperationCall) (now : Nat) :
    (operationResult call now).WritesOnly [.operations] := by
  intro s a s' h c hc
  unfold operationResult at h
  split at h
  · split at h
    · cases h
    · split at h
      · cases h
      · split at h
        · cases h
        · split at h <;> cases h <;> cases c <;> first | rfl | simp at hc
  · cases h
    cases c <;> first | rfl | simp at hc

theorem beginRequest_writes (key payload : String) :
    (beginRequest key payload).WritesOnly [.requests] := by
  intro s a s' h c hc
  unfold beginRequest at h
  split at h
  · split at h
    · cases h
    · split at h <;> cases h <;> rfl
  · cases h
    cases c <;> first | rfl | simp at hc

theorem saveRun_writes (run : RunRecord) : (saveRun run).WritesOnly [.runs] := by
  intro s a s' h c hc
  unfold saveRun at h
  split at h
  · split at h <;> cases h
    rfl
  · split at h <;> cases h
    cases c <;> first | rfl | simp at hc

theorem confirmRequest_writes (confirmation : AbortConfirmation) (now : Nat) :
    (confirmRequest confirmation now).WritesOnly [.aborts, .control] := by
  intro s a s' h c hc
  unfold confirmRequest at h
  split at h
  · cases h
  · split at h
    · cases h
    · split at h
      · cases h
      · dsimp only at h
        repeat' split at h
        all_goals cases h; cases c <;> first | rfl | simp at hc

theorem confirmAbortRequest_get (confirmation : AbortConfirmation) (now : Nat) (s : Store)
    (c : Column) (hc : c ∉ [Column.aborts, .control]) :
    c.get (confirmAbortRequest confirmation now s).2 = c.get s := by
  have h := (confirmRequest_writes confirmation now).commit s c hc
  unfold confirmAbortRequest
  rcases hx : (confirmRequest confirmation now).commit s with ⟨r, s'⟩
  rw [hx] at h
  cases r with
  | error e => exact h
  | ok control =>
    dsimp only
    split <;> exact h

theorem recordAttempt_writes (e : RuntimeEvent) (runId : String) :
    (recordAttempt e runId).WritesOnly [.attempts] := by
  have hlink : ∀ (t : Store) (c : Column), c ∉ [Column.attempts] →
      c.get (linkRedispatch e runId t) = c.get t := by
    intro t c hc
    unfold linkRedispatch Store.mapAttempt
    split
    · split <;> cases c <;> first | rfl | simp at hc
    · rfl
  intro s a s' h c hc
  unfold recordAttempt at h
  split at h
  · cases h
  · split at h
    · split at h
      · cases h
      · cases h
        rw [hlink _ c hc]
        cases c <;> first | rfl | simp at hc
    · split at h
      · cases h
      · cases h
        rw [hlink _ c hc]
        cases c <;> first | rfl | simp at hc

theorem recordCardRuntimeEvent_writes (e : RuntimeEvent) :
    (recordCardRuntimeEvent e).WritesOnly [.attempts, .runtime] := by
  intro s a s' h c hc
  unfold recordCardRuntimeEvent at h
  dsimp only at h
  split at h
  · cases h
    rfl
  · split at h
    · cases h
    · rename_i s₁ hs₁
      have h₁ : c.get s₁ = c.get s := by
        cases hr : e.runId with
        | none =>
          rw [hr] at hs₁
          cases hs₁
          rfl
        | some runId =>
          rw [hr] at hs₁
          exact recordAttempt_writes e runId _ _ _ hs₁ c (by simp_all)
      rw [← h₁]
      split at h <;> cases h <;> cases c <;> first | rfl | simp at hc

theorem updateWorkerWatchdog_get (u : WatchdogUpdate) (now : Nat) (s : Store) (c : Column)
    (hc : c ∉ [Column.attempts, .runtime]) :
    c.get (updateWorkerWatchdog u now s).2 = c.get s := by
  unfold updateWorkerWatchdog
  split
  dsimp only
  split <;> cases c <;> first | rfl | simp at hc

end WritesOnly

/-- An operation leaves the tables alone that it does not write. -/
theorem StoreOp.exec_get (o : StoreOp) (now : Nat) (s : Store) {c : Column} (hc : c ∉ o.writes) :
    c.get (o.exec now s).2 = c.get s := by
  cases o <;> simp only [StoreOp.writes] at hc <;> simp only [StoreOp.exec]
  case saveRun run => exact (saveRun_writes run).commit s c hc
  case confirmAbortRequest q => exact confirmAbortRequest_get q now s c hc
  case addManagedCard card => exact (addManagedCard_writes card).commit s c hc
  case recordCardRuntimeEvent e => exact (recordCardRuntimeEvent_writes e).commit s c hc
  case updateWorkerWatchdog u => exact updateWorkerWatchdog_get u now s c hc
  case transitionRun t => exact (transitionRun_writes t now).commit s c hc
  case setRunException k r => exact (setRunException_writes k r now).commit s c hc
  case markFlowCompleted k st h r => exact (markFlowCompleted_writes k st h r now).commit s c hc
  case markCompleted k e q h m r => exact (markCompleted_writes k e q h m r now).commit s c hc
  case operationResult call => exact (operationResult_writes call now).commit s c hc
  case beginRequest k p => exact (beginRequest_writes k p).commit s c hc
  all_goals
    refine Txn.WritesOnly.commit (fun s a s' h c hc => ?_) s c hc
    simp only [HollysysController.ensureRunControl, HollysysController.createAbortRequest,
      HollysysController.bindRequestRun, HollysysController.bindDelivery,
      HollysysController.registerCardAttempt, HollysysController.recordAttemptCompletion,
      HollysysController.recordAttemptMetric, HollysysController.markAborting,
      HollysysController.finishAbort, HollysysController.recordDependencyFailure,
      HollysysController.associateOutageRun, HollysysController.recoverDependency,
      HollysysController.setCursor, HollysysController.finishOperation,
      HollysysController.failOperation, HollysysController.supersedeOperation, closeOperation,
      HollysysController.markOperationUncertain, HollysysController.finishRequest,
      HollysysController.failRequest, HollysysController.enqueue,
      HollysysController.enqueueReconcile] at h
    repeat' split at h
    all_goals first | (cases h; done) | (cases h; cases c <;> first | rfl | simp at hc)

end HollysysController
