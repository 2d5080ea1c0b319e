import HollysysController.Bodies
import HollysysController.Reconcile

/-! # The walk through a pass

What holds of every operation a pass may make holds of the pass. The end of the
code flow is the one operation with a side condition, so a judgement that
accepts it under conditions has to look at the completion only. -/

namespace HollysysController

open Durable

/-! ## Ends and their notices -/

/-- The notice that goes with the end of a run. -/
def StoreOp.Tells : StoreOp → OutboxRow → Prop
  | markFlowCompleted k state _ _, row => ∃ head : String,
    let eventKey := s!"code:terminal:{state.value}:{head}"
    row.key = s!"{k}:progress:{eventKey}"
  | markCompleted k _ _ _ _ _, row => ∃ tail : String,
    row.key = s!"{k}:merged:{tail}" ∨ row.key = s!"{k}:merged-policy-violation:{tail}"
  | finishAbort k merged _ _, row =>
    let terminal := if merged then RunState.completedBeforeAbort else .aborted
    row.key = s!"{k}:aborted:{terminal.value}" ∨
      merged = true ∧ ∃ tail : String, row.key = s!"{k}:completed-before-abort:{tail}"
  | _, _ => False

/-- The end of a run, with its notice. -/
def tellEnd (o : StoreOp) (row : OutboxRow) : Service Unit :=
  (store o).bind fun _ => store (.enqueue row)

theorem enqueueProgress_kept (cfg : Config) (run : RunRecord) (eventKey : String) :
    enqueueProgress cfg run eventKey true = store (.enqueue
      { key := s!"{run.runKey}:progress:{eventKey}", runKey := run.runKey, event := "progress" }) := by
  simp [enqueueProgress]

/-- A judgement about everything a pass does but the end of the code flow. The other ends
of a run come with their notices, and the stop of a running task, a dependency failure and a
recovery as wholes. -/
structure Passing (K : ∀ {α : Type}, Service α → Prop) : Prop extends Closed K where
  store : ∀ o : StoreOp, o.isLive = true → K (store o)
  transition : ∀ t : Transition, t.newState ≠ .dependencyDegraded → t.Issued →
    K (HollysysController.store (.transitionRun t))
  ended : ∀ (o : StoreOp) (row : OutboxRow), o.isBody = true → o.Tells row → K (tellEnd o row)
  hermes : ∀ o : HermesOp, o.evicts = false → K (hermes o)
  running : ∀ (cfg : Config) (board : String) (id : CardId) (task : TaskRecord),
    K (abortRunningTask cfg board id task)
  failure : ∀ (cfg : Config) (runKey : String) (kind : DependencyKind) (text : String)
    (c : ErrorContext), K (handleDependencyError cfg runKey kind text c)
  recovery : ∀ (cfg : Config) (runKey base : String), K (recoverRunDependency cfg runKey base)
  gitlab : ∀ o : GitLabOp, K (gitlab o)
  host : ∀ o : HostOp, K (host o)

/-- Where every operation of a pass is allowed, and the ends of a run with their notices, so
are its wholes. -/
theorem passing_of_ends {K : ∀ {α : Type}, Service α → Prop} (hclosed : Closed K)
    (hstore : ∀ o : StoreOp, o.isLive = true → K (store o))
    (houtage : ∀ o : StoreOp, o.isOutage = true → K (store o))
    (htransition : ∀ t : Transition, t.Issued → K (store (.transitionRun t)))
    (hended : ∀ (o : StoreOp) (row : OutboxRow), o.isBody = true → o.Tells row → K (tellEnd o row))
    (hhermes : ∀ o : HermesOp, K (hermes o)) (hgitlab : ∀ o : GitLabOp, K (gitlab o))
    (hhost : ∀ o : HostOp, K (host o)) : Passing K := by
  have hbook : Bookkeeping K :=
    bookkeeping_of_ops hclosed hstore hhermes hgitlab hhost houtage fun t _ => htransition t
  exact {
    hclosed with
    store := hstore
    transition := fun t _ => htransition t
    ended := hended
    hermes := fun o _ => hhermes o
    running := running_of_ops hclosed hstore hhermes hgitlab hhost
    failure := hbook.handleDependencyError
    recovery := hbook.recoverRunDependency
    gitlab := hgitlab
    host := hhost }

/-- Where every operation of a pass is allowed, so are its wholes. -/
theorem passing_of_ops {K : ∀ {α : Type}, Service α → Prop} (hclosed : Closed K)
    (hstore : ∀ o : StoreOp, o.isBody = true → K (store o))
    (htransition : ∀ t : Transition, t.Issued → K (store (.transitionRun t)))
    (hhermes : ∀ o : HermesOp, K (hermes o)) (hgitlab : ∀ o : GitLabOp, K (gitlab o))
    (hhost : ∀ o : HostOp, K (host o)) : Passing K :=
  passing_of_ends hclosed (fun o ho => hstore o (StoreOp.isLive_isBody ho))
    (fun o ho => hstore o (StoreOp.isOutage_isBody ho))
    htransition (fun o _ ho _ => hclosed.bind (hstore o ho) fun _ => hstore _ rfl) hhermes hgitlab
    hhost

namespace Passing

variable {K : ∀ {α : Type}, Service α → Prop} (h : Passing K)
include h

theorem body : Body K where
  toClosed := h.toClosed
  store := h.store
  admission := admission_of_transitions h.toClosed h.store h.transition h.host
  hermes := h.hermes
  running := h.running
  failure := h.failure
  gitlab := h.gitlab
  host := h.host

theorem plain : Plain K := h.body.plain

theorem reading : Reading K := h.body.reading

/-! ## Entering exception -/

theorem exception (cfg : Config) (run : RunRecord) (parent : CardId) (reason : String) :
    K (exception cfg run parent reason) := by
  have henter : ∀ id, K (enterException cfg run id reason) := fun id => by
    refine h.bind (h.body.handling.assertMutableOrWithdraw _ _ _ _) fun _ =>
      h.bind (h.attempt (h.store _ rfl)) fun r => ?_
    cases r with
    | ok control => exact h.pure _
    | error e =>
      dsimp only
      split
      · refine h.bind (h.reading.runControl _) fun control => ?_
        split
        · exact h.raise _
        · exact h.bind (h.body.handling.withdrawCard _ _ _) fun _ => h.raise _
      · exact h.raise _
  exact h.bind (h.body.handling.archiveParent _ _ _) fun _ =>
    h.bind (h.body.handling.recordExceptionCard _ _ _ _) fun task => h.bind (henter _) fun _ =>
    h.bind (h.store _ rfl) fun _ => h.pure _

/-! ## Blocked cards -/

theorem rejectedBlock (cfg : Config) (run : RunRecord) (i : HistoryItem)
    (fields : List (String × String)) : K (rejectedBlock cfg run i fields) := by
  have hend : ∀ reason, K (do
      let _ ← HollysysController.exception cfg run i.task.id reason
      pure () : Service Unit) := fun reason => h.bind (h.exception _ _ _ _) fun _ => h.pure _
  unfold HollysysController.rejectedBlock
  dsimp only
  split
  · exact h.bind (h.reading.assertReconcileMutable _) fun _ => h.bind (h.hermes _ rfl) fun _ => hend _
  · exact hend _

theorem acceptedBlock (cfg : Config) (run : RunRecord) (i : HistoryItem) (comment : String)
    (fields : List (String × String)) : K (acceptedBlock cfg run i comment fields) := by
  refine h.bind (h.store _ rfl) fun _ => h.bind (h.reading.runControl _) fun current => ?_
  split
  · exact h.bind (h.transition _ (fun hnew => by cases hnew)
        ⟨by simp [RunState.isTerminal], rfl, fun _ => rfl, by simp [RunState.isAborting], rfl⟩)
      fun _ => h.pure _
  · exact h.pure _

theorem humanBlock (cfg : Config) (run : RunRecord) (i : HistoryItem) (comment : String) :
    K (humanBlock cfg run i comment) := by
  refine h.bind (h.reading.fromText _) fun stage => ?_
  split
  · exact h.acceptedBlock _ _ _ _ _
  · exact h.rejectedBlock _ _ _ _

theorem silentBlock (cfg : Config) (run : RunRecord) (i : HistoryItem) :
    K (silentBlock cfg run i) :=
  h.bind (h.plain.enqueueControllerFailure _ _ _) fun _ =>
    h.bind (h.exception _ _ _ _) fun _ => h.pure _

theorem fusedCard (cfg : Config) (run : RunRecord) (i : HistoryItem) (kind : String) :
    K (fusedCard cfg run i kind) := by
  refine h.bind (h.reading.assertReconcileMutable _) fun _ =>
    h.bind (h.body.handling.abortManagedTask _ _ _) fun archived => ?_
  split
  · exact h.raise _
  · exact h.bind (h.exception _ _ _ _) fun _ => h.pure _

theorem blockedCard (cfg : Config) (run : RunRecord) (i : HistoryItem) :
    K (blockedCard cfg run i) := by
  unfold HollysysController.blockedCard
  split
  · exact h.bind (h.fusedCard _ _ _ _) fun _ => h.pure _
  · split
    · exact h.bind (h.reading.assertReconcileMutable _) fun _ =>
        h.bind (h.body.ensureWorkPublished _ _) fun _ => h.pure _
    · split
      · exact h.pure _
      · split
        · exact h.bind (h.humanBlock _ _ _ _) fun _ => h.pure _
        · exact h.bind (h.silentBlock _ _ _) fun _ => h.pure _

theorem blockedCards (cfg : Config) (run : RunRecord) (items : List HistoryItem) :
    K (blockedCards cfg run items) := by
  induction items with
  | nil => exact h.pure _
  | cons i is ih =>
    unfold HollysysController.blockedCards
    split
    · refine h.bind (h.blockedCard cfg run i) fun ended => ?_
      split
      · exact h.pure _
      · exact ih
    · exact ih

/-! ## Rejecting a completion -/

theorem enqueueAgentNotice (cfg : Config) (run : RunRecord) (i : HistoryItem) (verdict : String) :
    K (enqueueAgentNotice cfg run i verdict) := by
  unfold HollysysController.enqueueAgentNotice
  split
  · exact h.pure _
  · exact h.bind (h.store _ rfl) fun _ => h.bind (h.reading.runControl _) fun _ =>
      h.plain.enqueueProgress _ _ _ _

theorem rejectAgentCompletion (cfg : Config) (run : RunRecord) (i : HistoryItem)
    (reason : String) (mrIid : Option Nat) (headSha : Option String) :
    K (rejectAgentCompletion cfg run i reason mrIid headSha) :=
  h.bind (h.store _ rfl) fun _ => h.enqueueAgentNotice _ _ _ _

theorem protocolFailure (cfg : Config) (run : RunRecord) (items : List HistoryItem)
    (latest : HistoryItem) (reason : String) : K (protocolFailure cfg run items latest reason) := by
  have hend : ∀ n : Nat, K (do
      let stage ← HollysysController.fromText latest.workStage
      if protocolRetryAllowed cfg n then
        let record ← HollysysController.fromText (parseCardBody latest.task.body)
        let _ ← createWork cfg run
          { stage, parent := latest.task.id, mode := record.mode,
            repairContext := record.repairContext }
      else
        let _ ← HollysysController.exception cfg run latest.task.id
          s!"metadata/gate protocol retry budget exhausted: {reason}" : Service Unit) := fun n => by
    refine h.bind (h.reading.fromText _) fun stage => ?_
    split
    · exact h.bind (h.reading.fromText _) fun _ => h.bind (h.body.createWork _ _ _) fun _ =>
        h.pure _
    · exact h.bind (h.exception _ _ _ _) fun _ => h.pure _
  refine h.bind (h.reading.assertReconcileMutable _) fun _ =>
    h.bind (h.rejectAgentCompletion _ _ _ _ _ _) fun _ => ?_
  dsimp only
  split
  · exact h.bind (h.hermes _ rfl) fun _ => hend _
  · exact hend _

theorem restartAtTest (cfg : Config) (run : RunRecord) (parent : CardId) :
    K (restartAtTest cfg run parent) :=
  h.bind (h.body.createWork _ _ _) fun _ => h.pure _

theorem checkedRepair (c : RepairContext) : K (checkedRepair c) :=
  h.bind (h.reading.fromText _) fun _ => h.pure _

theorem createReviewRepair (cfg : Config) (run : RunRecord) (items : List HistoryItem)
    (m : CompletionPayload) (parent : CardId) (issues : List String) :
    K (createReviewRepair cfg run items m parent issues) :=
  h.bind (h.checkedRepair _) fun _ => h.bind (h.plain.enqueueProgress _ _ _ _) fun _ =>
    h.bind (h.body.createWork _ _ _) fun _ => h.pure _

theorem createFrozenRepair (cfg : Config) (run : RunRecord) (items : List HistoryItem)
    (phase : Phase) (parent : CardId) (violation : String) (mode : WorkMode) :
    K (createFrozenRepair cfg run items phase parent violation mode) :=
  h.bind (h.reading.fromText _) fun _ => h.bind (h.plain.enqueueProgress _ _ _ _) fun _ =>
    h.bind (h.body.createWork _ _ _) fun _ => h.pure _

theorem gateFailure (cfg : Config) (run : RunRecord) (items : List HistoryItem)
    (latest : HistoryItem) (m : CompletionPayload) (text : String) :
    K (gateFailure cfg run items latest m text) := by
  unfold HollysysController.gateFailure
  split
  · exact h.bind (h.rejectAgentCompletion _ _ _ _ _ _) fun _ => h.restartAtTest _ _ _
  · exact h.protocolFailure _ _ _ _ _

theorem liveCheck (cfg : Config) (run : RunRecord) (items : List HistoryItem)
    (latest : HistoryItem) (m : CompletionPayload) : K (liveCheck cfg run items latest m) := by
  refine h.bind (h.reading.deliveryMr _ _ _) fun mr => ?_
  split
  · exact h.pure _
  · refine h.bind (h.reading.frozenViolation _ _ _ _) fun violation => ?_
    cases violation with
    | some violation =>
      exact h.bind (h.rejectAgentCompletion _ _ _ _ _ _) fun _ =>
        h.bind (h.createFrozenRepair _ _ _ _ _ _ _) fun _ => h.pure _
    | none =>
      refine h.bind (h.reading.caught (h.reading.artifactGate _ _ _)) fun r => ?_
      cases r with
      | ok u => exact h.pure _
      | error text =>
        refine h.bind (h.rejectAgentCompletion _ _ _ _ _ _) fun _ => ?_
        dsimp only
        split
        · exact h.bind (h.createReviewRepair _ _ _ _ _ _) fun _ => h.pure _
        · exact h.bind (h.createFrozenRepair _ _ _ _ _ _ _) fun _ => h.pure _

/-! ## The end of a run -/

theorem markDeliveryReadyAtHead (run : RunRecord) (b : DeliveryBinding) (head : String) :
    K (markDeliveryReadyAtHead run b head) := by
  refine h.bind (h.reading.runControl _) fun _ =>
    h.bind (h.plain.operation _ _ ?_) fun _ => h.pure _
  refine h.bind (h.reading.deliveryMr _ _ _) fun before => ?_
  split
  · exact h.raise _
  · refine h.bind (h.reading.deliveryMr _ _ _) fun _ => h.bind (h.gitlab _) fun _ =>
      h.bind (h.reading.deliveryMr _ _ _) fun after => ?_
    split
    · exact h.raise _
    · split
      · exact h.raise _
      · exact h.pure _

theorem confirmReady (run : RunRecord) (iid : Nat) (head : String) :
    K (confirmReady run iid head) := by
  refine h.bind (h.store _ rfl) fun binding => ?_
  cases binding with
  | none => exact h.raise _
  | some b =>
    dsimp only
    split
    · exact h.raise _
    · refine h.bind (h.markDeliveryReadyAtHead _ _ _) fun _ =>
        h.bind (h.reading.deliveryMr _ _ _) fun mr => ?_
      split
      · exact h.raise _
      · exact h.pure _

/-- The end of the code flow, given that the run may be marked so. -/
theorem finalizeCodeFlow (cfg : Config) (run : RunRecord) (items : List HistoryItem)
    (latest : HistoryItem) (m : CompletionPayload) (state : RunState)
    (paired : Option CompletionMetadata) (modifications : Nat)
    (hmark : ∀ head reason row, (StoreOp.markFlowCompleted run.runKey state head reason).Tells row →
      K (tellEnd (.markFlowCompleted run.runKey state head reason) row)) :
    K (finalizeCodeFlow cfg run items latest m state paired modifications) := by
  refine h.bind (h.reading.fromText _) fun gates => ?_
  obtain ⟨test, review⟩ := gates
  refine h.bind (h.reading.fromText _) fun delivery => ?_
  obtain ⟨iid, head⟩ := delivery
  refine h.bind (h.reading.deliveryMr _ _ _) fun mr => ?_
  dsimp only
  split
  · exact h.restartAtTest _ _ _
  · refine h.bind (h.reading.frozenViolation _ _ _ _) fun violation => ?_
    cases violation with
    | some violation => exact h.bind (h.exception _ _ _ _) fun _ => h.pure _
    | none =>
      have hend : K (do
          let _ ← HollysysController.store (.markFlowCompleted run.runKey state head
            (terminalReason cfg state head test review modifications (readyRequired state)))
          let testHead := test.headSha.getD "None"
          enqueueProgress cfg run s!"code:terminal:{state.value}:{testHead}" true) := by
        dsimp only
        rw [enqueueProgress_kept]
        exact hmark _ _ _ ⟨_, rfl⟩
      dsimp only
      split
      · exact h.bind (h.confirmReady _ _ _) fun _ => hend
      · exact hend

theorem finalizeMerged (run : RunRecord) (items : List HistoryItem) (mr : MergeRequest) :
    K (finalizeMerged run items mr) := by
  refine h.bind (h.reading.fromExcept _) fun identity => ?_
  obtain ⟨head, merge⟩ := identity
  refine h.bind (h.store _ rfl) fun row => h.bind_answers databaseError
    (h.reading.mergedCompliance _ _ _ _ _) (mergedCompliance_answers _ _ _ _ _)
    fun verdict hcompliance => ?_
  obtain ⟨compliance, reason⟩ := verdict
  refine h.bind (h.reading.runControl _) fun control => ?_
  dsimp only
  split
  · exact h.ended (.finishAbort _ _ _ _) _ rfl (Or.inr ⟨rfl, _, rfl⟩)
  · split
    · exact h.pure _
    · split
      · exact h.ended (.markCompleted _ _ _ _ _ _) _ hcompliance ⟨_, .inl rfl⟩
      · exact h.ended (.markCompleted _ _ _ _ _ _) _ hcompliance ⟨_, .inr rfl⟩

theorem stopCards (cfg : Config) (board : String) (items : List HistoryItem) :
    K (stopCards cfg board items) := by
  induction items with
  | nil => exact h.pure _
  | cons i is ih =>
    unfold HollysysController.stopCards
    split
    · refine h.bind (h.body.handling.abortManagedTask _ _ _) fun stopped => ?_
      split
      · exact ih
      · exact h.pure _
    · exact ih

theorem continueAbort (cfg : Config) (runKey : String) : K (continueAbort cfg runKey) := by
  refine h.bind (h.store _ rfl) fun control => ?_
  cases control with
  | none => exact h.pure _
  | some control =>
    dsimp only
    split
    · exact h.pure _
    · refine h.bind (h.reading.history _) fun read => ?_
      obtain ⟨items, run⟩ := read
      refine h.bind (h.store _ rfl) fun _ => h.bind (h.stopCards _ _ _) fun waiting => ?_
      cases waiting with
      | some id => exact h.plain.enqueueProgress _ _ _ _
      | none =>
        exact h.bind (h.store _ rfl) fun _ => h.bind (h.gitlab _) fun _ =>
          h.bind (h.reading.fromExcept _) fun _ => h.ended (.finishAbort _ _ _ _) _ rfl (Or.inl rfl)

/-! ## Following the route -/

theorem routedRepair (cfg : Config) (run : RunRecord) (m : CompletionPayload) (parent : CardId)
    (reviewAttempt : Nat) (paired : Option CompletionMetadata) (modifications : Nat) :
    K (routedRepair cfg run m parent reviewAttempt paired modifications) := by
  unfold HollysysController.routedRepair
  split
  · exact h.bind (h.checkedRepair _) fun _ => h.bind (h.plain.enqueueProgress _ _ _ _) fun _ =>
      h.pure _
  · split
    · exact h.bind (h.checkedRepair _) fun _ => h.bind (h.plain.enqueueProgress _ _ _ _) fun _ =>
        h.pure _
    · split
      · exact h.pure _
      · split
        · exact h.bind (h.checkedRepair _) fun _ =>
            h.bind (h.plain.enqueueProgress _ _ _ _) fun _ => h.pure _
        · exact h.pure _

theorem routedNotices (cfg : Config) (run : RunRecord) (m : CompletionPayload) :
    K (routedNotices cfg run m) := by
  have hfrozen : K (enqueuePhaseFrozen cfg run m) := h.plain.enqueueProgress _ _ _ _
  unfold HollysysController.routedNotices
  split <;> dsimp only <;> split
  · exact h.bind hfrozen fun _ => hfrozen
  · exact hfrozen
  · exact h.bind hfrozen fun _ => h.pure _
  · exact h.pure _

theorem dispatchNext (cfg : Config) (run : RunRecord) (items : List HistoryItem)
    (latest : HistoryItem) (m : CompletionPayload) (paired : Option CompletionMetadata)
    (modifications : Nat) (stage : Stage) (mode : WorkMode) :
    K (dispatchNext cfg run items latest m paired modifications stage mode) := by
  have hend : K (do
      let repairContext ← HollysysController.routedRepair cfg run m latest.task.id
        (reviewAttempts items m.stage) paired modifications
      HollysysController.routedNotices cfg run m
      let _ ← createWork cfg run { stage, parent := latest.task.id, mode, repairContext }
      if phaseForStage stage ≠ phaseForStage m.stage then
        enqueueProgress cfg run s!"{(phaseForStage stage).value}:started" false :
          Service Unit) := by
    refine h.bind (h.routedRepair _ _ _ _ _ _ _) fun context =>
      h.bind (h.routedNotices _ _ _) fun _ => h.bind (h.body.createWork _ _ _) fun _ => ?_
    split
    · exact h.plain.enqueueProgress _ _ _ _
    · exact h.pure _
  unfold HollysysController.dispatchNext
  dsimp only
  split
  · exact h.bind (h.plain.enqueueProgress _ _ _ _) fun _ => hend
  · exact hend

/-- The route of a completion, given that the run may be marked with the terminal
state it leads to. -/
theorem followRoute (cfg : Config) (run : RunRecord) (items : List HistoryItem)
    (latest : HistoryItem) (m : CompletionPayload) (paired : Option CompletionMetadata)
    (modifications : Nat)
    (hmark : ∀ state, routeCompletion cfg m (reviewAttempts items m.stage)
        (paired.map (·.toCompletionPayload)) modifications = .terminal state →
      ∀ head reason row, (StoreOp.markFlowCompleted run.runKey state head reason).Tells row →
        K (tellEnd (.markFlowCompleted run.runKey state head reason) row)) :
    K (followRoute cfg run items latest m paired modifications) := by
  unfold HollysysController.followRoute
  split
  · next state hroute =>
    exact h.finalizeCodeFlow _ _ _ _ _ _ _ _ (hmark state hroute)
  · exact h.bind (h.exception _ _ _ _) fun _ => h.pure _
  · exact h.dispatchNext _ _ _ _ _ _ _ _ _
  · exact h.pure _

/-! ## One pass -/

/-- The cards of the run, given the part that looks at a completion. -/
theorem reconcileCards (cfg : Config) (run : RunRecord) (items : List HistoryItem)
    (hcompletion : ∀ latest, (items.filter (·.isWork)).getLast? = some latest →
      latest.task.status = .done → K (reconcileCompletion cfg run items latest)) :
    K (reconcileCards cfg run items) := by
  have hstart : ∀ root, K (do
      let _ ← createWork cfg run { stage := .specWrite, parent := root } : Service Unit) :=
    fun root => h.bind (h.body.createWork _ _ _) fun _ => h.pure _
  have hidle : K (reconcileIdle cfg run items) := by
    unfold reconcileIdle
    split
    · split
      · exact h.raise _
      · exact hstart _
    · next latest hlatest =>
      split
      · exact h.pure _
      · next hdone => exact hcompletion latest hlatest (not_not.mp hdone)
  have hactive : ∀ active, K (reconcileActive cfg run items active) := fun active => by
    unfold reconcileActive
    split
    · exact h.pure _
    · split
      · exact h.pure _
      · exact h.bind (h.exception _ _ _ _) fun _ => h.pure _
  unfold HollysysController.reconcileCards
  dsimp only
  split
  · exact h.bind (h.reading.assertReconcileMutable _) fun _ =>
      h.bind (h.body.completeRoot _ _) fun _ => hstart _
  · refine h.bind (h.blockedCards _ _ _) fun ended => ?_
    split
    · exact h.pure _
    · split
      · exact hidle
      · exact hactive _

/-- What a pass does with the history it has read. -/
theorem reconcileRead (cfg : Config) (runKey : String) (run : RunRecord)
    (items : List HistoryItem) (hcards : K (HollysysController.reconcileCards cfg run items)) :
    K (do
      match ← HollysysController.unauthorizedPromotion items with
      | some i =>
        let _ ← HollysysController.exception cfg run i.task.id
          "unknown promoted_manual event without matching human resolve"
      | none =>
        let mr ← HollysysController.boundDeliveryMr .start run
        match mr.filter (·.state == "merged") with
        | some merged => HollysysController.finalizeMerged run items merged
        | none =>
          let _ ← HollysysController.assertReconcileMutable runKey
          HollysysController.reconcileCards cfg run items : Service Unit) := by
  refine h.bind (h.reading.unauthorizedPromotion _) fun promoted => ?_
  cases promoted with
  | some i => exact h.bind (h.exception _ _ _ _) fun _ => h.pure _
  | none =>
    refine h.bind (h.reading.boundDeliveryMr _ _) fun mr => ?_
    split
    · exact h.finalizeMerged _ _ _
    · exact h.bind (h.reading.assertReconcileMutable _) fun _ => hcards

/-- A pass, given what it does with a run that may be changed. -/
theorem reconcileRun (cfg : Config) (runKey : String) (hmutable : K (reconcileMutable cfg runKey)) :
    K (reconcileRun cfg runKey) := by
  refine h.bind (h.reading.runControl _) fun control => ?_
  split
  · exact h.continueAbort _ _
  · split
    · exact h.pure _
    · refine h.bind (h.store _ rfl) fun backedOff => ?_
      split
      · exact h.pure _
      · exact hmutable

/-- A pass with what becomes of its error. -/
theorem reconcileWithPolicy (cfg : Config) (runKey : String)
    (hrun : K (HollysysController.reconcileRun cfg runKey)) :
    K (reconcileWithPolicy cfg runKey) := by
  have hsettle : ∀ e, K (settleReconcile cfg runKey e) := fun e => by
    have hexception : K (recordRunException cfg runKey e) := h.plain.recordRunException _ _ _
    unfold settleReconcile
    split
    · exact h.pure _
    · exact hexception
    · exact hexception
    · exact hexception
    · exact hexception
    · exact h.failure _ _ _ _ _
    · exact h.raise _
    · exact h.raise _
    · exact h.raise _
  have hrecover : ∀ base, K (recoverRunDependency cfg runKey base) :=
    h.recovery cfg runKey
  refine h.bind (h.store _ rfl) fun backedOff => ?_
  split
  · exact h.pure _
  · refine h.bind (h.attempt (h.bind hrun fun _ => h.bind (hrecover _) fun _ => hrecover _))
      fun r => ?_
    cases r with
    | ok u => exact h.pure _
    | error e => exact hsettle e

end Passing

end HollysysController
