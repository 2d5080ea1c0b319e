import HollysysController.Columns
import HollysysController.StaleWorker

/-! # One walk through the service functions

What holds of the reads of a service function holds of the functions that only
read, and what holds of the plain operations holds of more. The walk is made
once, for any judgement that follows the structure of the programs. -/

namespace HollysysController

open Durable

def StoreOp.isRead : StoreOp → Bool
  | runRecord _ | runControl _ | cardsForRun _ | managedCard _ _ | deliveryBinding _
  | cardRuntime _ _ | operationRecord _ | validationRuns _ _ | retryBlocked _ | deepPreflight
  | corroboratingRuns | openOutage _ | outageRunKeys _ _ | runOutages _ | runKeys | cursor _
  | requestRecord _ => true
  | _ => false

def HermesOp.isRead : HermesOp → Bool
  | task _ _ | taskByIdempotency _ _ | eventsAfter _ _ _ => true
  | _ => false

def GitLabOp.isRead : GitLabOp → Bool
  | mr _ _ _ | check _ | gateNote _ _ _ => true
  | _ => false

/-- A read other than the check of a document artifact, which compares commits. -/
def GitLabOp.isLook : GitLabOp → Bool
  | check (.artifactCompletion _ _) => false
  | o => o.isRead

theorem GitLabOp.isRead_of_look {o : GitLabOp} (h : o.isLook = true) : o.isRead = true := by
  unfold GitLabOp.isLook at h
  split at h
  · cases h
  · exact h

/-- The compliances a completed run is recorded with. -/
def isCompliance (compliance : String) : Bool :=
  compliance == "verified" || compliance == "unverified"

/-- Every store operation but those that need a closer look: the record of a run or a
card, the record of an event, the free transition of a run, its end, the outages of a run,
the requests, and the progress of a poll. -/
def StoreOp.isPlain : StoreOp → Bool
  | saveRun _ | ensureRunControl _ | bindRequestRun _ _ | createAbortRequest _
  | confirmAbortRequest _ | beginRequest _ _ | finishRequest _ _ | failRequest _ _
  | addManagedCard _ | recordCardRuntimeEvent _ | transitionRun _ | markFlowCompleted _ _ _ _
  | markCompleted _ _ _ _ _ _ | finishAbort _ _ _ _ | associateOutageRun _ _ _
  | recoverDependency _ | setCursor _ _
  | enqueueReconcile _ _ _ _ | bindDelivery _ _ => false
  | updateWorkerWatchdog u => !u.incrementRedispatch
  | _ => true

/-- The board is read, a card is promoted or commented on. -/
def HermesOp.isPlain : HermesOp → Bool
  | task _ _ | taskByIdempotency _ _ | eventsAfter _ _ _ | promote _ _ | comment _ _ _ => true
  | _ => false

/-- A judgement about reads that compare no commits. -/
structure Looking (K : ∀ {α : Type}, Service α → Prop) : Prop extends Closed K where
  store : ∀ o : StoreOp, o.isRead = true → K (store o)
  hermes : ∀ o : HermesOp, o.isRead = true → K (hermes o)
  gitlab : ∀ o : GitLabOp, o.isLook = true → K (gitlab o)
  host : ∀ o : HostOp, K (host o)

/-- A judgement about reads. -/
structure Reading (K : ∀ {α : Type}, Service α → Prop) : Prop extends Looking K where
  artifact : ∀ (run : RunRecord) (m : CompletionPayload),
    K (HollysysController.gitlab (.check (.artifactCompletion run m)))

/-- A judgement about the plain operations. -/
structure Plain (K : ∀ {α : Type}, Service α → Prop) : Prop extends Closed K where
  store : ∀ o : StoreOp, o.isPlain = true → K (store o)
  hermes : ∀ o : HermesOp, o.isPlain = true → K (hermes o)
  gitlab : ∀ o : GitLabOp, K (gitlab o)
  host : ∀ o : HostOp, K (host o)

/-- Reads are plain. -/
theorem Plain.reading {K : ∀ {α : Type}, Service α → Prop} (h : Plain K) : Reading K :=
  { h.toClosed with
    store := fun o ho => h.store o (by cases o <;> first | rfl | cases ho)
    hermes := fun o ho => h.hermes o (by cases o <;> first | rfl | cases ho)
    gitlab := fun o _ => h.gitlab o
    host := h.host
    artifact := fun _ _ => h.gitlab _ }

namespace Looking

variable {K : ∀ {α : Type}, Service α → Prop} (h : Looking K)
include h

/-! ## Reads and small steps -/

theorem fromExcept {α : Type} (r : Except ControllerError α) : K (fromExcept r) := by
  cases r
  · exact h.raise _
  · exact h.pure _

theorem fromText {α : Type} (r : Except String α) : K (fromText r) := by
  cases r
  · exact h.raise _
  · exact h.pure _

theorem caught {α : Type} {p : Service α} (hp : K p) : K (caught p) := by
  refine h.bind (h.attempt hp) fun r => ?_
  cases r with
  | ok a => exact h.pure _
  | error e =>
    dsimp only
    split
    · exact h.pure _
    · exact h.raise _

theorem runControl (runKey : String) : K (runControl runKey) :=
  h.bind (h.store _ rfl) fun _ => h.pure _

theorem assertReconcileMutable (runKey : String) : K (assertReconcileMutable runKey) :=
  assertReconcileMutable_closed h.toClosed (h.store _ rfl)

/-! ## The history -/

theorem readItems (cards : List ManagedCard) : K (readItems cards) := by
  induction cards with
  | nil => exact h.pure _
  | cons c cs ih =>
    refine h.bind (h.hermes _ rfl) fun task => ?_
    cases task with
    | none => exact h.raise _
    | some task => exact h.bind ih fun _ => h.pure _

theorem history (runKey : String) : K (history runKey) := by
  refine h.bind (h.store _ rfl) fun cards => ?_
  split
  · exact h.raise _
  · exact h.bind (h.readItems cards) fun items => h.bind (h.fromExcept _) fun _ => h.pure _

/-! ## Validation -/

theorem validateCompletionIdentity (run : RunRecord) (i : HistoryItem) (m : CompletionPayload) :
    K (validateCompletionIdentity run i m) := by
  refine h.bind (h.fromText _) fun _ => h.bind (h.fromText _) fun _ =>
    h.bind (h.store _ rfl) fun _ => h.bind (h.fromText _) fun _ => h.bind ?_ fun _ =>
    h.bind (h.fromText _) fun _ => h.fromText _
  unfold persistedChecks
  split
  · exact h.pure _
  · exact h.store _ rfl

theorem deliveryMr (site : ReadSite) (run : RunRecord) (iid : Option Nat) :
    K (deliveryMr site run iid) := by
  cases iid with
  | none => exact h.raise _
  | some iid =>
    refine h.bind (h.gitlab _ rfl) fun mr => ?_
    split
    · exact h.raise _
    · exact h.pure _

theorem validateDeliveryBinding (site : ReadSite) (run : RunRecord) (b : DeliveryBinding) :
    K (validateDeliveryBinding site run b) := by
  refine h.bind (h.deliveryMr _ _ _) fun mr => ?_
  split
  · exact h.raise _
  · exact h.bind (h.gitlab _ rfl) fun _ => h.pure _

theorem boundDeliveryMr (site : ReadSite) (run : RunRecord) : K (boundDeliveryMr site run) := by
  refine h.bind (h.store _ rfl) fun b => ?_
  cases b with
  | none => exact h.pure _
  | some b => exact h.bind (h.validateDeliveryBinding _ _ _) fun _ => h.pure _

theorem validateCompletionContext (site : ReadSite) (run : RunRecord) (i : HistoryItem)
    (m : CompletionPayload) (requireCurrentHead : Bool) :
    K (validateCompletionContext site run i m requireCurrentHead) := by
  refine h.bind (h.validateCompletionIdentity _ _ _) fun _ => h.bind (h.fromText _) fun _ =>
    h.bind (h.boundDeliveryMr _ _) fun mr => ?_
  cases mr with
  | none => exact h.pure _
  | some mr =>
    dsimp only
    split
    · exact h.raise _
    · exact h.pure _

theorem validateWorkerAttempt (i : HistoryItem) : K (validateWorkerAttempt i) := by
  refine h.bind (h.store _ rfl) fun _ => ?_
  split
  · exact h.pure _
  · exact h.raise _

theorem validateSemanticGate (run : RunRecord) (i : HistoryItem) (m : CompletionPayload) :
    K (validateSemanticGate run i m) := by
  unfold HollysysController.validateSemanticGate
  split
  · exact h.pure _
  · refine h.bind (h.host _) fun now => ?_
    split
    · exact h.raise _
    · exact h.bind (h.fromText _) fun _ => h.bind (h.gitlab _ rfl) fun _ => h.pure _

theorem validateAuthoring (run : RunRecord) (m : CompletionPayload) :
    K (validateAuthoring run m) := by
  refine h.bind (h.gitlab _ rfl) fun _ => ?_
  unfold validateAuthorCompletion
  split
  · exact h.raise _
  · split
    · exact h.raise _
    · refine h.bind (h.deliveryMr _ _ _) fun mr => ?_
      split
      · exact h.raise _
      · exact h.pure _

theorem validateCompletion (cfg : Config) (run : RunRecord) (items : List HistoryItem)
    (i : HistoryItem) : K (validateCompletion cfg run items i) :=
  h.bind (h.validateWorkerAttempt i) fun _ => h.bind (h.fromText _) fun _ =>
    h.bind (h.validateCompletionContext _ _ _ _ _) fun _ => h.bind (h.fromText _) fun _ =>
    h.bind (h.validateSemanticGate _ _ _) fun _ => h.pure _

theorem noticeRun (runKey : String) : K (noticeRun runKey) := by
  refine h.bind (h.store _ rfl) fun cards => ?_
  split
  · exact h.store _ rfl
  · refine h.bind (h.hermes _ rfl) fun task => ?_
    cases task with
    | none => exact h.store _ rfl
    | some task =>
      dsimp only
      split <;> exact h.pure _

/-! ## Frozen baselines -/

theorem baselineCompletion (run : RunRecord) (i : HistoryItem) : K (baselineCompletion run i) :=
  h.bind (h.fromText _) fun _ => h.bind (h.validateCompletionContext _ _ _ _ _) fun _ => h.pure _

theorem baselineCandidate (run : RunRecord) (producer reviewer : Stage)
    (items : List HistoryItem) (candidate : Option CompletionMetadata) :
    K (baselineCandidate run producer reviewer items candidate) := by
  induction items generalizing candidate with
  | nil => exact h.pure _
  | cons i is ih =>
    unfold HollysysController.baselineCandidate
    split
    · exact h.bind (h.caught (h.baselineCompletion run i)) fun _ => ih _
    · exact ih _

theorem phaseBaselines (run : RunRecord) (items : List HistoryItem)
    (phases : List (String × Stage × Stage)) : K (phaseBaselines run items phases) := by
  induction phases with
  | nil => exact h.pure _
  | cons c cs ih =>
    obtain ⟨phase, producer, reviewer⟩ := c
    refine h.bind (h.baselineCandidate run producer reviewer items none) fun candidate => ?_
    cases candidate with
    | none => exact h.pure _
    | some m => exact h.bind ih fun _ => h.pure _

theorem frozenBaselines (cfg : Config) (items : List HistoryItem) (run : RunRecord) :
    K (frozenBaselines cfg items run) := by
  unfold HollysysController.frozenBaselines
  split
  · exact h.raise _
  · exact h.bind (h.phaseBaselines _ _ _) fun _ => h.pure _

theorem violationAt (run : RunRecord) (ref : String) (baselines : List ArtifactBaseline) :
    K (violationAt run ref baselines) := by
  induction baselines with
  | nil => exact h.pure _
  | cons b bs ih =>
    refine h.bind (h.caught (h.gitlab _ rfl)) fun r => ?_
    cases r with
    | ok => exact ih
    | error => exact h.pure _

theorem frozenViolation (cfg : Config) (run : RunRecord) (items : List HistoryItem)
    (ref : String) : K (frozenViolation cfg run items ref) :=
  h.bind (h.frozenBaselines _ _ _) fun _ => h.violationAt _ _ _

/-! ## Checks of a completion -/

theorem authoringCheck (run : RunRecord) (m : CompletionPayload) : K (authoringCheck run m) := by
  unfold HollysysController.authoringCheck
  split
  · exact h.validateAuthoring _ _
  · exact h.pure _

theorem artifactGate (run : RunRecord) (m : CompletionPayload) (head : String) :
    K (artifactGate run m head) := by
  unfold HollysysController.artifactGate
  split
  · exact h.bind (h.gitlab _ rfl) fun _ => h.pure _
  · exact h.pure _

theorem countsAsImplementation (i : HistoryItem) : K (countsAsImplementation i) := by
  unfold HollysysController.countsAsImplementation
  split
  · refine h.bind (h.store _ rfl) fun runtime => ?_
    split
    · refine h.bind (h.caught (h.bind (h.fromText _) fun m => h.bind (h.fromText _) fun card =>
        h.bind (h.validateCompletionIdentity _ _ _) fun _ => h.pure _)) fun read => ?_
      cases read <;> exact h.pure _
    · exact h.pure _
  · exact h.pure _

theorem implementationVersions (items : List HistoryItem) : K (implementationVersions items) := by
  induction items with
  | nil => exact h.pure _
  | cons i is ih => exact h.bind (h.countsAsImplementation i) fun _ => h.bind ih fun _ => h.pure _

theorem codeModificationCount (items : List HistoryItem) : K (codeModificationCount items) :=
  h.bind (h.implementationVersions items) fun _ => h.pure _

/-! ## Promotions -/

theorem promotionIsAuthorized (i : HistoryItem) : K (promotionIsAuthorized i) := by
  unfold HollysysController.promotionIsAuthorized
  split
  · exact h.pure _
  · split
    · exact h.pure _
    · exact h.bind (h.store _ rfl) fun _ => h.pure _

theorem unauthorizedPromotion (items : List HistoryItem) : K (unauthorizedPromotion items) := by
  induction items with
  | nil => exact h.pure _
  | cons i is ih =>
    unfold HollysysController.unauthorizedPromotion
    split
    · exact ih
    · refine h.bind (h.promotionIsAuthorized i) fun authorized => ?_
      split
      · exact ih
      · exact h.pure _

end Looking

namespace Reading

variable {K : ∀ {α : Type}, Service α → Prop} (h : Reading K)
include h

/-! ## Checks of a document artifact -/

theorem validateGate (site : ReadSite) (run : RunRecord) (m : CompletionPayload) :
    K (validateGate site run m) := by
  unfold HollysysController.validateGate
  split
  · exact h.pure _
  · refine h.bind (h.deliveryMr _ _ _) fun mr => ?_
    split
    · exact h.raise _
    · split
      · exact h.bind (h.artifact _ _) fun _ => h.bind (h.gitlab _ rfl) fun _ => h.pure _
      · split
        · exact h.bind (h.raise _) fun _ => h.bind (h.gitlab _ rfl) fun _ => h.pure _
        · exact h.bind (h.gitlab _ rfl) fun _ => h.pure _

theorem validateReviewedGate (site : ReadSite) (run : RunRecord) (m : CompletionPayload) :
    K (validateReviewedGate site run m) := by
  refine h.bind (h.validateGate _ _ _) fun author => ?_
  split
  · exact h.raise _
  · exact h.pure _

theorem gateCheck (run : RunRecord) (m : CompletionPayload) : K (gateCheck run m) := by
  unfold HollysysController.gateCheck
  split
  · exact h.validateReviewedGate _ _ _
  · exact h.pure _

theorem finalizationCheck (run : RunRecord) (m : CompletionPayload) :
    K (finalizationCheck run m) := by
  unfold HollysysController.finalizationCheck
  split
  · exact h.bind (h.artifact _ _) fun _ => h.pure _
  · exact h.pure _

theorem pairedTest (run : RunRecord) (items : List HistoryItem) (m : CompletionPayload) :
    K (pairedTest run items m) := by
  unfold HollysysController.pairedTest
  split
  · split
    · exact h.pure _
    · split
      · exact h.pure _
      · refine h.bind (h.caught (h.validateReviewedGate _ _ _)) fun r => ?_
        cases r <;> exact h.pure _
  · exact h.pure _

theorem mergedCompliance (run : RunRecord) (items : List HistoryItem) (iid : Nat) (head : String)
    (managed : Bool) : K (mergedCompliance run items iid head managed) := by
  unfold HollysysController.mergedCompliance
  split
  · exact h.pure _
  · split
    · split
      · exact h.pure _
      · refine h.bind (h.caught (h.bind (h.validateGate _ _ _) fun _ =>
          h.bind (h.validateGate _ _ _) fun _ => h.pure _)) fun authors => ?_
        cases authors with
        | error text => exact h.pure _
        | ok authors =>
          dsimp only
          split <;> exact h.pure _
    · exact h.pure _

end Reading

/-- A merged run is verified or unverified. -/
theorem mergedCompliance_answers (run : RunRecord) (items : List HistoryItem) (iid : Nat)
    (head : String) (managed : Bool) :
    (mergedCompliance run items iid head managed).Answers
      (fun verdict => isCompliance verdict.1 = true) := by
  unfold mergedCompliance
  split
  · exact rfl
  · split
    · split
      · exact rfl
      · refine Prog.Answers.bind fun authors => ?_
        cases authors with
        | error text => exact rfl
        | ok authors =>
          dsimp only
          split <;> exact rfl
    · exact rfl

/-! ## Reads leave the world alone -/

theorem StoreOp.exec_read {o : StoreOp} (ho : o.isRead = true) (now : Nat) (s : Store) :
    (o.exec now s).2 = s := by
  cases o <;> first | rfl | cases ho

theorem exec_read (w : World) :
    (∀ o : StoreOp, o.isRead = true → (machine.exec (.store o) w).2 = w) ∧
    (∀ o : HermesOp, o.isRead = true → (machine.exec (.hermes o) w).2 = w) ∧
    (∀ o : GitLabOp, o.isRead = true → (machine.exec (.gitlab o) w).2 = w) := by
  refine ⟨fun o ho => ?_, fun o ho => ?_, fun o ho => ?_⟩
  · rw [exec_store, StoreOp.exec_read ho]
  · cases o <;> first | rfl | cases ho
  · cases o <;> first | rfl | cases ho

/-- An undisturbed function that only reads keeps every property of the world. -/
theorem reading_keeps (I : World → Prop) :
    Reading (fun {α} (p : Service α) => ∀ w, I w → I (machine.eval p w).2) where
  toClosed := closed_eval machine I
  store o ho w hw := by rwa [show (machine.eval (store o) w).2 = w from
    (Machine.eval_op_state _ _ _).trans ((exec_read w).1 o ho)]
  hermes o ho w hw := by rwa [show (machine.eval (hermes o) w).2 = w from
    (Machine.eval_op_state _ _ _).trans ((exec_read w).2.1 o ho)]
  gitlab o ho w hw := by rwa [show (machine.eval (gitlab o) w).2 = w from
    (Machine.eval_op_state _ _ _).trans ((exec_read w).2.2 o (GitLabOp.isRead_of_look ho))]
  artifact run m w hw := by
    rwa [show (machine.eval (gitlab (.check (.artifactCompletion run m))) w).2 = w from
      (Machine.eval_op_state _ _ _).trans ((exec_read w).2.2 _ rfl)]
  host o w hw := by rwa [show (machine.eval (host o) w).2 = w from
    (Machine.eval_op_state _ _ _).trans (exec_host w o)]

namespace Plain

variable {K : ∀ {α : Type}, Service α → Prop} (h : Plain K)
include h

theorem operation (c : OperationCall) (run : Option String) {action : Service OperationResult}
    (ha : K action) : K (operation c run action) :=
  operation_closed h.toClosed (fun o ho => h.store o (by cases o <;> first | rfl | cases ho)) ha

theorem release (board : String) (id : CardId) : K (release board id) := by
  refine h.bind (h.hermes _ rfl) fun task => ?_
  cases task with
  | none => exact h.raise _
  | some task =>
    dsimp only
    split
    · exact h.pure _
    · refine h.bind (h.attempt (h.hermes _ rfl)) fun r => ?_
      cases r with
      | error e =>
        dsimp only
        split
        · refine h.bind (h.hermes _ rfl) fun released => ?_
          cases released with
          | none => exact h.raise _
          | some released =>
            dsimp only
            split
            · exact h.pure _
            · exact h.raise _
        · exact h.raise _
      | ok u =>
        refine h.bind (h.hermes _ rfl) fun released => ?_
        cases released with
        | none => exact h.raise _
        | some released =>
          dsimp only
          split
          · exact h.pure _
          · exact h.raise _

/-! ## Notices and errors -/

theorem enqueueProgress (cfg : Config) (run : RunRecord) (key : String) (allow : Bool) :
    K (enqueueProgress cfg run key allow) := by
  unfold HollysysController.enqueueProgress
  split
  · exact h.pure _
  · exact h.store _ rfl

theorem enqueueControllerFailure (cfg : Config) (runKey : String) (e : ControllerError) :
    K (enqueueControllerFailure cfg runKey e) := by
  refine h.bind (h.reading.noticeRun runKey) fun run => ?_
  cases run with
  | none => exact h.pure _
  | some run => exact h.store _ rfl

theorem recordRunException (cfg : Config) (runKey : String) (e : ControllerError) :
    K (recordRunException cfg runKey e) := by
  refine h.bind (h.store _ rfl) fun control => ?_
  cases control with
  | none => exact h.pure _
  | some control =>
    dsimp only
    split
    · exact h.bind (h.store _ rfl) fun _ => h.enqueueControllerFailure _ _ _
    · exact h.pure _

/-! ## Polled events -/

theorem enqueueLifecycleNotice (cfg : Config) (managed : ManagedCard) (verdict : String) :
    K (enqueueLifecycleNotice cfg managed verdict) := by
  refine h.bind (h.attempt ?_) fun r => ?_
  · exact h.bind (h.reading.history _) fun _ => h.bind (h.hermes _ rfl) fun _ => h.pure _
  · cases r with
    | error e =>
      dsimp only
      split
      · exact h.recordRunException _ _ _
      · exact h.raise _
    | ok read =>
      obtain ⟨run, task⟩ := read
      cases task with
      | none => exact h.pure _
      | some task =>
        exact h.bind (h.store _ rfl) fun _ => h.bind (h.reading.runControl _) fun _ =>
          h.enqueueProgress _ _ _ _

/-- The quarantine of an attempt, given its two operations that are not plain. -/
theorem recordProviderTempfailExit (cfg : Config) (managed : ManagedCard) (event : EventRecord)
    (pid : Nat)
    (hreclaim : ∀ runId, K (HollysysController.hermes
      (.reclaim managed.board managed.cardId runId pid false)))
    (hrecord : ∀ runId, event.runId = some runId → K (HollysysController.store
      (.recordCardRuntimeEvent (tempfailEvent cfg managed event.createdAt runId pid)))) :
    K (recordProviderTempfailExit cfg managed event pid) := by
  have htask : K (HollysysController.hermes (.task managed.board managed.cardId)) :=
    h.hermes _ rfl
  unfold HollysysController.recordProviderTempfailExit
  cases hr : event.runId with
  | none => exact h.pure _
  | some runId =>
    have hattempt : K (reclaimAttempt managed.board managed.cardId runId pid) := by
      refine h.bind htask fun task => ?_
      cases task with
      | none => exact h.raise _
      | some task =>
        dsimp only
        split
        · split
          · exact h.raise _
          · exact h.bind (hreclaim runId) fun _ => htask
        · exact htask
    have hquarantine : K (quarantineProviderTempfail managed.board managed.cardId runId pid) := by
      refine h.bind hattempt fun refreshed => ?_
      cases refreshed with
      | none => exact h.raise _
      | some refreshed =>
        dsimp only
        split
        · exact h.raise _
        · exact h.pure _
    refine h.bind (h.store _ rfl) fun _ => h.bind htask fun task => ?_
    cases task with
    | none => exact h.pure _
    | some task =>
      dsimp only
      split
      · exact h.pure _
      · refine h.bind (h.store _ rfl) fun run => ?_
        cases run with
        | none => exact h.raise _
        | some run =>
          refine h.bind (h.operation _ _ ?_) fun _ => h.pure _
          exact h.bind hquarantine fun _ => h.bind (hrecord runId hr) fun _ =>
            h.bind (h.store _ rfl) fun _ => h.pure _

end Plain

end HollysysController
