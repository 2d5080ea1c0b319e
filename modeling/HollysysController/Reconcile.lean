import HollysysController.HumanBlock

/-! # Reconcile

One pass over a run: its state, its history, its MR, its active cards, and last
the completion of its newest work card. -/

namespace HollysysController

open Durable

/-! ## Promotions -/

/-- The audited comment of a human resolution. -/
def isResolution (c : Comment) : Bool :=
  hasText "[human-resolution:v1]" c.body && hasText "resolved_by:" c.body &&
    hasText "new_card_id:" c.body

def promotions (task : TaskRecord) : Nat := task.eventKinds.count "promoted_manual"

/-- The release operation of the card is in flight or done, and is about it. -/
def releaseRecorded (row : Option OperationRow) (board : String) (id : CardId) : Bool :=
  row.any fun r =>
    r.kind == "release" && (r.status == .executing || r.status == .uncertain || r.status == .done) &&
      r.payload == .release board id

def releaseKey (i : HistoryItem) : String := s!"{i.managed.idempotencyKey}:release"

/-- `_promotion_is_authorized`. -/
def promotionIsAuthorized (i : HistoryItem) : Service Bool :=
  if i.task.comments.any isResolution then pure true
  else if promotions i.task ≠ 1 then pure false
  else do
    let row ← store (.operationRecord (releaseKey i))
    pure (releaseRecorded row i.managed.board i.task.id)

/-- The first card that was promoted without authority. -/
def unauthorizedPromotion : List HistoryItem → Service (Option HistoryItem)
  | [] => pure none
  | i :: is => do
    if promotions i.task = 0 then unauthorizedPromotion is
    else if ← promotionIsAuthorized i then unauthorizedPromotion is
    else pure (some i)

/-! ## Following the route -/

/-- `_code_gate_issues`. -/
def codeGateIssues (test review : CompletionPayload) : List String :=
  let issues := test.issues.map ("[tester] " ++ ·) ++ review.issues.map ("[code-reviewer] " ++ ·)
  if issues = [] then ["CODE 双门禁未同时通过，需人工核对门禁证据。"] else issues

/-- `_test_gate_issues`. -/
def testGateIssues (test : CompletionPayload) : List String :=
  let issues := test.issues.map ("[tester] " ++ ·)
  if issues = [] then ["[tester] 测试未通过，需根据测试证据修改实现。"] else issues

/-- The context of a repair after a failed code gate. -/
def codeGateRepair (cfg : Config) (parent : CardId) (related : List CardId)
    (head : Option String) (modification : Nat) (issues : List String) : RepairContext where
  kind := .codeGateFailure
  triggerCardId := parent
  relatedCardIds := related
  headSha := head
  codeModification := some modification
  codeModificationLimit := some cfg.codeModificationLimit
  issues

/-- `_enqueue_code_retry`. -/
def enqueueCodeRetry (cfg : Config) (run : RunRecord) (head : Option String)
    (modification : Nat) : Service Unit :=
  let head := head.getD "None"
  enqueueProgress cfg run s!"code:gates-failed:{head}:modification:{modification}" false

/-- The repair context a routed completion gives its next card. -/
def routedRepair (cfg : Config) (run : RunRecord) (m : CompletionPayload) (parent : CardId)
    (reviewAttempt : Nat) (paired : Option CompletionMetadata) (modifications : Nat) :
    Service (Option RepairContext) :=
  if m.stage.isDocumentReview ∧ m.outcome = .fail then do
    let context ← checkedRepair (reviewRepair cfg parent reviewAttempt m.issues)
    enqueueReviewFailed cfg run m reviewAttempt
    pure (some context)
  else if m.stage = .test ∧ m.outcome = .fail then do
    let context ← checkedRepair (codeGateRepair cfg parent [m.kanbanCardId] m.headSha
      (modifications + 1) (testGateIssues m))
    enqueueCodeRetry cfg run m.headSha (modifications + 1)
    pure (some context)
  else match paired with
    | none => pure none
    | some test =>
      if m.stage = .codeReview ∧ (test.outcome = .fail ∨ m.outcome = .fail) then do
        let context ← checkedRepair (codeGateRepair cfg parent [test.kanbanCardId, m.kanbanCardId]
          m.headSha (modifications + 1) (codeGateIssues test.toCompletionPayload m))
        enqueueCodeRetry cfg run m.headSha (modifications + 1)
        pure (some context)
      else pure none

def BaselineDisposition.value : BaselineDisposition → String
  | .source => "source"
  | .reviewed => "reviewed"
  | .forcedAfterReviewLimit => "forced_after_review_limit"

/-- `_enqueue_phase_frozen`. -/
def enqueuePhaseFrozen (cfg : Config) (run : RunRecord) (m : CompletionPayload) : Service Unit :=
  let disposition := (m.baselineDisposition.map (·.value)).getD "None"
  let digest := m.artifactDigest.getD "None"
  enqueueProgress cfg run s!"{(phaseForStage m.stage).value}:frozen:{disposition}:{digest}" false

/-- The notices of a completion that goes on to the next stage. -/
def routedNotices (cfg : Config) (run : RunRecord) (m : CompletionPayload) : Service Unit := do
  if m.stage.isDocumentReview ∧ m.outcome = .pass then enqueuePhaseFrozen cfg run m
  if m.mode = .finalization then enqueuePhaseFrozen cfg run m

/-- The next card of the route. -/
def dispatchNext (cfg : Config) (run : RunRecord) (items : List HistoryItem)
    (latest : HistoryItem) (m : CompletionPayload) (paired : Option CompletionMetadata)
    (modifications : Nat) (stage : Stage) (mode : WorkMode) : Service Unit := do
  if m.stage = .test ∧ m.testDisposition = some .skippedUnavailable then
    let head := m.headSha.getD "None"
    enqueueProgress cfg run s!"code:test-skipped:{head}:{m.kanbanCardId.text}" false
  let repairContext ← routedRepair cfg run m latest.task.id (reviewAttempts items m.stage) paired
    modifications
  routedNotices cfg run m
  let _ ← createWork cfg run { stage, parent := latest.task.id, mode, repairContext }
  if phaseForStage stage ≠ phaseForStage m.stage then
    enqueueProgress cfg run s!"{(phaseForStage stage).value}:started" false

/-- The reason of a blocked route, with the findings of a code review. -/
def blockedReason (reason : String) (m : CompletionPayload)
    (paired : Option CompletionMetadata) : String :=
  match paired with
  | none => reason
  | some test =>
    let head := m.headSha.getD "None"
    let findings := String.intercalate " | " ((codeGateIssues test.toCompletionPayload m).take 6)
    reason ++ s!"; head={head}; tester={test.outcome.value}; code-reviewer={m.outcome.value}; " ++
      s!"findings={findings}; required_action=human must decide whether to continue with a new " ++
      "modification budget or stop delivery"

/-- What a route does. No completion is routed to a merge, `routeCompletion_ne_merge`. -/
def followRoute (cfg : Config) (run : RunRecord) (items : List HistoryItem)
    (latest : HistoryItem) (m : CompletionPayload) (paired : Option CompletionMetadata)
    (modifications : Nat) : Service Unit :=
  match routeCompletion cfg m (reviewAttempts items m.stage)
      (paired.map (·.toCompletionPayload)) modifications with
  | .terminal state => finalizeCodeFlow cfg run items latest m state paired modifications
  | .blocked reason => do
    let _ ← exception cfg run latest.task.id (blockedReason reason m paired)
  | .next stage mode => dispatchNext cfg run items latest m paired modifications stage mode
  | .merge => pure ()

/-- Record the acceptance, then pair, route and dispatch. -/
def acceptCompletion (cfg : Config) (run : RunRecord) (items : List HistoryItem)
    (latest : HistoryItem) (m : CompletionPayload) : Service Unit := do
  let _ ← assertReconcileMutable run.runKey
  store (.recordAttemptCompletion
    { board := latest.managed.board, cardId := latest.managed.cardId, accepted := true,
      mrIid := m.mrIid, headSha := m.headSha })
  enqueueAgentNotice cfg run latest s!"completed-accepted:{m.outcome.value}"
  let modifications ← codeModificationCount items
  match ← pairedTest run items m with
  | .missing => restartAtTest cfg run latest.task.id
  | pairing => followRoute cfg run items latest m pairing.test modifications

/-- The completion of the newest work card. -/
def reconcileCompletion (cfg : Config) (run : RunRecord) (items : List HistoryItem)
    (latest : HistoryItem) : Service Unit := do
  match ← caught (validateCompletion cfg run items latest) with
  | .error text => protocolFailure cfg run items latest text
  | .ok m =>
    match ← caught (authoringCheck run m.toCompletionPayload) with
    | .error text => protocolFailure cfg run items latest text
    | .ok _ =>
      match ← caught (gateCheck run m.toCompletionPayload) with
      | .error text => gateFailure cfg run items latest m.toCompletionPayload text
      | .ok _ =>
        match ← caught (finalizationCheck run m.toCompletionPayload) with
        | .error text => protocolFailure cfg run items latest text
        | .ok _ =>
          if ← liveCheck cfg run items latest m.toCompletionPayload then
            acceptCompletion cfg run items latest m.toCompletionPayload
          else pure ()

/-! ## One pass -/

/-- A blocked parent with its waiting retry is the one allowed pair of active cards. -/
def resolutionWindow : List HistoryItem → Bool
  | [a, b] =>
    a.task.status == .blocked && (b.task.status == .todo || b.task.status == .blocked) &&
      b.managed.parentCardId == some a.task.id
  | _ => false

/-- The active cards of the run when none of them was handled. -/
def reconcileActive (cfg : Config) (run : RunRecord) (items active : List HistoryItem) :
    Service Unit :=
  if active.length ≤ 1 ∨ resolutionWindow active then pure ()
  else match items.getLast? with
    | none => pure ()
    | some last => do
      let _ ← exception cfg run last.task.id "more than one managed card is active"

/-- The run has no active card: start it, or look at its newest work card. -/
def reconcileIdle (cfg : Config) (run : RunRecord) (items : List HistoryItem) : Service Unit :=
  match (items.filter (·.isWork)).getLast? with
  | none =>
    match items.find? (·.isRoot) with
    | none => raise (.runtimeError "StopIteration")
    | some root => do
      let _ ← createWork cfg run { stage := .specWrite, parent := root.task.id }
  | some latest =>
    if latest.task.status ≠ .done then pure ()
    else reconcileCompletion cfg run items latest

/-- The cards of the run once its promotions and its MR are in order. -/
def reconcileCards (cfg : Config) (run : RunRecord) (items : List HistoryItem) :
    Service Unit := do
  let active := items.filter (·.task.status.isActive)
  match active.find? fun i => i.isRoot && i.task.status == .blocked with
  | some root =>
    let _ ← assertReconcileMutable run.runKey
    completeRoot run.workspace.board root.task.id
    let _ ← createWork cfg run { stage := .specWrite, parent := root.task.id }
  | none =>
    if ← blockedCards cfg run active then pure ()
    else if active = [] then reconcileIdle cfg run items
    else reconcileActive cfg run items active

/-- `_reconcile_run` of a run that may be changed. -/
def reconcileMutable (cfg : Config) (runKey : String) : Service Unit := do
  let (items, run) ← history runKey
  match ← unauthorizedPromotion items with
  | some i =>
    let _ ← exception cfg run i.task.id
      "unknown promoted_manual event without matching human resolve"
  | none =>
    let mr ← boundDeliveryMr .start run
    match mr.filter (·.state == "merged") with
    | some merged => finalizeMerged run items merged
    | none =>
      let _ ← assertReconcileMutable runKey
      reconcileCards cfg run items

/-- `_reconcile_run`. -/
def reconcileRun (cfg : Config) (runKey : String) : Service Unit := do
  let control ← runControl runKey
  if control.state = .abortRequested ∨ control.state = .aborting then continueAbort cfg runKey
  else if control.state.isTerminal ∨ control.state = .exception ∨
      control.state = .humanBlocked then pure ()
  else if ← store (.retryBlocked "gitlab") then pure ()
  else reconcileMutable cfg runKey

/-! ## The policy around a pass -/

/-- What `_reconcile_run_with_policy` does with the error of a pass. -/
def settleReconcile (cfg : Config) (runKey : String) (e : ControllerError) : Service Unit :=
  match e with
  | .superseded _ => pure ()
  | .dependency .contract _ _ | .runPolicy _ | .valueError _ | .checkedHeadConflict _ =>
    recordRunException cfg runKey e
  | .dependency kind text c => handleDependencyError cfg runKey kind text c
  | .fatal _ => raise e
  | .runtimeError text | .permissionError text =>
    raise (.fatal s!"run_reconcile_failed:{runKey}:{text}")

/-- `_reconcile_run_with_policy`. -/
def reconcileWithPolicy (cfg : Config) (runKey : String) : Service Unit := do
  if ← store (.retryBlocked "gitlab") then pure ()
  else
    let pass : Service Unit := do
      reconcileRun cfg runKey
      recoverRunDependency cfg runKey "kanban"
      recoverRunDependency cfg runKey "gitlab"
    match ← pass.attempt with
    | .ok _ => pure ()
    | .error e => settleReconcile cfg runKey e

end HollysysController
