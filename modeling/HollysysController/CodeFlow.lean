import HollysysController.Acceptance

/-! # The end of a run

The terminal states of the CODE phase, with the delivery MR marked ready at
the head the gates checked, and the end of a run whose MR was merged or whose
abort was confirmed. -/

namespace HollysysController

open Durable

/-! ## Delivery ready -/

def deliveryReadyCall (run : RunRecord) (b : DeliveryBinding) (head : String) (version : Nat) :
    OperationCall where
  key := s!"{run.runKey}:delivery-ready:{head}"
  kind := "delivery-ready"
  payload := .deliveryReady run.runKey b.mrIid head
  expectedStateVersion := some version
  expectedHeadSha := some head

/-- `mark_and_verify`: mark the MR ready between two looks at its head. -/
def markAndVerify (run : RunRecord) (b : DeliveryBinding) (head : String) :
    Service OperationResult := do
  let before ← deliveryMr .readyBefore run (some b.mrIid)
  if before.head ≠ head then
    raise (.checkedHeadConflict "MR head changed before delivery-ready transition")
  else
    let _ ← deliveryMr .readyMark run (some b.mrIid)
    gitlab (.markReady run)
    let after ← deliveryMr .readyAfter run (some b.mrIid)
    if after.head ≠ head then
      raise (.checkedHeadConflict "MR head changed during delivery-ready transition")
    else if after.draft then
      raise (.dependency .contract "GitLab did not confirm delivery MR is ready"
        { dependency := "gitlab", errorCode := some "delivery_ready_not_confirmed" })
    else pure (.deliveryReady after.head)

/-- `_mark_delivery_ready_at_head`. -/
def markDeliveryReadyAtHead (run : RunRecord) (b : DeliveryBinding) (head : String) :
    Service Unit := do
  let control ← runControl run.runKey
  let _ ← operation (deliveryReadyCall run b head control.stateVersion) (some run.runKey)
    (markAndVerify run b head)
  pure ()

/-- Mark the bound MR ready and look once more before the terminal commit. -/
def confirmReady (run : RunRecord) (iid : Nat) (head : String) : Service Unit := do
  match ← store (.deliveryBinding run.runKey) with
  | none => raise (.valueError "CODE terminal MR does not match delivery binding")
  | some b =>
    if b.mrIid ≠ iid then
      raise (.valueError "CODE terminal MR does not match delivery binding")
    else
      markDeliveryReadyAtHead run b head
      let mr ← deliveryMr .terminalVerify run (some iid)
      if mr.head ≠ head ∨ mr.draft then
        raise (.checkedHeadConflict
          "delivery-ready verification changed before terminal commit")
      else pure ()

/-! ## Terminal states -/

/-- The test and the review a terminal state is about. -/
def terminalGates (state : RunState) (m : CompletionPayload) (paired : Option CompletionMetadata) :
    Except String (CompletionPayload × Option CompletionPayload) :=
  if state = .completedTestFailed then
    if m.stage ≠ .test ∨ m.outcome ≠ .fail then
      .error "test-failed terminal requires a failed test"
    else .ok (m, none)
  else match paired with
    | some test =>
      if m.stage ≠ .codeReview ∨ test.outcome ≠ .pass then
        .error "ready terminal requires a passed paired test"
      else .ok (test.toCompletionPayload, some m)
    | none => .error "ready terminal requires a passed paired test"

/-- The MR and the head the terminal state is bound to. -/
def terminalDelivery (m test : CompletionPayload) : Except String (Nat × String) :=
  let head := ((m.headSha.filter (· != "")) <|> test.headSha).getD ""
  match m.mrIid <|> test.mrIid with
  | none => .error "CODE terminal requires MR/head evidence"
  | some iid =>
    if head = "" then .error "CODE terminal requires MR/head evidence" else .ok (iid, head)

def terminalReason (cfg : Config) (state : RunState) (head : String) (test : CompletionPayload)
    (review : Option CompletionPayload) (modifications : Nat) (ready : Bool) : String :=
  let reviewed := (review.map (·.outcome.value)).getD "not_run"
  let marked := if ready then "True" else "False"
  s!"code_flow_terminal:{state.value};head={head};tester={test.outcome.value};" ++
    s!"code-reviewer={reviewed};modifications={modifications}/{cfg.codeModificationLimit};" ++
    s!"mr_ready={marked}"

/-- The states that leave the MR ready for a human. -/
def readyRequired : RunState → Bool
  | .completedReady | .completedWithFindings => true
  | _ => false

/-- `_finalize_code_flow`. -/
def finalizeCodeFlow (cfg : Config) (run : RunRecord) (items : List HistoryItem)
    (latest : HistoryItem) (m : CompletionPayload) (state : RunState)
    (paired : Option CompletionMetadata) (modifications : Nat) : Service Unit := do
  let (test, review) ← fromText (terminalGates state m paired)
  let (iid, head) ← fromText (terminalDelivery m test)
  let mr ← deliveryMr .terminal run (some iid)
  if mr.head ≠ head then restartAtTest cfg run latest.task.id
  else
    match ← frozenViolation cfg run items head with
    | some violation =>
      let _ ← exception cfg run latest.task.id
        s!"terminal frozen baseline violation: {violation}"
    | none =>
      if readyRequired state then confirmReady run iid head
      let _ ← store (.markFlowCompleted run.runKey state head
        (terminalReason cfg state head test review modifications (readyRequired state)))
      let testHead := test.headSha.getD "None"
      enqueueProgress cfg run s!"code:terminal:{state.value}:{testHead}" true

/-! ## Merged and aborted runs -/

def invalidMergedIdentity : ControllerError :=
  .dependency .contract "merged MR response lacks a valid iid/checked head"
    { dependency := "gitlab", errorCode := some "invalid_merged_mr_identity" }

/-- `_merged_mr_identity`: the checked head and the merge commit. -/
def mergedMrIdentity (mr : MergeRequest) : Except ControllerError (String × Option String) :=
  let merge := mr.mergeCommitSha.filter (· != "")
  if mr.iid = 0 ∨ !isSha mr.head ∨ merge.any (!isSha ·) then .error invalidMergedIdentity
  else .ok (mr.head, merge)

/-- `_latest_valid_pass`. -/
def latestValidPass (items : List HistoryItem) (s : Stage) : Option CompletionMetadata :=
  latestValidCompletion items s [.pass]

/-- The Controller submitted the merge of this head itself. -/
def managedMerge (row : Option OperationRow) (head : String) : Bool :=
  row.any fun r => r.status == .done && r.expectedHeadSha == some head &&
    r.result == some (.merged true)

/-- The compliance of a merged run and the reason recorded with it. -/
def mergedCompliance (run : RunRecord) (items : List HistoryItem) (iid : Nat) (head : String)
    (managed : Bool) : Service (String × String) := do
  if !managed then pure ("unverified", "merged_without_controller_checked_head_operation")
  else match latestValidPass items .test, latestValidPass items .codeReview with
    | some test, some review =>
      if test.headSha ≠ some head ∨ review.headSha ≠ some head ∨ test.mrIid ≠ some iid ∨
          review.mrIid ≠ some iid then
        pure ("unverified", "merged_without_current_controller_gate_evidence")
      else
        let authors ← caught do
          let testAuthor ← validateGate .mergedGate run test.toCompletionPayload
          let reviewAuthor ← validateGate .mergedGate run review.toCompletionPayload
          pure (testAuthor, reviewAuthor)
        match authors with
        | .error text => pure ("unverified", s!"gate_evidence_invalid:{text}")
        | .ok (testAuthor, reviewAuthor) =>
          if testAuthor = reviewAuthor then
            pure ("unverified", "test_and_code_review_author_must_differ")
          else pure ("verified", "checked_head_gates_verified")
    | _, _ => pure ("unverified", "merged_without_current_controller_gate_evidence")

/-- `_finalize_merged`. -/
def finalizeMerged (run : RunRecord) (items : List HistoryItem) (mr : MergeRequest) :
    Service Unit := do
  let (head, merge) ← fromExcept (mergedMrIdentity mr)
  let row ← store (.operationRecord s!"{run.runKey}:merge:{head}")
  let managed := managedMerge row head
  let (compliance, reason) ← mergedCompliance run items mr.iid head managed
  let control ← runControl run.runKey
  let tail := merge.getD (toString mr.iid)
  if control.state = .abortRequested ∨ control.state = .aborting then
    store (.finishAbort run.runKey true (some head) merge)
    store (.enqueue
      { key := s!"{run.runKey}:completed-before-abort:{tail}", runKey := run.runKey,
        event := "completed-before-abort" })
  else if control.state.isTerminal then pure ()
  else
    let _ ← store (.markCompleted run.runKey (!managed) compliance head merge reason)
    if compliance = "verified" then
      store (.enqueue
        { key := s!"{run.runKey}:merged:{tail}", runKey := run.runKey, event := "merged" })
    else
      store (.enqueue
        { key := s!"{run.runKey}:merged-policy-violation:{tail}", runKey := run.runKey,
          event := "merged-policy-violation" })

/-- Stop the cards of an aborted run one after the other. The answer is the card
whose worker is still there. -/
def stopCards (cfg : Config) (board : String) : List HistoryItem → Service (Option CardId)
  | [] => pure none
  | i :: is => do
    if i.task.status.isActive then
      if ← abortManagedTask cfg board i.task.id then stopCards cfg board is
      else pure (some i.task.id)
    else stopCards cfg board is

/-- `_continue_abort_once`. -/
def continueAbort (cfg : Config) (runKey : String) : Service Unit := do
  match ← store (.runControl runKey) with
  | none => pure ()
  | some control =>
    if control.state ≠ .abortRequested ∧ control.state ≠ .aborting then pure ()
    else
      let (items, run) ← history runKey
      store (.markAborting runKey)
      match ← stopCards cfg run.workspace.board items with
      | some id =>
        enqueueProgress cfg run s!"abort:worker-termination-pending:{id.text}" false
      | none =>
        let binding ← store (.deliveryBinding runKey)
        let mr ← gitlab (.abortDelivery run (binding.map (·.mrIid)))
        let merged := mr.filter (·.state == "merged")
        let identity ← fromExcept (merged.mapM mergedMrIdentity)
        store (.finishAbort runKey merged.isSome (identity.map (·.1)) (identity.bind (·.2)))
        let terminal := if merged.isSome then RunState.completedBeforeAbort else .aborted
        store (.enqueue
          { key := s!"{runKey}:aborted:{terminal.value}", runKey, event := "aborted" })

end HollysysController
