import HollysysController.Dispatch

/-! # Accepting a completion

One reconcile of a run whose newest work card is done: the completion is
checked, accepted or sent back, and the next card follows from the route. -/

namespace HollysysController

open Durable

/-! ## Rejecting -/

/-- `int((runtime or {}).get("attempt") or 1)`. -/
def attemptNumber (runtime : Option CardRuntime) : Nat :=
  max 1 ((runtime.map (·.attempt)).getD 1)

/-- A verbose notice about a completed agent. -/
def enqueueAgentNotice (cfg : Config) (run : RunRecord) (i : HistoryItem) (verdict : String) :
    Service Unit :=
  if !cfg.verboseNotices then pure ()
  else do
    let runtime ← store (.cardRuntime i.managed.board i.managed.cardId)
    let control ← runControl run.runKey
    enqueueProgress cfg run
      s!"agent:{i.task.id.text}:{attemptNumber runtime}:{verdict}:{control.stateVersion}" false

/-- `_reject_agent_completion`. -/
def rejectAgentCompletion (cfg : Config) (run : RunRecord) (i : HistoryItem) (reason : String)
    (mrIid : Option Nat) (headSha : Option String) : Service Unit := do
  store (.recordAttemptCompletion
    { board := i.managed.board, cardId := i.managed.cardId, accepted := false, mrIid, headSha,
      reason := some reason })
  enqueueAgentNotice cfg run i "completed-rejected"

def protocolComment (reason : String) : Comment where
  author := "hollysys-controller"
  body := s!"{protocolErrorMarker}\nreason: {clip 1200 reason}"

/-- The stage of a managed work card. -/
def HistoryItem.workStage (i : HistoryItem) : Except String Stage :=
  match i.managed.stage with
  | .work s => .ok s
  | _ => .error "not a valid Stage"

/-- `_protocol_failure`: mark the card, and retry it while the budget lasts. -/
def protocolFailure (cfg : Config) (run : RunRecord) (items : List HistoryItem)
    (latest : HistoryItem) (reason : String) : Service Unit := do
  let _ ← assertReconcileMutable run.runKey
  rejectAgentCompletion cfg run latest reason none none
  let marked := latest.hasComment protocolErrorMarker
  if !marked then
    hermes (.comment run.workspace.board latest.task.id (protocolComment reason))
  let stage ← fromText latest.workStage
  let invalid := protocolFailures items latest.managed.stage + if marked then 0 else 1
  if protocolRetryAllowed cfg invalid then
    let record ← fromText (parseCardBody latest.task.body)
    let _ ← createWork cfg run
      { stage, parent := latest.task.id, mode := record.mode,
        repairContext := record.repairContext }
  else
    let _ ← exception cfg run latest.task.id
      s!"metadata/gate protocol retry budget exhausted: {reason}"

/-- Reject the completion of a gate that a push has overtaken, and test again. -/
def restartAtTest (cfg : Config) (run : RunRecord) (parent : CardId) : Service Unit := do
  let _ ← createWork cfg run { stage := .test, parent }

/-! ## Repairs -/

/-- `_enqueue_review_failed`. -/
def enqueueReviewFailed (cfg : Config) (run : RunRecord) (m : CompletionPayload)
    (reviewAttempt : Nat) : Service Unit :=
  enqueueProgress cfg run
    s!"{(phaseForStage m.stage).value}:review-failed:{reviewAttempt}:{m.kanbanCardId.text}" false

/-- A repair context that meets its contract. -/
def checkedRepair (c : RepairContext) : Service RepairContext := do
  fromText c.validateRepairContract
  pure c

def reviewRepair (cfg : Config) (parent : CardId) (reviewAttempt : Nat) (issues : List String) :
    RepairContext where
  kind := .reviewFailure
  triggerCardId := parent
  issues
  reviewAttempt := some reviewAttempt
  reviewLimit := some cfg.documentReviewLimit

/-- `_create_review_repair`. -/
def createReviewRepair (cfg : Config) (run : RunRecord) (items : List HistoryItem)
    (m : CompletionPayload) (parent : CardId) (issues : List String) : Service Unit := do
  let attempt := reviewAttempts items m.stage
  let context ← checkedRepair (reviewRepair cfg parent attempt issues)
  enqueueReviewFailed cfg run m attempt
  let _ ← createWork cfg run
    { stage := producerForPhase (phaseForStage m.stage), parent
      mode := if cfg.documentReviewLimit ≤ attempt then .finalization else .normal
      repairContext := some context }

/-- The context of a frozen repair. A finalization goes on with the review
failure its card was about. -/
def frozenRepairContext (items : List HistoryItem) (parent : CardId) (violation : String)
    (mode : WorkMode) : Except String RepairContext :=
  let fresh : RepairContext :=
    { kind := .frozenArtifactViolation, triggerCardId := parent,
      issues := [adaptIssue ++ violation] }
  if mode ≠ .finalization then .ok fresh
  else match items.getLast? with
    | none => .error "list index out of range"
    | some last =>
      match parseCardBody last.task.body with
      | .error t => .error t
      | .ok record =>
        match record.repairContext with
        | some c =>
          if c.kind = .reviewFailure then
            .ok { c with issues := c.issues ++ [restoreIssue ++ violation] }
          else .ok fresh
        | none => .ok fresh

/-- `_create_frozen_repair`. -/
def createFrozenRepair (cfg : Config) (run : RunRecord) (items : List HistoryItem) (phase : Phase)
    (parent : CardId) (violation : String) (mode : WorkMode) : Service Unit := do
  let context ← fromText (frozenRepairContext items parent violation mode)
  enqueueProgress cfg run
    s!"{phase.value}:frozen-repair:{clip 12 (cfg.sha256 violation)}" false
  let _ ← createWork cfg run
    { stage := producerForPhase phase, parent, mode, repairContext := some context }

/-! ## GitLab's part of the checks -/

/-- The checks of an authoring pass. -/
def authoringCheck (run : RunRecord) (m : CompletionPayload) : Service Unit :=
  if m.repositoryEvidence.isSome then validateAuthoring run m else pure ()

/-- The gate of a review or test that passed or failed. -/
def gateCheck (run : RunRecord) (m : CompletionPayload) : Service Unit :=
  if (m.stage.isDocumentReview || m.stage.isCodeGate) && m.verdict then
    validateReviewedGate .gate run m
  else pure ()

/-- The artifact of a finalization. -/
def finalizationCheck (run : RunRecord) (m : CompletionPayload) : Service Unit :=
  if m.mode = .finalization then do
    let _ ← gitlab (.check (.artifactCompletion run m))
    pure ()
  else pure ()

/-- The text of a gate error says that the MR head has moved on. -/
def headMoved (text : String) : Bool :=
  hasText "current MR head" text || hasText "not bound" text

/-- A push restarts a code gate at TEST; other gate errors are protocol failures. -/
def gateFailure (cfg : Config) (run : RunRecord) (items : List HistoryItem)
    (latest : HistoryItem) (m : CompletionPayload) (text : String) : Service Unit :=
  if m.stage.isCodeGate && headMoved text then do
    rejectAgentCompletion cfg run latest text m.mrIid m.headSha
    restartAtTest cfg run latest.task.id
  else protocolFailure cfg run items latest text

/-- The artifacts frozen by this completion are the same at the MR head. -/
def artifactGate (run : RunRecord) (m : CompletionPayload) (head : String) : Service Unit :=
  if (m.stage.isDocumentReview && m.outcome == .pass) || m.mode == .finalization then do
    let _ ← gitlab (.check (.artifactGateAtRef run m head))
    pure ()
  else pure ()

/-- The checks at the live MR head. A failed one rejects the completion and
dispatches a repair; the answer is whether the completion may be accepted. -/
def liveCheck (cfg : Config) (run : RunRecord) (items : List HistoryItem) (latest : HistoryItem)
    (m : CompletionPayload) : Service Bool := do
  let mr ← deliveryMr .live run m.mrIid
  if mr.head = "" then pure true
  else
    match ← frozenViolation cfg run items mr.head with
    | some violation =>
      rejectAgentCompletion cfg run latest violation m.mrIid (some mr.head)
      createFrozenRepair cfg run items (phaseForStage m.stage) latest.task.id violation m.mode
      pure false
    | none =>
      match ← caught (artifactGate run m mr.head) with
      | .ok _ => pure true
      | .error text =>
        rejectAgentCompletion cfg run latest text m.mrIid (some mr.head)
        if m.stage.isDocumentReview then
          createReviewRepair cfg run items m latest.task.id [text]
        else
          createFrozenRepair cfg run items (phaseForStage m.stage) latest.task.id text
            .finalization
        pure false

/-! ## The code budget -/

/-- A done implement card whose completion the ledger says was accepted. -/
def countsAsImplementation (i : HistoryItem) : Service Bool :=
  if i.isWork && i.atStage .implement && i.task.status == .done then do
    let runtime ← store (.cardRuntime i.managed.board i.managed.cardId)
    if runtime.any (·.attemptStatus == "completed_accepted") then
      let read ← caught do
        let m ← fromText (validatePersistedCompletionMetadata i.task.latestMetadata)
        let card ← fromText (parseCardBody i.task.body)
        validateCompletionIdentity card.run i m.toCompletionPayload
        pure m
      match read with
      | .ok m => pure (m.outcome == .pass)
      | .error _ => pure false
    else pure false
  else pure false

def implementationVersions : List HistoryItem → Service Nat
  | [] => pure 0
  | i :: is => do
    let counts ← countsAsImplementation i
    let n ← implementationVersions is
    pure (n + if counts then 1 else 0)

/-- `_code_modification_count`: the first implementation is no modification. -/
def codeModificationCount (items : List HistoryItem) : Service Nat := do
  let n ← implementationVersions items
  pure (n - 1)

/-! ## Pairing the two code gates -/

inductive Pairing where
  | notNeeded
  | missing
  | found (test : CompletionMetadata)

/-- The passed or failed test of the same MR and head, its gate checked again. -/
def pairedTest (run : RunRecord) (items : List HistoryItem) (m : CompletionPayload) :
    Service Pairing :=
  if m.stage = .codeReview ∧ m.verdict then
    match latestValidCompletion items .test [.pass, .fail] with
    | none => pure .missing
    | some test =>
      if !sameDelivery test.toCompletionPayload m then pure .missing
      else do
        match ← caught (validateReviewedGate .pairedGate run test.toCompletionPayload) with
        | .ok _ => pure (.found test)
        | .error _ => pure .missing
  else pure .notNeeded

def Pairing.test : Pairing → Option CompletionMetadata
  | found t => some t
  | _ => none

end HollysysController
