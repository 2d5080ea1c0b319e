import HollysysController.History

/-! # Validating a completion

What a worker's completion is checked against: the card it answers, the
delivery binding of the run, the Hermes attempt that wrote it, and GitLab. A
failed check raises a `ValueError`; only GitLab and the store raise others. -/

namespace HollysysController

open Durable

/-- `except (ValidationError, ValueError, TypeError)` around `p`: its answer, or
the text of the check that failed. -/
def caught {α : Type} (p : Service α) : Service (Except String α) := do
  match ← p.attempt with
  | .ok a => pure (.ok a)
  | .error e => if e.isValueError then pure (.error e.text) else raise e

/-! ## Identity -/

/-- The fields of a completion that repeat the card and the run, in the order in
which the error lists them. -/
def identityChecks (run : RunRecord) (i : HistoryItem) (card : CardRecord)
    (m : CompletionPayload) : List (Bool × String) :=
  [(m.branch != run.workspace.branch, "branch"),
   (m.checkout != run.workspace.checkout, "checkout"),
   (m.contextDigest != card.contextDigest, "context_digest"),
   (m.headBeforeSha != card.expectedHeadSha, "head_before_sha"),
   (m.iteration != i.managed.iteration, "iteration"),
   (m.kanbanCardId != i.task.id, "kanban_card_id"),
   (m.mode != card.mode, "mode"),
   (m.prdBlobSha != run.source.prdBlobSha, "prd_blob_sha"),
   (m.prdCommitSha != run.source.prdCommitSha, "prd_commit_sha"),
   (m.prdMrUrl != run.source.prdMrUrl, "prd_mr_url"),
   (m.prdPath != run.source.prdPath, "prd_path"),
   (m.projectId != run.project.projectId, "project_id"),
   (m.projectPath != run.project.projectPath, "project_path"),
   (m.runGeneration != run.runGeneration, "run_generation"),
   (m.runKey != run.runKey, "run_key"),
   (m.sourceKey != run.sourceKey, "source_key"),
   (!i.atStage m.stage, "stage"),
   (m.targetBranch != run.workspace.targetBranch, "target_branch"),
   (m.worktree != run.workspace.worktree, "worktree")]

def checkIdentity (run : RunRecord) (i : HistoryItem) (card : CardRecord)
    (m : CompletionPayload) : Except String Unit :=
  match failedChecks (identityChecks run i card m) with
  | [] => .ok ()
  | keys => .error ("completion context mismatch: " ++ String.intercalate ", " keys)

/-- The MR of the completion is the one bound to the run, or none at all. -/
def checkBinding (binding : Option DeliveryBinding) (m : CompletionPayload) :
    Except String Unit :=
  match binding with
  | some b =>
    if m.mrIid ≠ some b.mrIid ∨ m.mrUrl ≠ some b.mrUrl then
      .error "completion MR does not match persisted delivery binding"
    else .ok ()
  | none =>
    if m.mrIid.isSome ∨ m.mrUrl.isSome then .error "completion references an unbound delivery MR"
    else .ok ()

def checkDeterministic (persisted : List DeterministicCheck) (m : CompletionPayload) :
    Except String Unit :=
  if m.deterministicChecks.all persisted.contains then .ok ()
  else .error "deterministic check was not recomputed by Controller"

def checkEvidenceBase (run : RunRecord) (m : CompletionPayload) : Except String Unit :=
  if m.repositoryEvidence.any (·.repositoryBaseSha != run.workspace.repositoryBaseSha) then
    .error "repository evidence is not bound to the run base commit"
  else .ok ()

/-- The recomputed checks of a card, read only when the completion has some. -/
def persistedChecks (run : RunRecord) (i : HistoryItem) (m : CompletionPayload) :
    Service (List DeterministicCheck) :=
  if m.deterministicChecks = [] then pure []
  else store (.validationRuns run.runKey i.task.id)

/-- `_validate_completion_identity`. -/
def validateCompletionIdentity (run : RunRecord) (i : HistoryItem) (m : CompletionPayload) :
    Service Unit := do
  let card ← fromText (parseCardBody i.task.body)
  fromText (checkIdentity run i card m)
  let binding ← store (.deliveryBinding run.runKey)
  fromText (checkBinding binding m)
  let persisted ← persistedChecks run i m
  fromText (checkDeterministic persisted m)
  fromText (checkEvidenceBase run m)

/-! ## Context -/

/-- A letter, a digit, a dot, an underscore, a slash or a dash. -/
def isPathChar (c : Char) : Bool :=
  c.isAlphanum || c == '.' || c == '_' || c == '/' || c == '-'

def prdPrefix : List Char := "docs/prds/".toList

/-- The matches of `docs/prds/` and path characters after it, from left to right,
each without the punctuation at its end. At most `fuel` characters are looked at. -/
def prdMentions : Nat → List Char → List String
  | 0, _ => []
  | _, [] => []
  | fuel + 1, c :: text =>
    let tail := ((c :: text).drop prdPrefix.length).takeWhile isPathChar
    if prdPrefix.isPrefixOf (c :: text) && tail != [] then
      String.ofList ((prdPrefix ++ tail).reverse.dropWhile ".,;:)]\x7d".toList.contains).reverse ::
        prdMentions fuel ((c :: text).drop (prdPrefix.length + tail.length))
    else prdMentions fuel text

def mentionedPaths (issue : String) : List String :=
  prdMentions issue.length issue.toList

/-- The documents that a failed review names outside the scope of its run. -/
def outsideScope (run : RunRecord) (issues : List String) : List String :=
  ((issues.flatMap mentionedPaths).filter fun path =>
    path != run.source.prdPath && !(run.artifactRoot ++ "/").isPrefixOf path).dedup

def checkReviewScope (run : RunRecord) (m : CompletionPayload) : Except String Unit :=
  if m.stage.isDocumentReview ∧ m.outcome = .fail ∧ outsideScope run m.issues ≠ [] then
    .error ("review findings reference documents outside current PRD scope; report them as observations in a separate run: "
      ++ String.intercalate ", " ((outsideScope run m.issues).insertionSort (· ≤ ·)))
  else .ok ()

/-- `delivery_mr`. Without an iid there is no such endpoint. -/
def deliveryMr (site : ReadSite) (run : RunRecord) (iid : Option Nat) : Service MergeRequest :=
  match iid with
  | none => raise (.dependency .contract "GitLab API rejected merge_requests/None"
      { dependency := "gitlab", errorCode := some "404" })
  | some iid => do
    let mr ← gitlab (.mr site run iid)
    if mr.sourceBranch ≠ run.workspace.branch ∨ mr.targetBranch ≠ run.workspace.targetBranch then
      raise (.valueError "delivery MR does not belong to the run branch/target")
    else pure mr

/-- `validate_delivery_binding`. -/
def validateDeliveryBinding (site : ReadSite) (run : RunRecord) (b : DeliveryBinding) :
    Service MergeRequest := do
  let mr ← deliveryMr site run (some b.mrIid)
  if mr.creator ≠ b.creator ∨ mr.createdAt ≠ b.createdAt ∨ mr.createdAt < run.startedAt then
    raise (.valueError "delivery binding creator/time mismatch")
  else
    let _ ← gitlab (.check (.claimNote run b))
    pure mr

/-- `_delivery_mr`. -/
def boundDeliveryMr (site : ReadSite) (run : RunRecord) : Service (Option MergeRequest) := do
  match ← store (.deliveryBinding run.runKey) with
  | none => pure none
  | some b =>
    let mr ← validateDeliveryBinding site run b
    pure (some mr)

/-- `_validate_completion_context`. -/
def validateCompletionContext (site : ReadSite) (run : RunRecord) (i : HistoryItem)
    (m : CompletionPayload) (requireCurrentHead : Bool) : Service Unit := do
  validateCompletionIdentity run i m
  fromText (checkReviewScope run m)
  match ← boundDeliveryMr site run with
  | none => pure ()
  | some mr =>
    if requireCurrentHead ∧ m.headSha.any (· != mr.head) then
      raise (.valueError "completion head is not the bound current MR head")
    else pure ()

/-! ## Attempt, finalization and semantic gate -/

/-- The session a completion's metadata names. -/
def completedSession (metadata : Option RawMetadata) : Option SessionField :=
  metadata.bind (·.workerSessionId)

/-- The completion answers the attempt the runtime row records, if it records one. -/
def attemptMatches (runtime : Option CardRuntime) (session : Option SessionField) : Bool :=
  match runtime with
  | none => true
  | some row => !truthy row.workerSessionId || session == row.workerSessionId.map .text

/-- `_validate_worker_attempt`. -/
def validateWorkerAttempt (i : HistoryItem) : Service Unit := do
  let runtime ← store (.cardRuntime i.managed.board i.managed.cardId)
  if attemptMatches runtime (completedSession i.task.latestMetadata) then pure ()
  else raise (.valueError "completion worker_session_id does not match current attempt")

/-- The source review of a finalization, with the number of reviews of its stage
up to it. -/
def finalReview (items : List HistoryItem) (s : Stage) (trigger : CardId) :
    Option (HistoryItem × Nat) :=
  (items.find? (·.task.id == trigger)).map fun i =>
    (i, reviewAttempts (items.takeWhile (·.task.id != trigger) ++ [i]) s)

/-- What `_validate_finalization_context` checks against the source review. -/
def checkFinalReview (cfg : Config) (m : CompletionPayload) (forced : ForcedAdvance)
    (s : Stage) (found : Option (HistoryItem × Nat)) : Except String Unit :=
  match found with
  | none => .error "finalization source review card was not found"
  | some (review, count) =>
    match validatePersistedCompletionMetadata review.task.latestMetadata with
    | .error t => .error t
    | .ok r =>
      if !review.atStage s || r.stage != s || r.outcome != .fail ||
          count != cfg.documentReviewLimit then
        .error "finalization source is not the third valid failed review"
      else if !r.gitlabUrls.contains forced.finalReviewUrl then
        .error "final_review_url is not evidence from the third review"
      else if !m.gitlabUrls.contains forced.decisionUrl then
        .error "decision_url must also appear in gitlab_urls"
      else .ok ()

/-- `_validate_finalization_context`. -/
def checkFinalizationContext (cfg : Config) (items : List HistoryItem) (i : HistoryItem)
    (m : CompletionPayload) : Except String Unit :=
  if m.mode ≠ .finalization then .ok ()
  else match parseCardBody i.task.body with
    | .error t => .error t
    | .ok card =>
      match card.repairContext, m.forcedAdvance with
      | some context, some forced =>
        if context.kind ≠ .reviewFailure then
          .error "finalization card is missing review failure context"
        else if context.reviewAttempt ≠ some cfg.documentReviewLimit ∨
            context.reviewLimit ≠ some cfg.documentReviewLimit ∨
            forced.reviewLimit ≠ cfg.documentReviewLimit ∨
            forced.finalReviewCardId ≠ context.triggerCardId then
          .error "finalization review-limit evidence does not match card"
        else match documentReviewForProducer m.stage with
          | none => .error m.stage.value
          | some s => checkFinalReview cfg m forced s (finalReview items s context.triggerCardId)
      | _, _ => .error "finalization card is missing review failure context"

/-- The gate binds the reviewed TASKS artifact, or the one frozen TASKS baseline
of the card. -/
def checkGateArtifact (i : HistoryItem) (m : CompletionPayload) : Except String Unit :=
  if m.stage = .tasksReview then
    if !sameElements m.gateArtifactPaths m.artifactPaths ||
        m.gateArtifactCommitSha != m.artifactCommitSha ||
        m.gateArtifactDigest != m.artifactDigest then
      .error "implementation_entry gate must bind the reviewed TASKS artifact"
    else .ok ()
  else match parseCardBody i.task.body with
    | .error t => .error t
    | .ok card =>
      let matching := card.frozenBaselines.filter fun b =>
        b.phase == "tasks" && b.artifactPaths == m.gateArtifactPaths.insertionSort (· ≤ ·) &&
          some b.artifactCommitSha == m.gateArtifactCommitSha &&
          some b.artifactDigest == m.gateArtifactDigest
      if matching.length = 1 then .ok ()
      else .error "semantic gate must bind exactly one frozen TASKS baseline"

/-- `_validate_semantic_gate`. -/
def validateSemanticGate (run : RunRecord) (i : HistoryItem) (m : CompletionPayload) :
    Service Unit :=
  if m.gatePhase.isNone then pure ()
  else do
    let now ← host .now
    if m.gateReviewedAt.all (now + 300 < ·) then
      raise (.valueError "gate reviewed_at is missing or in the future")
    else
      fromText (checkGateArtifact i m)
      let _ ← gitlab (.check (.semanticGate run m))
      pure ()

/-! ## GitLab gates -/

/-- `validate_gate`: the author of the gate note. -/
def validateGate (site : ReadSite) (run : RunRecord) (m : CompletionPayload) :
    Service (Option String) :=
  if !(m.stage.isDocumentReview || m.stage.isCodeGate) then pure none
  else do
    let mr ← deliveryMr site run m.mrIid
    if m.mrUrl.any (· != mr.webUrl) then
      raise (.valueError "metadata MR URL does not match GitLab")
    else
      if m.stage.isDocumentReview then
        let _ ← gitlab (.check (.artifactCompletion run m))
      else if m.headSha ≠ mr.sha then
        raise (.valueError s!"{m.stage.value} is not bound to current MR head")
      let author ← gitlab (.gateNote run mr.iid m)
      pure (some author)

/-- `validate_gate`, then `_validate_gate_reviewer`. -/
def validateReviewedGate (site : ReadSite) (run : RunRecord) (m : CompletionPayload) :
    Service Unit := do
  let author ← validateGate site run m
  if m.gateReviewer.any (some · != author) then
    raise (.valueError "semantic gate reviewer does not match GitLab gate author")
  else pure ()

/-- `validate_author_completion`. -/
def validateAuthorCompletion (run : RunRecord) (m : CompletionPayload) : Service Unit :=
  if !m.stage.isRepositoryAuthor || m.outcome != .pass then
    raise (.valueError "completion is not an authoring pass")
  else if m.mrIid.isNone || m.mrUrl.isNone || m.headSha.isNone then
    raise (.valueError "authoring pass lacks delivery MR/head identity")
  else do
    let mr ← deliveryMr .author run m.mrIid
    if mr.state ≠ "opened" ∨ some mr.webUrl ≠ m.mrUrl ∨ some mr.head ≠ m.headSha then
      raise (.valueError "authoring pass is not bound to the current shared delivery MR/head")
    else pure ()

/-- `validate_repository_evidence`, then `validate_author_completion`. -/
def validateAuthoring (run : RunRecord) (m : CompletionPayload) : Service Unit := do
  let _ ← gitlab (.check (.repositoryEvidence run m))
  validateAuthorCompletion run m

/-- The checks of a completion before any of GitLab's gates. -/
def validateCompletion (cfg : Config) (run : RunRecord) (items : List HistoryItem)
    (i : HistoryItem) : Service CompletionMetadata := do
  validateWorkerAttempt i
  let m ← fromText (validatePersistedCompletionMetadata i.task.latestMetadata)
  validateCompletionContext .context run i m.toCompletionPayload true
  fromText (checkFinalizationContext cfg items i m.toCompletionPayload)
  validateSemanticGate run i m.toCompletionPayload
  pure m

end HollysysController
