import HollysysController.Recover

/-! # Resolving a human block

A human answers the question a worker blocked its card with. The answer goes to a
retry of the card, which is created held, and published once the blocked card is
completed. -/

namespace HollysysController

open Durable

/-- `ResolveRequest`. -/
structure ResolveRequest where
  runKey : String
  cardId : CardId
  blockId : String
  messageId : String
  sender : String
  chatId : String
  threadId : Option String := none
  answer : String
  deriving DecidableEq, Repr

namespace ResolveRequest

variable (r : ResolveRequest)

def key : String := s!"resolve:{r.blockId}:{r.messageId}"

def payload : String :=
  let thread := r.threadId.getD ""
  s!"{r.runKey}|{r.cardId.text}|{r.blockId}|{r.messageId}|{r.sender}|{r.chatId}|{thread}|{r.answer}"

end ResolveRequest

/-! ## What a resolution needs -/

/-- The work card that is resolved. -/
def askedItem (r : ResolveRequest) (items : List HistoryItem) :
    Except ControllerError HistoryItem :=
  match items.find? (·.task.id == r.cardId) with
  | none => .error (.valueError "card is not a managed Hollysys work card")
  | some i =>
    if i.isWork then .ok i
    else .error (.valueError "card is not a managed Hollysys work card")

/-- Who may resolve a block, and where. -/
def authorizeResolution (r : ResolveRequest) (run : RunRecord) : Except ControllerError Unit :=
  if r.sender ≠ run.origin.initiatorOpenId ∨ r.chatId ≠ run.origin.chatId ∨
      threadOf r.threadId ≠ threadOf run.origin.threadId then
    .error (.permissionError "resolution must come from the original initiator and channel")
  else .ok ()

/-- The latest comment of the card that asks the question. -/
def blockComment (blockId : String) (task : TaskRecord) : Option String :=
  (task.comments.reverse.find? fun c =>
    hasText "[human-block:v1]" c.body && hasText s!"block_id: {blockId}" c.body).map (·.body)

/-- The stage of a card with a valid block, and its record. -/
def blockedRecord (r : ResolveRequest) (i : HistoryItem) : Except String (Stage × CardRecord) :=
  match blockComment r.blockId i.task with
  | none => .error "matching [human-block:v1] comment was not found"
  | some comment =>
    match i.workStage with
    | .error text => .error text
    | .ok stage =>
      if validHumanBlock (humanBlockFields comment) stage then
        (parseCardBody i.task.body).map fun record => (stage, record)
      else .error "human block is not an allowed v4 technical/safety block"

/-- The item is the retry of the blocked card with this answer. -/
def isRetryOf (blocked : CardId) (stage : Stage) (mode : WorkMode) (answer : String)
    (i : HistoryItem) : Bool :=
  i.isWork && i.atStage stage && i.managed.parentCardId == some blocked &&
    match parseCardBody i.task.body with
    | .ok record => record.resumedFromCardId == some blocked &&
        record.resumeAnswer == some answer && record.mode == mode
    | .error _ => false

/-- `_resolved_retry`: the latest such item. -/
def resolvedRetry (items : List HistoryItem) (blocked : CardId) (stage : Stage) (mode : WorkMode)
    (answer : String) : Option TaskRecord :=
  (items.reverse.find? (isRetryOf blocked stage mode answer)).map (·.task)

/-- `RESOLVABLE_HUMAN_BLOCK_STATUSES`. -/
def TaskStatus.isResolvable : TaskStatus → Bool
  | .blocked | .triage | .todo | .ready => true
  | .running | .done | .archived => false

/-! ## The steps of a resolution -/

/-- The run is active again when it waited for a human. -/
def resumeRun (r : ResolveRequest) (run : RunRecord) : Service Unit := do
  let control ← runControl run.runKey
  if control.state = .humanBlocked then
    let _ ← store (.transitionRun {
      runKey := run.runKey
      expectedStates := [.humanBlocked]
      newState := .active
      reason := s!"human_resolve:{r.blockId}:actor=hollysys-controller"
      expectedVersion := some control.stateVersion })
  else pure ()

/-- `_create_work` with `publish=False`. -/
def createHeldWork (cfg : Config) (run : RunRecord) (o : WorkOrder) : Service TaskRecord := do
  let record ← composeWork cfg run o
  recordWorkCard cfg record

def retryOrder (r : ResolveRequest) (i : HistoryItem) (stage : Stage) (record : CardRecord) :
    WorkOrder where
  stage
  parent := i.task.id
  mode := record.mode
  repairContext := record.repairContext
  resumeAnswer := some r.answer
  resumedFrom := some i.task.id

/-- The retry of the blocked card, created held when there is none with the answer. -/
def retryOf (cfg : Config) (r : ResolveRequest) (run : RunRecord) (items : List HistoryItem)
    (i : HistoryItem) (stage : Stage) (record : CardRecord) : Service TaskRecord :=
  match resolvedRetry items i.task.id stage record.mode r.answer with
  | some retry => pure retry
  | none =>
    if i.task.status.isResolvable then createHeldWork cfg run (retryOrder r i stage record)
    else raise (.valueError "card is not currently a resolvable human block")

def resolutionComment (r : ResolveRequest) (retry : TaskRecord) : Comment where
  author := "hollysys-controller"
  body := s!"[human-resolution:v1]\nblock_id: {r.blockId}\nmessage_id: {r.messageId}\n" ++
    s!"resolved_by: {r.sender}\nanswer: {r.answer}\nnew_card_id: {retry.id.text}"

def readTask (board : String) (id : CardId) (missing : String) : Service TaskRecord := do
  match ← hermes (.task board id) with
  | some task => pure task
  | none => raise (.runtimeError missing)

/-- A card in triage waits in `todo`. -/
def specifyTriage (board : String) (task : TaskRecord) : Service TaskRecord :=
  if task.status = .triage then do
    hermes (.specify board task.id)
    readTask board task.id s!"triage card {task.id.text} disappeared"
  else pure task

/-- A waiting card is promoted. -/
def promoteTodo (board : String) (task : TaskRecord) : Service TaskRecord :=
  if task.status = .todo then do
    hermes (.promote board task.id)
    readTask board task.id s!"promoted card {task.id.text} disappeared"
  else pure task

/-- `prepare_human_block_for_completion`. -/
def prepareHumanBlock (board : String) (id : CardId) : Service Unit := do
  let task ← readTask board id s!"unknown task {id.text}"
  let task ← specifyTriage board task
  let task ← promoteTodo board task
  if task.status ≠ .ready ∧ task.status ≠ .blocked then
    raise (.runtimeError s!"human-block card {id.text} cannot complete from {task.status.value}")
  else pure ()

/-- The completion by which the Controller cancels a card of its own. -/
def cancelledPayload (run : RunRecord) (i : HistoryItem) (stage : Stage) (card : CardRecord)
    (mode : WorkMode) (issues : List String) : CompletionPayload where
  runKey := run.runKey
  sourceKey := run.sourceKey
  runGeneration := run.runGeneration
  contextDigest := card.contextDigest
  stage
  iteration := i.managed.iteration
  mode
  outcome := .cancelled
  projectId := run.project.projectId
  projectPath := run.project.projectPath
  checkout := run.workspace.checkout
  worktree := run.workspace.worktree
  branch := run.workspace.branch
  targetBranch := run.workspace.targetBranch
  prdPath := run.source.prdPath
  prdCommitSha := run.source.prdCommitSha
  prdBlobSha := run.source.prdBlobSha
  prdMrUrl := run.source.prdMrUrl
  kanbanCardId := i.task.id
  headBeforeSha := card.expectedHeadSha
  issues

/-- `_controller_completion` with the outcome `cancelled`. -/
def controllerCompletion (run : RunRecord) (i : HistoryItem) (mode : WorkMode)
    (issues : List String) : Service CompletionPayload := do
  let (items, _) ← history run.runKey
  match items.find? (·.task.id == i.task.id) with
  | none => raise (.valueError s!"unknown managed card {i.task.id.text}")
  | some found =>
    let card ← fromText (parseCardBody found.task.body)
    let stage ← fromText i.workStage
    let payload := cancelledPayload run i stage card mode issues
    fromText payload.validateStageContract
    pure payload

/-- `kanban.complete`. -/
def completeCard (board : String) (id : CardId) (p : CompletionPayload) : Service Unit := do
  match ← hermes (.task board id) with
  | some task => if task.status = .done then pure () else hermes (.completeWith board id p)
  | none => hermes (.completeWith board id p)

/-- Complete the blocked card in favour of its retry. -/
def completeBlocked (run : RunRecord) (i : HistoryItem) (record : CardRecord)
    (retry : TaskRecord) : Service Unit := do
  let board := run.workspace.board
  if i.task.status = .triage ∨ i.task.status = .todo then prepareHumanBlock board i.task.id
  if i.task.status.isResolvable then
    let cancelled ← controllerCompletion run i record.mode
      [s!"human block resolved; superseded by {retry.id.text}"]
    completeCard board i.task.id cancelled
  else if i.task.status ≠ .done then
    raise (.valueError "card is no longer a resolvable human block")
  else pure ()

/-- The resolution from its retry to the response. -/
def settleBlock (r : ResolveRequest) (run : RunRecord) (i : HistoryItem) (stage : Stage)
    (record : CardRecord) (retry : TaskRecord) : Service String := do
  if !i.hasComment s!"message_id: {r.messageId}" then
    hermes (.comment run.workspace.board i.task.id (resolutionComment r retry))
  completeBlocked run i record retry
  let retry ← if retry.status.isActive then ensureWorkPublished run retry else pure retry
  store (.enqueue
    { key := s!"{run.runKey}:resumed:{r.blockId}", runKey := run.runKey, event := "resumed" })
  let response := s!"{run.runKey}|{i.task.id.text}|{retry.id.text}|{stage.value}"
  store (.finishRequest r.key response)
  pure response

/-- The body of `resolve`, from the claimed run to the response. -/
def resolveOnce (cfg : Config) (r : ResolveRequest) : Service String := do
  let (items, run) ← history r.runKey
  let i ← fromExcept (askedItem r items)
  fromExcept (authorizeResolution r run)
  let (stage, record) ← fromText (blockedRecord r i)
  resumeRun r run
  let retry ← retryOf cfg r run items i stage record
  settleBlock r run i stage record retry

/-! ## The request -/

/-- What `resolve` does with an error. -/
def settleResolution (cfg : Config) (r : ResolveRequest) (e : ControllerError) :
    Service String := do
  match e with
  | .dependency .contract text _ => store (.failRequest r.key text)
  | .dependency kind text c => recordRequestDependencyError cfg r.runKey kind text c
  | .runPolicy text =>
    if "request_in_progress:".toList.isPrefixOf text.toList then pure ()
    else store (.failRequest r.key text)
  | _ => store (.failRequest r.key e.text)
  raise e

/-- `resolve`. `inFlight` says whether another pass has taken the run up. -/
def resolve (cfg : Config) (inFlight : Bool) (r : ResolveRequest) : Service String := do
  match ← store (.beginRequest r.key r.payload) with
  | some previous => pure previous
  | none =>
    let body : Service String :=
      if inFlight then raise (.runPolicy s!"request_in_progress:{r.key}")
      else resolveOnce cfg r
    match ← body.attempt with
    | .ok response => pure response
    | .error e => settleResolution cfg r e

end HollysysController
