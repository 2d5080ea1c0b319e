import HollysysController.Durable.Run
import HollysysController.Kanban
import HollysysController.Runtime

/-! # The world of the Controller

The state a Controller function works on, and the atomic operations it is made
of: one store transaction, one Hermes read or command, one GitLab request, one
host call. GitLab's answers belong to the environment, one for each place of
the code that asks. -/

namespace HollysysController

open Durable

/-! ## GitLab -/

structure MergeRequest where
  iid : Nat
  state : String := "opened"
  sha : Option String
  sourceBranch : String
  targetBranch : String
  webUrl : String
  creator : String
  createdAt : Nat
  draft : Bool := true
  mergeCommitSha : Option String := none
  deriving DecidableEq, Repr

/-- `str(mr.get("sha") or "")`. -/
def MergeRequest.head (mr : MergeRequest) : String := mr.sha.getD ""

/-- The places that read the delivery MR, those of a reconcile in the order in
which it passes them. The baselines are read again for each card. -/
inductive ReadSite where
  | start | context | author | gate | live | pairedGate | terminal
  | readyBefore | readyMark | readyAfter | terminalVerify | mergedGate
  | baseline (cardId : CardId) | dispatch | status | watchdog | watchdogAfter
  deriving DecidableEq, Repr

/-- The checks against GitLab whose answer does not depend on the MR head. -/
inductive GitLabCheck where
  | claimNote (run : RunRecord) (binding : DeliveryBinding)
  | repositoryEvidence (run : RunRecord) (p : CompletionPayload)
  | semanticGate (run : RunRecord) (p : CompletionPayload)
  | artifactCompletion (run : RunRecord) (p : CompletionPayload)
  | artifactGateAtRef (run : RunRecord) (p : CompletionPayload) (ref : String)
  | baselineAtRef (run : RunRecord) (baseline : ArtifactBaseline) (ref : String)
  deriving DecidableEq, Repr

/-- Who wrote a note, as GitLab reports it. -/
structure NoteAuthor where
  id : Option Nat := none
  username : Option String := none
  name : Option String := none
  deriving DecidableEq, Repr

/-- The groups of `GATE_RE`. -/
structure GateMarker where
  run : String
  stage : String
  result : String
  digest : String
  artifact : String
  head : String
  test : String
  task : String
  deriving DecidableEq, Repr

/-- A note of the delivery MR, with the gate marker in its body. -/
structure GateNote where
  author : NoteAuthor
  marker : Option GateMarker
  deriving DecidableEq, Repr

/-- The values that are looked up among the allowed identities. -/
def NoteAuthor.values (a : NoteAuthor) : List String :=
  [((a.id.filter (· != 0)).map toString).getD "", a.username.getD "", a.name.getD ""]

/-- The author as the gates name it. -/
def NoteAuthor.text (a : NoteAuthor) : String :=
  match a.id with
  | some id => s!"id:{id}"
  | none =>
    let username := a.username.getD "None"
    s!"username:{username}"

/-- `value or "na"`. -/
def orNa (value : Option String) : String := (value.filter (· != "")).getD "na"

/-- The marker that the note of a completion must carry. -/
def expectedMarker (run : RunRecord) (m : CompletionPayload) : GateMarker where
  run := run.runKey
  stage := m.stage.value
  result := m.outcome.value
  digest := orNa m.artifactDigest
  artifact := orNa m.artifactCommitSha
  head := orNa m.headSha
  test := (m.testDisposition.map (·.value)).getD "na"
  task := m.kanbanCardId.text

structure GitLab where
  /-- The answer of `GET merge_requests/{iid}` at each place. -/
  mr : ReadSite → RunRecord → Nat → Except ControllerError MergeRequest
  /-- The outcome of a check, with the author it found. -/
  check : GitLabCheck → Except ControllerError String
  /-- The checks of `validate_start` on the URLs, the project and the PRD. -/
  start : StartRequest → Except ControllerError StartSource :=
    fun _ => .error (.valueError "the PRD merge request is not merged")
  /-- The delivery MR after `abort_delivery`, none when the run has no MR. -/
  abort : RunRecord → Option Nat → Except ControllerError (Option MergeRequest) :=
    fun _ _ => .ok none
  /-- The runs whose delivery MR was marked ready. -/
  ready : List String := []
  /-- The notes of the delivery MR. -/
  notes : RunRecord → Nat → Except ControllerError (List GateNote) := fun _ _ => .ok []
  /-- `reviewer_identities`: who may publish the gate of a stage. -/
  reviewerIdentities : Stage → List String := fun _ => []
  health : Except ControllerError Unit := .ok ()
  /-- The head of a run's remote branch. -/
  branchHead : RunRecord → Except ControllerError String :=
    fun _ => .error (.valueError "GitLab branch not found")
  /-- The MRs that were created for deliveries, each with its project. -/
  deliveries : List (Nat × MergeRequest) := []
  /-- The identity behind the token of the Controller. -/
  currentUser : Except ControllerError String := .ok ""
  /-- The MR that GitLab makes of a creation request with a title and a description. -/
  opens : RunRecord → String → String → Except ControllerError MergeRequest :=
    fun _ _ _ => .error (.valueError "GitLab merge request not created")
  /-- The id of a note that is added to an MR. -/
  noteId : RunRecord → Nat → String → Except ControllerError Nat := fun _ _ _ => .ok 0

/-- `GET merge_requests?source_branch=..&scope=all`. -/
def GitLab.mergeRequests (g : GitLab) (run : RunRecord) : List MergeRequest :=
  (g.deliveries.filter fun d =>
    d.1 == run.project.projectId && d.2.sourceBranch == run.workspace.branch).map (·.2)

/-- The author belongs to one of the identities. -/
def NoteAuthor.allowed (a : NoteAuthor) (identities : List String) : Bool :=
  a.values.any identities.contains

/-- `_validate_gate_note`: the author of the first note that is the gate of the completion. -/
def GitLab.validateGateNote (g : GitLab) (run : RunRecord) (iid : Nat) (m : CompletionPayload) :
    Except ControllerError String :=
  let identities := g.reviewerIdentities m.stage
  if identities = [] then
    .error (.valueError s!"no allowed identities configured for {m.stage.value}")
  else match g.notes run iid with
    | .error e => .error e
    | .ok notes =>
      match notes.find? fun n =>
          n.author.allowed identities && n.marker == some (expectedMarker run m) with
      | some note => .ok note.author.text
      | none => .error (.valueError
          s!"no valid {m.stage.value} gate note by an allowed GitLab identity")

/-! ## The host -/

structure WorkerIdentity where
  board : String
  cardId : CardId
  runId : Nat
  workerPid : Nat
  deriving DecidableEq, Repr

/-- `local_workspace_state`: the worktree of a run, as the host finds it. -/
structure WorkspaceState where
  ok : Bool := false
  branch : String := ""
  headSha : String := ""
  errorCode : Option String := none
  deriving DecidableEq, Repr

structure Host where
  /-- Making a scratch directory can be refused by the file system. -/
  scratch : String → Except ControllerError Unit := fun _ => .ok ()
  /-- The error code of a worker profile that is not admitted. -/
  profilePreflight : String → Option String := fun _ => none
  /-- One preparation step of a run: its branch, its workspace, the offline caches,
  the board. -/
  prepare : String → RunRecord → Except ControllerError Unit := fun _ _ => .ok ()
  /-- Whether the Supervisor confirms the exit of a worker. -/
  exitConfirmed : WorkerIdentity → Bool := fun _ => true
  workspace : RunRecord → WorkspaceState := fun _ => {}

structure World where
  store : Store := {}
  hermes : Hermes := {}
  gitlab : GitLab
  host : Host := {}
  now : Nat := 0

/-! ## Operations -/

inductive StoreOp where
  | runRecord (runKey : String)
  | runControl (runKey : String)
  | cardsForRun (runKey : String)
  | managedCard (board : String) (cardId : CardId)
  | deliveryBinding (runKey : String)
  | bindDelivery (runKey : String) (binding : DeliveryBinding)
  | cardRuntime (board : String) (cardId : CardId)
  | operationRecord (key : String)
  | validationRuns (runKey : String) (cardId : CardId)
  | retryBlocked (dependency : String)
  | deepPreflight
  | requestRecord (key : String)
  | saveRun (run : RunRecord)
  | ensureRunControl (runKey : String)
  | createAbortRequest (row : AbortRow)
  | confirmAbortRequest (c : AbortConfirmation)
  | bindRequestRun (key runKey : String)
  | addManagedCard (c : ManagedCard)
  | registerCardAttempt (r : AttemptRegistration)
  | recordAttemptCompletion (c : AttemptCompletion)
  | recordCardRuntimeEvent (e : RuntimeEvent)
  | recordAttemptMetric (runId metric : String)
  | updateWorkerWatchdog (u : WatchdogUpdate)
  | transitionRun (t : Transition)
  | setRunException (runKey reason : String)
  | markFlowCompleted (runKey : String) (state : RunState) (checkedHead reason : String)
  | markCompleted (runKey : String) (external : Bool) (compliance checkedHead : String)
      (mergeCommitSha : Option String) (reason : String)
  | markAborting (runKey : String)
  | finishAbort (runKey : String) (merged : Bool) (checkedHead mergeCommitSha : Option String)
  | recordDependencyFailure (f : DependencyFailure)
  | associateOutageRun (dependency : String) (outageId : Nat) (runKey : String)
  | corroboratingRuns
  | openOutage (dependency : String)
  | outageRunKeys (dependency : String) (outageId : Nat)
  | runOutages (runKey : String)
  | recoverDependency (dependency : String)
  | runKeys
  | cursor (board : String)
  | setCursor (board : String) (cursor : Nat)
  | operationResult (c : OperationCall)
  | finishOperation (key : String) (result : OperationResult)
  | failOperation (key error : String)
  | supersedeOperation (key error : String)
  | markOperationUncertain (key error : String)
  | beginRequest (key payload : String)
  | finishRequest (key response : String)
  | failRequest (key error : String)
  | enqueue (row : OutboxRow)
  | enqueueReconcile (runKey reason : String) (eventId : Option Nat) (intentId : String)
  deriving DecidableEq, Repr

inductive HermesOp where
  | task (board : String) (cardId : CardId)
  | taskByIdempotency (board key : String)
  | eventsAfter (board : String) (cursor limit : Nat)
  | create (a : CreateArgs)
  | promote (board : String) (cardId : CardId)
  | complete (board : String) (cardId : CardId)
  | completeWith (board : String) (cardId : CardId) (p : CompletionPayload)
  | specify (board : String) (cardId : CardId)
  | comment (board : String) (cardId : CardId) (c : Comment)
  | reclaim (board : String) (cardId : CardId) (runId workerPid : Nat) (archive : Bool)
  | archive (board : String) (cardId : CardId)
  deriving DecidableEq, Repr

inductive GitLabOp where
  | mr (site : ReadSite) (run : RunRecord) (iid : Nat)
  | check (c : GitLabCheck)
  | gateNote (run : RunRecord) (iid : Nat) (m : CompletionPayload)
  | start (r : StartRequest)
  | markReady (run : RunRecord)
  | abortDelivery (run : RunRecord) (iid : Option Nat)
  | health
  | branchHead (run : RunRecord)
  | mergeRequests (run : RunRecord)
  | currentUser
  | createMr (run : RunRecord) (title description : String)
  | addNote (run : RunRecord) (iid : Nat) (body : String)
  deriving DecidableEq, Repr

inductive HostOp where
  | now
  | scratch (dir : String)
  | profilePreflight (profile : String)
  | prepare (step : String) (run : RunRecord)
  | exitConfirmed (identity : WorkerIdentity)
  /-- The Supervisor is asked about a worker that may go on. -/
  | probe (identity : WorkerIdentity)
  | workspace (run : RunRecord)
  deriving DecidableEq, Repr

inductive Op where
  | store (o : StoreOp)
  | hermes (o : HermesOp)
  | gitlab (o : GitLabOp)
  | host (o : HostOp)
  deriving DecidableEq, Repr

@[reducible] def StoreOp.Ret : StoreOp → Type
  | runRecord _ => Option RunRecord
  | runControl _ => Option RunControl
  | cardsForRun _ => List ManagedCard
  | managedCard _ _ => Option ManagedCard
  | deliveryBinding _ => Option DeliveryBinding
  | cardRuntime _ _ => Option CardRuntime
  | operationRecord _ => Option OperationRow
  | validationRuns _ _ => List DeterministicCheck
  | retryBlocked _ => Bool
  | deepPreflight => Bool
  | transitionRun _ | setRunException _ _ | markFlowCompleted _ _ _ _
  | markCompleted _ _ _ _ _ _ | confirmAbortRequest _ => RunControl
  | recordDependencyFailure _ => Outage
  | corroboratingRuns | outageRunKeys _ _ | runKeys => List String
  | openOutage _ | recoverDependency _ => Option Outage
  | runOutages _ => List Outage
  | cursor _ => Nat
  | operationResult _ => Option OperationResult
  | beginRequest _ _ => Option String
  | requestRecord _ => Option RequestRow
  | _ => Unit

@[reducible] def HermesOp.Ret : HermesOp → Type
  | task _ _ | taskByIdempotency _ _ => Option TaskRecord
  | eventsAfter _ _ _ => List EventRecord
  | create _ => CardId
  | _ => Unit

@[reducible] def GitLabOp.Ret : GitLabOp → Type
  | mr _ _ _ => MergeRequest
  | check _ | gateNote _ _ _ => String
  | start _ => StartSource
  | markReady _ => Unit
  | abortDelivery _ _ => Option MergeRequest
  | health => Unit
  | branchHead _ | currentUser => String
  | mergeRequests _ => List MergeRequest
  | createMr _ _ _ => MergeRequest
  | addNote _ _ _ => Nat

@[reducible] def HostOp.Ret : HostOp → Type
  | now => Nat
  | scratch _ => Unit
  | profilePreflight _ => Option String
  | prepare _ _ => Unit
  | exitConfirmed _ => Bool
  | probe _ => Unit
  | workspace _ => WorkspaceState

@[reducible] def Op.Ret : Op → Type
  | store o => o.Ret
  | hermes o => o.Ret
  | gitlab o => o.Ret
  | host o => o.Ret

def StoreOp.exec (now : Nat) : (o : StoreOp) → Store → Except ControllerError o.Ret × Store
  | runRecord k, s => (.ok (s.runRecord k), s)
  | runControl k, s => (.ok (s.runControl k), s)
  | cardsForRun k, s => (.ok (s.cardsForRun k), s)
  | managedCard b i, s => (.ok (s.managedCard b i), s)
  | deliveryBinding k, s => (.ok (s.deliveryBinding k), s)
  | bindDelivery k b, s => (HollysysController.bindDelivery k b).commit s
  | cardRuntime b i, s => (.ok (s.cardRuntime (b, i)), s)
  | operationRecord k, s => (.ok (s.operations k), s)
  | validationRuns k i, s =>
    (.ok ((s.validationRuns.filter fun v => v.runKey == k && v.cardId == i).map (·.check)), s)
  | retryBlocked d, s => (.ok (s.retryBlocked d now), s)
  | deepPreflight, s => (.ok s.deepPreflight, s)
  | requestRecord k, s => (.ok (s.requests k), s)
  | saveRun r, s => (HollysysController.saveRun r).commit s
  | ensureRunControl k, s => (HollysysController.ensureRunControl k).commit s
  | createAbortRequest row, s => (HollysysController.createAbortRequest row now).commit s
  | confirmAbortRequest c, s => HollysysController.confirmAbortRequest c now s
  | bindRequestRun k r, s => (HollysysController.bindRequestRun k r).commit s
  | addManagedCard c, s => (HollysysController.addManagedCard c).commit s
  | registerCardAttempt r, s => (HollysysController.registerCardAttempt r).commit s
  | recordAttemptCompletion c, s => (HollysysController.recordAttemptCompletion c now).commit s
  | recordCardRuntimeEvent e, s => (HollysysController.recordCardRuntimeEvent e).commit s
  | recordAttemptMetric r m, s => (HollysysController.recordAttemptMetric r m).commit s
  | updateWorkerWatchdog u, s => HollysysController.updateWorkerWatchdog u now s
  | transitionRun t, s => (HollysysController.transitionRun t now).commit s
  | setRunException k r, s => (HollysysController.setRunException k r now).commit s
  | markFlowCompleted k st h r, s => (HollysysController.markFlowCompleted k st h r now).commit s
  | markCompleted k e c h m r, s =>
    (HollysysController.markCompleted k e c h m r now).commit s
  | markAborting k, s => (HollysysController.markAborting k).commit s
  | finishAbort k m h c, s => (HollysysController.finishAbort k m h c now).commit s
  | recordDependencyFailure f, s => (HollysysController.recordDependencyFailure f now).commit s
  | associateOutageRun d i k, s => (HollysysController.associateOutageRun d i k).commit s
  | corroboratingRuns, s => (.ok s.corroboratingRuns, s)
  | openOutage d, s => (.ok (s.openOutage d), s)
  | outageRunKeys d i, s => (.ok (s.outageRunKeys d i), s)
  | runOutages k, s => (.ok (s.runOutages k), s)
  | recoverDependency d, s => (HollysysController.recoverDependency d).commit s
  | runKeys, s => (.ok s.runKeys, s)
  | cursor b, s => (.ok ((s.cursors b).getD 0), s)
  | setCursor b c, s => (HollysysController.setCursor b c).commit s
  | operationResult c, s => (HollysysController.operationResult c now).commit s
  | finishOperation k r, s => (HollysysController.finishOperation k r).commit s
  | failOperation k e, s => (HollysysController.failOperation k e).commit s
  | supersedeOperation k e, s => (HollysysController.supersedeOperation k e).commit s
  | markOperationUncertain k e, s => (HollysysController.markOperationUncertain k e now).commit s
  | beginRequest k p, s => (HollysysController.beginRequest k p).commit s
  | finishRequest k r, s => (HollysysController.finishRequest k r).commit s
  | failRequest k e, s => (HollysysController.failRequest k e).commit s
  | enqueue row, s => (HollysysController.enqueue row).commit s
  | enqueueReconcile k r e i, s => (HollysysController.enqueueReconcile k r e i now).commit s

/-- A command as the process sees it: a failed command changes nothing. -/
def Command.commit {α : Type} (c : Command α) (h : Hermes) : Except ControllerError α × Hermes :=
  match c h with
  | .ok (a, h') => (.ok a, h')
  | .error e => (.error e, h)

def HermesOp.exec (now : Nat) : (o : HermesOp) → Hermes → Except ControllerError o.Ret × Hermes
  | task b i, h => (.ok (h.task b i), h)
  | taskByIdempotency b k, h => (.ok (h.taskByIdempotency b k), h)
  | eventsAfter b c n, h => (.ok (h.eventsAfter b c n), h)
  | create a, h => (Hermes.create a now).commit h
  | promote b i, h => (Hermes.promote b i now).commit h
  | complete b i, h => (Hermes.complete b i none now).commit h
  | completeWith b i p, h => (Hermes.complete b i (some { payload := .ok p }) now).commit h
  | specify b i, h => (Hermes.specify b i now).commit h
  | comment b i c, h => (Hermes.comment b i c now).commit h
  | reclaim b i r p a, h => (Hermes.reclaim b i r p a now).commit h
  | archive b i, h => (Hermes.archive b i now).commit h

def GitLabOp.exec : (o : GitLabOp) → GitLab → Except ControllerError o.Ret × GitLab
  | mr site run iid, g =>
    ((g.mr site run iid).map fun mr =>
      if g.ready.contains run.runKey then { mr with draft := false } else mr, g)
  | check c, g => (g.check c, g)
  | gateNote run iid m, g => (g.validateGateNote run iid m, g)
  | start r, g => (g.start r, g)
  | markReady run, g => (.ok (), { g with ready := run.runKey :: g.ready })
  | abortDelivery run iid, g => (g.abort run iid, g)
  | health, g => (g.health, g)
  | branchHead run, g => (g.branchHead run, g)
  | mergeRequests run, g => (.ok (g.mergeRequests run), g)
  | currentUser, g => (g.currentUser, g)
  | createMr run title description, g =>
    match g.opens run title description with
    | .ok made =>
      (.ok made, { g with deliveries := g.deliveries ++ [(run.project.projectId, made)] })
    | .error e => (.error e, g)
  | addNote run iid body, g => (g.noteId run iid body, g)

def HostOp.exec (now : Nat) (host : Host) : (o : HostOp) → Except ControllerError o.Ret
  | .now => .ok now
  | scratch dir => host.scratch dir
  | profilePreflight p => .ok (host.profilePreflight p)
  | prepare step run => host.prepare step run
  | exitConfirmed i => .ok (host.exitConfirmed i)
  | probe _ => .ok ()
  | workspace run => .ok (host.workspace run)

def Op.exec : (o : Op) → World → Except ControllerError o.Ret × World
  | .store o, w => let r := o.exec w.now w.store; (r.1, { w with store := r.2 })
  | .hermes o, w => let r := o.exec w.now w.hermes; (r.1, { w with hermes := r.2 })
  | .gitlab o, w => let r := o.exec w.gitlab; (r.1, { w with gitlab := r.2 })
  | .host o, w => (o.exec w.now w.host, w)

/-- The machine the Controller's programs run on. -/
def machine : Machine Op Op.Ret ControllerError World := ⟨Op.exec⟩

/-! ## What an operation leaves alone -/

section Frame

variable (w : World)

@[simp] theorem exec_store (o : StoreOp) : (machine.exec (.store o) w).2 =
    { w with store := (o.exec w.now w.store).2 } := rfl

@[simp] theorem exec_hermes (o : HermesOp) : (machine.exec (.hermes o) w).2 =
    { w with hermes := (o.exec w.now w.hermes).2 } := rfl

@[simp] theorem exec_gitlab (o : GitLabOp) : (machine.exec (.gitlab o) w).2 =
    { w with gitlab := (o.exec w.gitlab).2 } := rfl

@[simp] theorem exec_host (o : HostOp) : (machine.exec (.host o) w).2 = w := rfl

end Frame

/-- A Controller function. -/
abbrev Service (α : Type) := Prog Op Op.Ret ControllerError α

def store (o : StoreOp) : Service o.Ret := Prog.op (Op.store o)

def hermes (o : HermesOp) : Service o.Ret := Prog.op (Op.hermes o)

def gitlab (o : GitLabOp) : Service o.Ret := Prog.op (Op.gitlab o)

def host (o : HostOp) : Service o.Ret := Prog.op (Op.host o)

/-! ## Undisturbed operations -/

theorem eval_store (o : StoreOp) (w : World) :
    machine.eval (store o) w =
      match o.exec w.now w.store with
      | (.ok a, s) => (.returned a, { w with store := s })
      | (.error e, s) => (.raised e, { w with store := s }) := by
  rw [store, Machine.eval_op]
  simp only [machine, Op.exec]
  rcases o.exec w.now w.store with ⟨r, s⟩
  cases r <;> rfl

theorem eval_store_returned {o : StoreOp} {w w' : World} {a : o.Ret} :
    machine.eval (store o) w = (.returned a, w') ↔
      ∃ s, o.exec w.now w.store = (.ok a, s) ∧ w' = { w with store := s } := by
  rw [eval_store]
  rcases o.exec w.now w.store with ⟨r, s⟩
  cases r with
  | ok b =>
    constructor
    · intro h
      cases h
      exact ⟨s, rfl, rfl⟩
    · rintro ⟨_, h, rfl⟩
      cases h
      rfl
  | error e => simp

theorem eval_hermes (o : HermesOp) (w : World) :
    machine.eval (hermes o) w =
      match o.exec w.now w.hermes with
      | (.ok a, h) => (.returned a, { w with hermes := h })
      | (.error e, h) => (.raised e, { w with hermes := h }) := by
  rw [hermes, Machine.eval_op]
  simp only [machine, Op.exec]
  rcases o.exec w.now w.hermes with ⟨r, h⟩
  cases r <;> rfl

theorem eval_gitlab (o : GitLabOp) (w : World) :
    machine.eval (gitlab o) w =
      match o.exec w.gitlab with
      | (.ok a, g) => (.returned a, { w with gitlab := g })
      | (.error e, g) => (.raised e, { w with gitlab := g }) := by
  rw [gitlab, Machine.eval_op]
  simp only [machine, Op.exec]
  rcases o.exec w.gitlab with ⟨r, g⟩
  cases r <;> rfl

theorem eval_host (o : HostOp) (w : World) :
    machine.eval (host o) w =
      match o.exec w.now w.host with
      | .ok a => (.returned a, w)
      | .error e => (.raised e, w) := by
  rw [host, Machine.eval_op]
  simp only [machine, Op.exec]
  cases o.exec w.now w.host <;> rfl

@[simp] theorem eval_task (board : String) (id : CardId) (w : World) :
    machine.eval (hermes (.task board id)) w = (.returned (w.hermes.task board id), w) := by
  rw [eval_hermes]
  rfl

@[simp] theorem eval_readControl (runKey : String) (w : World) :
    machine.eval (store (.runControl runKey)) w =
      (.returned (w.store.runControl runKey), w) := by
  rw [eval_store]
  rfl

end HollysysController
