import HollysysController.Errors
import HollysysController.Models

/-! # The Hermes board

The Kanban state the Controller reads and the Hermes commands it runs. A
command is atomic: it answers, or it fails and changes nothing. Every change of
a task appends events to the one log of the board file. -/

namespace HollysysController

inductive TaskStatus where
  | triage | todo | ready | running | blocked | done | archived
  deriving DecidableEq, Repr

def TaskStatus.value : TaskStatus → String
  | .triage => "triage"
  | .todo => "todo"
  | .ready => "ready"
  | .running => "running"
  | .blocked => "blocked"
  | .done => "done"
  | .archived => "archived"

/-- `ACTIVE_STATUSES`. -/
def TaskStatus.isActive : TaskStatus → Bool
  | .triage | .todo | .ready | .running | .blocked => true
  | .done | .archived => false

/-- The statuses in which `release` finds a card released. -/
def TaskStatus.isReleased : TaskStatus → Bool
  | .todo | .ready | .running | .done => true
  | .triage | .blocked | .archived => false

structure Comment where
  author : String
  body : String
  deriving DecidableEq, Repr

/-- The payload fields the Controller reads. -/
structure EventPayload where
  workerSessionId : Option String := none
  workerPid : Option Nat := none
  exitKind : Option String := none
  exitCode : Option Nat := none
  deriving DecidableEq, Repr

structure EventRecord where
  id : Nat
  board : String
  taskId : CardId
  runId : Option Nat := none
  kind : String
  payload : Option EventPayload := none
  createdAt : Nat
  deriving DecidableEq, Repr

/-- One Hermes attempt of a task. -/
structure TaskRun where
  id : Nat
  outcome : Option String := none
  metadata : Option RawMetadata := none

structure HermesTask where
  id : CardId
  board : String
  body : CardBody
  assignee : Option String
  status : TaskStatus
  createdBy : Option String
  createdAt : Nat
  idempotencyKey : Option String
  tenant : Option String
  skills : List String
  parents : List CardId
  comments : List Comment := []
  currentRunId : Option Nat := none
  workerPid : Option Nat := none
  latestRun : Option TaskRun := none

namespace HermesTask

def withStatus (status : TaskStatus) (t : HermesTask) : HermesTask := { t with status }

def withComment (c : Comment) (t : HermesTask) : HermesTask :=
  { t with comments := t.comments ++ [c] }

/-- The task after an attempt that ended with `run`, unclaimed. -/
def completed (run : TaskRun) (t : HermesTask) : HermesTask :=
  { t with status := .done, currentRunId := none, workerPid := none, latestRun := some run }

/-- The statuses a CAS reclaim writes. -/
def reclaimTarget (archive : Bool) : TaskStatus := if archive then .archived else .ready

def reclaimed (archive : Bool) (t : HermesTask) : HermesTask :=
  { t with
    status := reclaimTarget archive
    currentRunId := none
    workerPid := none
    latestRun := t.latestRun.map fun r => { r with outcome := some "reclaimed" } }

end HermesTask

/-- The snapshot `KanbanReader.task` takes. -/
structure TaskRecord where
  id : CardId
  body : CardBody
  assignee : Option String
  status : TaskStatus
  createdBy : Option String
  createdAt : Nat
  idempotencyKey : Option String
  tenant : Option String
  skills : List String
  currentRunId : Option Nat
  latestMetadata : Option RawMetadata
  latestOutcome : Option String
  parents : List CardId
  comments : List Comment
  eventKinds : List String
  workerPid : Option Nat

structure Hermes where
  tasks : List HermesTask := []
  events : List EventRecord := []
  nextTask : Nat := 1
  nextEvent : Nat := 1
  nextRun : Nat := 1

namespace Hermes

variable (h : Hermes)

def find (board : String) (id : CardId) : Option HermesTask :=
  h.tasks.find? fun t => t.board == board && t.id == id

def eventKinds (board : String) (id : CardId) : List String :=
  (h.events.filter fun e => e.board == board && e.taskId == id).map (·.kind)

def snapshot (t : HermesTask) : TaskRecord where
  id := t.id
  body := t.body
  assignee := t.assignee
  status := t.status
  createdBy := t.createdBy
  createdAt := t.createdAt
  idempotencyKey := t.idempotencyKey
  tenant := t.tenant
  skills := t.skills
  currentRunId := t.currentRunId
  latestMetadata := t.latestRun.bind (·.metadata)
  latestOutcome := t.latestRun.bind (·.outcome)
  parents := t.parents
  comments := t.comments
  eventKinds := h.eventKinds t.board t.id
  workerPid := t.workerPid

/-- `KanbanReader.task`. -/
def task (board : String) (id : CardId) : Option TaskRecord :=
  (h.find board id).map h.snapshot

/-- The tasks of the board that hold the key and are not archived. -/
def holders (board key : String) : List HermesTask :=
  h.tasks.filter fun t =>
    t.board == board && t.idempotencyKey == some key && t.status != .archived

/-- `task_by_idempotency`: the latest holder of the key, archived ones ignored. -/
def taskByIdempotency (board key : String) : Option TaskRecord :=
  ((h.holders board key).foldl (fun best t => match best with
    | none => some t
    | some b => if b.createdAt < t.createdAt then some t else some b) none).map h.snapshot

/-- `events_after`. -/
def eventsAfter (board : String) (cursor limit : Nat) : List EventRecord :=
  (h.events.filter fun e => e.board == board && decide (cursor < e.id)).take limit

/-! ## Updates -/

def updateTask (board : String) (id : CardId) (f : HermesTask → HermesTask) : Hermes :=
  { h with tasks := h.tasks.map fun t => if t.board = board ∧ t.id = id then f t else t }

def appendEvent (board : String) (id : CardId) (kind : String) (now : Nat)
    (runId : Option Nat) (payload : Option EventPayload) : Hermes :=
  { h with
    events := h.events ++ [{ id := h.nextEvent, board, taskId := id, runId, kind, payload,
                             createdAt := now }]
    nextEvent := h.nextEvent + 1 }

end Hermes

/-! ## Commands -/

/-- A Hermes command that exits with a failure. -/
def commandFailed (text : String) : ControllerError :=
  .dependency .contract text { dependency := "kanban", errorCode := some "command_failed" }

abbrev Command (α : Type) := Hermes → Except ControllerError (α × Hermes)

/-- The arguments of `kanban create --initial-status blocked`. -/
structure CreateArgs where
  board : String
  body : CardBody
  assignee : Option String
  parents : List CardId
  tenant : String
  idempotencyKey : String
  skills : List String
  deriving DecidableEq, Repr

namespace Hermes

def newTask (h : Hermes) (a : CreateArgs) (now : Nat) : HermesTask where
  id := ⟨h.nextTask⟩
  board := a.board
  body := a.body
  assignee := a.assignee
  status := .blocked
  createdBy := some "hollysys-controller"
  createdAt := now
  idempotencyKey := some a.idempotencyKey
  tenant := some a.tenant
  skills := a.skills
  parents := a.parents

/-- `create`: idempotent in the key, archived tasks ignored. -/
def create (a : CreateArgs) (now : Nat) : Command CardId := fun h =>
  match h.taskByIdempotency a.board a.idempotencyKey with
  | some t => .ok (t.id, h)
  | none =>
    let h' := { h with tasks := h.tasks ++ [h.newTask a now], nextTask := h.nextTask + 1 }
    .ok (⟨h.nextTask⟩, h'.appendEvent a.board ⟨h.nextTask⟩ "created" now none none)

/-- Every parent of the task is done or archived. -/
def parentsSettled (h : Hermes) (t : HermesTask) : Bool :=
  t.parents.all fun p => (h.find t.board p).all fun q => !q.status.isActive

/-- `promote`: a blocked or waiting task becomes `ready`, or `todo` while a
parent is open, and one `promoted_manual` event is appended. -/
def promote (board : String) (id : CardId) (now : Nat) : Command Unit := fun h =>
  match h.find board id with
  | none => .error (commandFailed "unknown task")
  | some t =>
    if t.status = .blocked ∨ t.status = .todo then
      let status := if h.parentsSettled t then .ready else .todo
      .ok ((), (h.updateTask board id (·.withStatus status)).appendEvent
        board id "promoted_manual" now none none)
    else .error (commandFailed "cannot promote")

/-- `complete` by the Controller. -/
def complete (board : String) (id : CardId) (metadata : Option RawMetadata) (now : Nat) :
    Command Unit := fun h =>
  match h.find board id with
  | none => .error (commandFailed "unknown task")
  | some t =>
    if t.status = .ready ∨ t.status = .running ∨ t.status = .blocked then
      let run := { id := h.nextRun, outcome := some "completed", metadata }
      let h' := h.updateTask board id (·.completed run)
      .ok ((), { h' with nextRun := h.nextRun + 1 }.appendEvent board id "completed" now
        (some run.id) none)
    else .error (commandFailed "cannot complete")

/-- `specify_triage_task`: a card in triage waits in `todo`, its fields unchanged. -/
def specify (board : String) (id : CardId) (now : Nat) : Command Unit := fun h =>
  match h.find board id with
  | none => .error (commandFailed "unknown task")
  | some t =>
    if t.status = .triage then
      .ok ((), (h.updateTask board id (·.withStatus .todo)).appendEvent
        board id "specified" now none none)
    else .error (commandFailed "cannot specify")

def comment (board : String) (id : CardId) (c : Comment) (now : Nat) : Command Unit := fun h =>
  match h.find board id with
  | none => .error (commandFailed "unknown task")
  | some _ =>
    .ok ((), (h.updateTask board id (·.withComment c)).appendEvent
      board id "commented" now none none)

/-- `reclaim --expected-run-id --expected-worker-pid`, as patched: only a running
task with that run and PID, to `ready`, or to `archived` with `--archive`. The
patched update is the only write of the status. -/
def reclaim (board : String) (id : CardId) (expectedRunId expectedWorkerPid : Nat)
    (archive : Bool) (now : Nat) : Command Unit := fun h =>
  match h.find board id with
  | none => .error (commandFailed "unknown task")
  | some t =>
    if t.createdBy = some "hollysys-controller" ∧ t.status = .running ∧
        t.currentRunId = some expectedRunId ∧ t.workerPid = some expectedWorkerPid then
      let h' := h.updateTask board id (·.reclaimed archive)
      let h' := h'.appendEvent board id "reclaimed" now (some expectedRunId)
        (some { workerPid := some expectedWorkerPid })
      .ok ((), if archive then h'.appendEvent board id "archived" now (some expectedRunId) none
        else h')
    else .error (commandFailed "cannot reclaim")

/-- `archive --expected-unclaimed`. -/
def archive (board : String) (id : CardId) (now : Nat) : Command Unit := fun h =>
  match h.find board id with
  | none => .error (commandFailed "unknown task")
  | some t =>
    if t.status ≠ .archived ∧ t.workerPid = none ∧ t.currentRunId = none then
      .ok ((), (h.updateTask board id (·.withStatus .archived)).appendEvent
        board id "archived" now none none)
    else .error (commandFailed "cannot archive")

/-! ## Lookups after updates -/

variable {h : Hermes}

theorem mem_of_find {board : String} {id : CardId} {t : HermesTask}
    (hf : h.find board id = some t) : t ∈ h.tasks ∧ t.board = board ∧ t.id = id := by
  have hp := List.find?_some hf
  simp only [Bool.and_eq_true, beq_iff_eq] at hp
  exact ⟨List.mem_of_find?_eq_some hf, hp⟩

theorem find_updateTask {board : String} {id : CardId} {f : HermesTask → HermesTask}
    (hf : ∀ t, (f t).board = t.board ∧ (f t).id = t.id) (board' : String) (id' : CardId) :
    (h.updateTask board id f).find board' id' =
      (h.find board' id').map fun t => if t.board = board ∧ t.id = id then f t else t := by
  simp only [find, updateTask, List.find?_map]
  congr 2
  funext t
  simp only [Function.comp_apply]
  split
  · simp [hf t]
  · rfl

theorem find_updateTask_self {board : String} {id : CardId} {f : HermesTask → HermesTask}
    (hf : ∀ t, (f t).board = t.board ∧ (f t).id = t.id) :
    (h.updateTask board id f).find board id = (h.find board id).map f := by
  rw [find_updateTask hf]
  rcases ht : h.find board id with _ | t
  · rfl
  · simp [(mem_of_find ht).2]

theorem find_updateTask_ne {board board' : String} {id id' : CardId}
    {f : HermesTask → HermesTask} (hf : ∀ t, (f t).board = t.board ∧ (f t).id = t.id)
    (hne : ¬ (board' = board ∧ id' = id)) :
    (h.updateTask board id f).find board' id' = h.find board' id' := by
  rw [find_updateTask hf]
  rcases ht : h.find board' id' with _ | t
  · rfl
  · obtain ⟨-, hb, hi⟩ := mem_of_find ht
    have : ¬ (t.board = board ∧ t.id = id) := by rw [hb, hi]; exact hne
    simp [this]

@[simp] theorem find_appendEvent (board : String) (id : CardId) (kind : String) (now : Nat)
    (runId : Option Nat) (payload : Option EventPayload) (board' : String) (id' : CardId) :
    (h.appendEvent board id kind now runId payload).find board' id' = h.find board' id' := rfl

/-! ## Events after updates -/

@[simp] theorem eventKinds_updateTask (board : String) (id : CardId) (f : HermesTask → HermesTask)
    (board' : String) (id' : CardId) :
    (h.updateTask board id f).eventKinds board' id' = h.eventKinds board' id' := rfl

theorem eventKinds_appendEvent (board : String) (id : CardId) (kind : String) (now : Nat)
    (runId : Option Nat) (payload : Option EventPayload) (board' : String) (id' : CardId) :
    (h.appendEvent board id kind now runId payload).eventKinds board' id' =
      h.eventKinds board' id' ++ if board' = board ∧ id' = id then [kind] else [] := by
  simp only [eventKinds, appendEvent, List.filter_append, List.map_append]
  congr 1
  by_cases hc : board' = board ∧ id' = id
  · simp [hc.1, hc.2]
  · have : ¬ (board = board' ∧ id = id') := fun h => hc ⟨h.1.symm, h.2.symm⟩
    simp [hc, this]

/-! ## Commands by their cases -/

/-- The board after a promotion to `status`. -/
def promoted (h : Hermes) (board : String) (id : CardId) (status : TaskStatus) (now : Nat) :
    Hermes :=
  (h.updateTask board id (·.withStatus status)).appendEvent board id "promoted_manual" now none none

theorem find_promoted {board : String} {id : CardId} {t : HermesTask}
    (hf : h.find board id = some t) (status : TaskStatus) (now : Nat) :
    (h.promoted board id status now).find board id = some (t.withStatus status) := by
  simp only [promoted, find_appendEvent]
  rw [find_updateTask_self (f := (·.withStatus status)) fun _ => ⟨rfl, rfl⟩, hf]
  rfl

theorem find_promoted_ne {board board' : String} {id id' : CardId}
    (hne : ¬ (board' = board ∧ id' = id)) (status : TaskStatus) (now : Nat) :
    (h.promoted board id status now).find board' id' = h.find board' id' := by
  simp only [promoted, find_appendEvent]
  exact find_updateTask_ne (f := (·.withStatus status)) (fun _ => ⟨rfl, rfl⟩) hne

/-- A promotion moves a blocked or waiting task and is logged, or it fails. -/
theorem promote_cases (h : Hermes) (board : String) (id : CardId) (now : Nat) :
    (∃ t status, h.find board id = some t ∧ (t.status = .blocked ∨ t.status = .todo) ∧
      (status = .ready ∨ status = .todo) ∧
      promote board id now h = .ok ((), h.promoted board id status now)) ∨
    ∃ text, promote board id now h = .error (commandFailed text) := by
  unfold promote
  cases hf : h.find board id with
  | none => exact .inr ⟨_, rfl⟩
  | some t =>
    dsimp only
    split
    · refine .inl ⟨t, if h.parentsSettled t then .ready else .todo, rfl, ‹_›, ?_, rfl⟩
      split <;> simp
    · exact .inr ⟨_, rfl⟩

/-- A CAS reclaim moves a running task and is logged, or it fails. -/
theorem reclaim_cases (h : Hermes) (board : String) (id : CardId) (runId pid now : Nat)
    (archive : Bool) :
    (∃ t, h.find board id = some t ∧ t.status = .running ∧
      ∃ h', reclaim board id runId pid archive now h = .ok ((), h') ∧
        h'.tasks = (h.updateTask board id (·.reclaimed archive)).tasks ∧
        ∃ es, h'.events = h.events ++ es ∧ ∀ e ∈ es, e.kind = "reclaimed" ∨ e.kind = "archived") ∨
    ∃ text, reclaim board id runId pid archive now h = .error (commandFailed text) := by
  unfold reclaim
  cases hf : h.find board id with
  | none => exact .inr ⟨_, rfl⟩
  | some t =>
    dsimp only
    split
    · rename_i hc
      refine .inl ⟨t, rfl, hc.2.1, _, rfl, ?_, ?_⟩
      · split <;> rfl
      · split
        · exact ⟨_, List.append_assoc _ _ _, by simp⟩
        · exact ⟨_, rfl, by simp⟩
    · exact .inr ⟨_, rfl⟩

end Hermes

end HollysysController
