import HollysysController.Workflow

/-! # The history of a run

A reconcile starts from the managed cards of the run in ledger order, each
with the task Hermes has for it, after checking that no body was modified. -/

namespace HollysysController

open Durable

structure HistoryItem where
  managed : ManagedCard
  task : TaskRecord

namespace HistoryItem

def isWork (i : HistoryItem) : Bool := i.managed.purpose == .work

def isRoot (i : HistoryItem) : Bool := i.managed.purpose == .root

/-- The card is a work card of the stage. -/
def atStage (i : HistoryItem) (s : Stage) : Bool := i.managed.stage == .work s

def hasComment (i : HistoryItem) (marker : String) : Bool :=
  i.task.comments.any fun c => hasText marker c.body

end HistoryItem

def protocolErrorMarker : String := "[controller-protocol-error:v4]"

def fromExcept {α : Type} : Except ControllerError α → Service α
  | .ok a => .pure a
  | .error e => raise e

def fromText {α : Type} : Except String α → Service α
  | .ok a => .pure a
  | .error t => raise (.valueError t)

/-- `sorted(a) == sorted(b)`. -/
def sameElements (a b : List String) : Bool := decide (a.Perm b)

/-- `_verify_root`. -/
def verifyRoot (task : TaskRecord) (run : RunRecord) : Except ControllerError Unit :=
  if task.createdBy ≠ some "hollysys-controller" ∨
      task.idempotencyKey ≠ some s!"{run.runKey}:run-init" ∨ task.tenant ≠ some run.runKey ∨
      task.parents ≠ [] ∨ task.body ≠ .run run then
    .error (.valueError s!"created run root {task.id.text} does not match intent")
  else .ok ()

/-- `_verify_work`. -/
def verifyWork (task : TaskRecord) (record : CardRecord) : Except ControllerError Unit :=
  if task.createdBy ≠ some "hollysys-controller" ∨
      task.idempotencyKey ≠ some record.idempotencyKey ∨ task.tenant ≠ some record.run.runKey ∨
      task.assignee ≠ some record.assignee ∨ task.parents ≠ [record.parentCardId] ∨
      !sameElements task.skills record.skills then
    .error (.valueError s!"created card {task.id.text} does not match controller intent")
  else match parseCardBody task.body with
    | .error t => .error (.valueError t)
    | .ok parsed =>
      if parsed = record then .ok ()
      else .error (.valueError s!"created card {task.id.text} body changed during creation")

/-- What `_history` checks of a work item. -/
def verifyWorkItem (run : RunRecord) (i : HistoryItem) : Except ControllerError Unit :=
  match parseCardBody i.task.body with
  | .error t => .error (.valueError t)
  | .ok record =>
    if record.run ≠ run ∨ i.managed.stage ≠ .work record.stage ∨
        record.iteration ≠ i.managed.iteration ∨
        record.idempotencyKey ≠ i.managed.idempotencyKey ∨
        some record.parentCardId ≠ i.managed.parentCardId then
      .error (.valueError s!"managed card {i.task.id.text} body was modified")
    else verifyWork i.task record

/-- `for item in items`, the work items only. -/
def verifyWorkItems (run : RunRecord) : List HistoryItem → Except ControllerError Unit
  | [] => .ok ()
  | i :: is =>
    if i.isWork then
      match verifyWorkItem run i with
      | .ok _ => verifyWorkItems run is
      | .error e => .error e
    else verifyWorkItems run is

/-- The checks of `_history` on the items it read. -/
def verifyHistory (runKey : String) (items : List HistoryItem) :
    Except ControllerError RunRecord :=
  match items.find? (·.isRoot) with
  | none => .error (.runtimeError s!"run {runKey} has no managed root")
  | some root =>
    match parseRunBody root.task.body with
    | .error t => .error (.valueError t)
    | .ok run =>
      match verifyRoot root.task run with
      | .error e => .error e
      | .ok _ =>
        if root.managed.runKey ≠ run.runKey then
          .error (.valueError s!"managed run root {root.task.id.text} was modified")
        else match verifyWorkItems run items with
          | .error e => .error e
          | .ok _ => .ok run

/-- Read the task of each managed card. -/
def readItems : List ManagedCard → Service (List HistoryItem)
  | [] => pure []
  | c :: cs => do
    match ← hermes (.task c.board c.cardId) with
    | none => raise (.runtimeError s!"managed card disappeared: {c.cardId.text}")
    | some task =>
      let items ← readItems cs
      pure ({ managed := c, task } :: items)

/-- `_history`. -/
def history (runKey : String) : Service (List HistoryItem × RunRecord) := do
  let cards ← store (.cardsForRun runKey)
  if cards.isEmpty then raise (.valueError s!"unknown run {runKey}")
  else
    let items ← readItems cards
    let run ← fromExcept (verifyHistory runKey items)
    pure (items, run)

/-! ## Counting over a history -/

/-- A document review of the stage that was completed and not marked as a
protocol error. -/
def countsAsReview (s : Stage) (i : HistoryItem) : Bool :=
  i.isWork && i.atStage s && s.isDocumentReview && i.task.status == .done &&
    !i.hasComment protocolErrorMarker &&
    match validatePersistedCompletionMetadata i.task.latestMetadata with
    | .ok m => m.outcome == .pass || m.outcome == .fail
    | .error _ => false

/-- `_review_attempts_by_stage(history).get(stage, 0)`. -/
def reviewAttempts (items : List HistoryItem) (s : Stage) : Nat :=
  items.countP (countsAsReview s)

/-- `_protocol_failures_by_stage(history).get(stage, 0)`. -/
def protocolFailures (items : List HistoryItem) (s : CardStage) : Nat :=
  items.countP fun i => i.isWork && i.managed.stage == s && i.hasComment protocolErrorMarker

/-- `_attempts_by_stage`: the cards of the stage that are no protocol error. -/
def stageAttempts (items : List HistoryItem) (s : Stage) : Nat :=
  items.countP fun i => i.isWork && i.atStage s && !i.hasComment protocolErrorMarker

/-- `_latest_valid_completion`: the last completion of the gate with one of the
outcomes, after the last card of the producer it judges. -/
def latestValidCompletion (items : List HistoryItem) (s : Stage) (outcomes : List Outcome) :
    Option CompletionMetadata :=
  let isProducer (i : HistoryItem) : Bool :=
    i.isWork && (producerForReview s).any fun p => i.atStage p
  (items.reverse.takeWhile fun i => !isProducer i).findSome? fun i =>
    if i.atStage s && i.task.status == .done then
      match validatePersistedCompletionMetadata i.task.latestMetadata with
      | .ok m => if m.outcome ∈ outcomes then some m else none
      | .error _ => none
    else none

/-! ## What a verified history guarantees -/

theorem verifyWorkItems_mem {run : RunRecord} {items : List HistoryItem} {u : Unit}
    (h : verifyWorkItems run items = .ok u) {i : HistoryItem} (hi : i ∈ items)
    (hw : i.isWork = true) : verifyWorkItem run i = .ok () := by
  induction items with
  | nil => cases hi
  | cons j js ih =>
    simp only [verifyWorkItems] at h
    rcases List.mem_cons.mp hi with rfl | hj
    · simp only [hw, if_true] at h
      split at h
      · rename_i hv
        exact hv
      · cases h
    · split at h
      · split at h
        · exact ih h hj
        · cases h
      · exact ih h hj

/-- A verified work item carries the card record its ledger row names. -/
theorem verifyWorkItem_record {run : RunRecord} {i : HistoryItem} {u : Unit}
    (h : verifyWorkItem run i = .ok u) :
    ∃ record, i.task.body = .work record ∧ record.run = run ∧
      i.managed.stage = .work record.stage ∧ i.managed.parentCardId = some record.parentCardId ∧
      i.managed.idempotencyKey = record.idempotencyKey := by
  unfold verifyWorkItem parseCardBody at h
  split at h
  · cases h
  · rename_i record hb
    split at hb
    · rename_i r hbody
      cases hb
      split at h
      · cases h
      · rename_i hne
        simp only [not_or, not_not, ne_eq] at hne
        exact ⟨record, hbody, hne.1, hne.2.1, hne.2.2.2.2.symm, hne.2.2.2.1.symm⟩
    · cases hb

theorem verifyHistory_work {runKey : String} {items : List HistoryItem} {run : RunRecord}
    (h : verifyHistory runKey items = .ok run) {i : HistoryItem} (hi : i ∈ items)
    (hw : i.isWork = true) : verifyWorkItem run i = .ok () := by
  unfold verifyHistory at h
  split at h
  · cases h
  · split at h
    · cases h
    · split at h
      · cases h
      · split at h
        · cases h
        · split at h <;> cases h
          next hitems => exact verifyWorkItems_mem hitems hi hw

theorem latestValidCompletion_mem {items : List HistoryItem} {s : Stage}
    {outcomes : List Outcome} {m : CompletionMetadata}
    (h : latestValidCompletion items s outcomes = some m) :
    ∃ i ∈ items, i.managed.stage = .work s ∧ i.task.status = .done ∧
      validatePersistedCompletionMetadata i.task.latestMetadata = .ok m ∧ m.outcome ∈ outcomes := by
  obtain ⟨i, hi, hfound⟩ := List.exists_of_findSome?_eq_some h
  have hmem : i ∈ items := List.mem_reverse.mp ((List.takeWhile_prefix _).subset hi)
  split at hfound
  · next hat =>
    simp only [HistoryItem.atStage, Bool.and_eq_true, beq_iff_eq] at hat
    split at hfound
    · next hm =>
      split at hfound
      · next hout =>
        cases hfound
        exact ⟨i, hmem, hat.1, hat.2, hm, hout⟩
      · cases hfound
    · cases hfound
  · cases hfound

/-- The run of a verified history is that of its root card. -/
theorem verifyHistory_root {runKey : String} {items : List HistoryItem} {run : RunRecord}
    (h : verifyHistory runKey items = .ok run) :
    ∃ root ∈ items, root.isRoot = true ∧ root.managed.runKey = run.runKey := by
  unfold verifyHistory at h
  split at h
  · cases h
  · next root hroot =>
    split at h
    · cases h
    · split at h
      · cases h
      · split at h
        · cases h
        · next hkey =>
          split at h <;> cases h
          exact ⟨root, List.mem_of_find?_eq_some hroot, List.find?_some hroot, not_not.mp hkey⟩

end HollysysController
