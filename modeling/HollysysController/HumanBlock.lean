import HollysysController.CodeFlow

/-! # Blocked cards

What the Controller makes of a blocked work card: a fused worker, a publish
that was interrupted, a human block with its contract, or a block without one. -/

namespace HollysysController

open Durable

/-! ## The block comment -/

def requiredHumanBlockFields : List String :=
  ["block_id", "evidence", "kind", "required_action", "resume_check", "summary"]

def gatedHumanBlockFields : List String := ["contract_refs", "gate_phase", "requirement_ids"]

def allowedHumanBlockKinds : List String :=
  ["permission", "credential", "environment", "unsafe_retry", "destructive_approval"]

/-- The characters `str.splitlines` breaks a text at. -/
def isLineBreak (c : Char) : Bool :=
  ["\n", "\r", "\x0b", "\x0c", "\x1c", "\x1d", "\x1e", "\u0085", "\u2028", "\u2029"].any
    fun s => s.toList == [c]

def trim (cs : List Char) : String := String.ofList (strip (String.ofList cs))

/-- The field a line of the comment sets, if it sets one. -/
def parsedField (line : List Char) : Option (String × String) :=
  match line.dropWhile (· != ':') with
  | [] => none
  | _ :: value =>
    let key := trim (line.takeWhile (· != ':'))
    if (requiredHumanBlockFields ++ gatedHumanBlockFields).contains key then
      some (key, trim value)
    else none

/-- `_human_block_fields`, the last line of a field first. -/
def humanBlockFields (comment : String) : List (String × String) :=
  ((comment.toList.splitOnP isLineBreak).filterMap parsedField).reverse

def fieldOf (fields : List (String × String)) (key : String) : Option String :=
  (fields.find? (·.1 == key)).map (·.2)

/-- The required fields a block comment leaves out, sorted. -/
def missingFields (fields : List (String × String)) : List String :=
  requiredHumanBlockFields.filter fun key => (fieldOf fields key).isNone

/-- The phases that no local implementation or code check can wait for. -/
def laterGatePhases : List String :=
  ["migration_execution", "deployment_entry", "release_acceptance"]

/-- The gate part of `_valid_human_block`. -/
def validGatedBlock (fields : List (String × String)) (s : Stage) : Bool :=
  gatedHumanBlockFields.all (fun key => (fieldOf fields key).isSome) &&
    (fieldOf fields "gate_phase").any (fun phase =>
      ("implementation_entry" :: "implementation_completion" :: laterGatePhases).contains phase) &&
    truthy (fieldOf fields "requirement_ids") && truthy (fieldOf fields "contract_refs") &&
    !((s == .implement || s.isCodeGate) &&
      (fieldOf fields "gate_phase").any laterGatePhases.contains)

/-- `_valid_human_block`. -/
def validHumanBlock (fields : List (String × String)) (s : Stage) : Bool :=
  missingFields fields == [] && (fieldOf fields "kind").any allowedHumanBlockKinds.contains &&
    if (fieldOf fields "kind").any ["environment", "destructive_approval"].contains then
      validGatedBlock fields s
    else true

/-- The latest human-block comment of the card. -/
def humanBlockComment (task : TaskRecord) : Option String :=
  (task.comments.reverse.find? fun c => hasText "[human-block:v1]" c.body).map (·.body)

/-! ## Handling -/

def fuseKinds : List String := ["gave_up", "spawn_auto_blocked"]

/-- The latest event with which Hermes gave a worker up. -/
def fuseEvent (task : TaskRecord) : Option String :=
  task.eventKinds.reverse.find? fuseKinds.contains

def fuseReason (cfg : Config) (i : HistoryItem) (kind : String) : String :=
  s!"worker redispatch budget exhausted; stage={i.managed.stage.value}; card={i.task.id.text}; " ++
    s!"event={kind}; limit={cfg.workerRedispatchLimit}"

/-- A fused worker: the card is archived and the run enters exception. -/
def fusedCard (cfg : Config) (run : RunRecord) (i : HistoryItem) (kind : String) :
    Service Unit := do
  let _ ← assertReconcileMutable run.runKey
  if !(← abortManagedTask cfg run.workspace.board i.task.id) then
    raise (.runPolicy "worker_recovery_pending")
  else
    let _ ← exception cfg run i.task.id (fuseReason cfg i kind)

def blockRejectedMarker : String := "[controller-block-rejected:v4]"

def rejectionReason (missing : List String) : String :=
  let reason := "unsupported human block; business ambiguity must be resolved autonomously"
  if missing = [] then reason else reason ++ "; missing=" ++ String.intercalate "," missing

/-- A block the contract does not allow. -/
def rejectedBlock (cfg : Config) (run : RunRecord) (i : HistoryItem)
    (fields : List (String × String)) : Service Unit := do
  let reason := rejectionReason (missingFields fields)
  if !i.hasComment blockRejectedMarker then
    let _ ← assertReconcileMutable run.runKey
    hermes (.comment run.workspace.board i.task.id
      { author := "hollysys-controller", body := s!"{blockRejectedMarker}\nreason: {reason}" })
  let _ ← exception cfg run i.task.id reason

/-- `_enqueue_human_block`. -/
def enqueueHumanBlock (cfg : Config) (run : RunRecord) (i : HistoryItem) (comment : String)
    (fields : List (String × String)) : Service Unit :=
  let token := ((fieldOf fields "block_id").filter (· != "")).getD
    (clip 20 (cfg.sha256 s!"{i.task.id.text}\x00{comment}"))
  store (.enqueue
    { key := s!"{run.runKey}:human-block:{token}", runKey := run.runKey, event := "human-block" })

/-- A valid block waits for a human. -/
def acceptedBlock (cfg : Config) (run : RunRecord) (i : HistoryItem) (comment : String)
    (fields : List (String × String)) : Service Unit := do
  enqueueHumanBlock cfg run i comment fields
  let current ← runControl run.runKey
  if current.state ≠ .humanBlocked then
    let _ ← store (.transitionRun {
      runKey := run.runKey
      expectedStates := [.active, .dependencyDegraded, .mergeWait, .transitionPending, .retryWait]
      newState := .humanBlocked
      reason := s!"human_block:{i.task.id.text}"
      expectedVersion := some current.stateVersion })

/-- A worker that blocked its card with a human-block comment. -/
def humanBlock (cfg : Config) (run : RunRecord) (i : HistoryItem) (comment : String) :
    Service Unit := do
  let fields := humanBlockFields comment
  let stage ← fromText i.workStage
  if validHumanBlock fields stage then acceptedBlock cfg run i comment fields
  else rejectedBlock cfg run i fields

/-- A worker that blocked its card without a word. -/
def silentBlock (cfg : Config) (run : RunRecord) (i : HistoryItem) : Service Unit := do
  enqueueControllerFailure cfg run.runKey
    (.valueError s!"blocked card {i.task.id.text} has no [human-block:v1] comment")
  let _ ← exception cfg run i.task.id "blocked card has no valid human block contract"

/-- One blocked work card. The answer is whether the pass ends with it. -/
def blockedCard (cfg : Config) (run : RunRecord) (i : HistoryItem) : Service Bool :=
  match fuseEvent i.task with
  | some kind => do
    fusedCard cfg run i kind
    pure true
  | none =>
    match i.task.latestOutcome with
    | none => do
      -- No attempt ever ended, so the Controller's own publish was interrupted.
      let _ ← assertReconcileMutable run.runKey
      let _ ← ensureWorkPublished run i.task
      pure true
    | some outcome =>
      if outcome ≠ "blocked" then pure false
      else do
        match humanBlockComment i.task with
        | some comment => humanBlock cfg run i comment
        | none => silentBlock cfg run i
        pure true

/-- The blocked work cards among the active cards, up to the first that ends
the pass. -/
def blockedCards (cfg : Config) (run : RunRecord) : List HistoryItem → Service Bool
  | [] => pure false
  | i :: is => do
    if i.isWork && i.task.status == .blocked then
      if ← blockedCard cfg run i then pure true else blockedCards cfg run is
    else blockedCards cfg run is

end HollysysController
