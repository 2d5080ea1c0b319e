import HollysysController.Cards
import HollysysController.Durable.Closure

/-! # The operation ledger at work

`operation` runs an external mutation under a durable key: a done operation is
answered from the ledger, and what an action raises decides the status that
stays behind. -/

namespace HollysysController

open Durable

/-- The configuration values and the digests the service functions use. -/
structure Config where
  documentReviewLimit : Nat := 3
  codeModificationLimit : Nat := 5
  protocolRetryLimit : Nat := 2
  workerRedispatchLimit : Nat := 2
  workerProgressLeaseSeconds : Nat := 1800
  workerSlowWarningSeconds : Nat := 900
  workerHeartbeatStaleSeconds : Nat := 300
  providerTempfailCooldownSeconds : Nat := 300
  dependencyBackoffInitialSeconds : Nat := 5
  dependencyBackoffMaxSeconds : Nat := 300
  dependencyCircuitFailureThreshold : Nat := 5
  /-- `notification_level` is not `minimal`. -/
  progressNotices : Bool := true
  /-- `notification_level` is `verbose`. -/
  verboseNotices : Bool := true
  abortAdminOpenIds : List String := []
  abortConfirmationTtlSeconds : Nat := 600
  projectsRoot : String := "/workspace/projects"
  stageAssignees : Stage → String := fun s => s.value
  stageSkills : Stage → List String := fun _ => []
  /-- `hashlib.sha256(text.encode()).hexdigest()`. -/
  sha256 : String → String
  /-- The digest of a card's context payload. -/
  contextDigest : CardRecord → String

/-- `_run_control`: a run without a row counts as active at version 1. -/
def runControl (runKey : String) : Service RunControl := do
  let control ← store (.runControl runKey)
  pure (control.getD {})

/-- `_assert_reconcile_mutable`. -/
def assertReconcileMutable (runKey : String) : Service RunControl := do
  let control ← runControl runKey
  if control.state.isReconcilable then pure control
  else raise (.superseded s!"reconcile_superseded:{runKey}")

/-- The version check around an operation that is bound to a run. -/
def assertVersion (run : Option String) (version : Option Nat) (text : String) : Service Unit :=
  match run, version with
  | some runKey, some version => do
    let control ← assertReconcileMutable runKey
    if control.stateVersion ≠ version then raise (.superseded s!"{text}:{runKey}")
    else pure ()
  | _, _ => pure ()

/-- What `_operation` does with the error its action raised. -/
def settleFailure (c : OperationCall) (e : ControllerError) : Service OperationResult :=
  match e with
  | .superseded _ => raise e
  | .dependency _ text _ => do
    store (.markOperationUncertain c.key text)
    raise e
  | .checkedHeadConflict text => do
    store (.supersedeOperation c.key text)
    raise e
  | .runPolicy text | .valueError text => do
    store (.failOperation c.key text)
    raise e
  | .runtimeError text | .permissionError text | .fatal text => do
    store (.markOperationUncertain c.key text)
    raise (.fatal s!"operation_failed_without_classification:{c.kind}:{text}")

/-- What the ledger does not answer is attempted. -/
def runOperation (c : OperationCall) (run : Option String) (action : Service OperationResult) :
    Option OperationResult → Service OperationResult
  | some previous => pure previous
  | none => do
    let attempted : Service OperationResult := do
      let result ← action
      store (.finishOperation c.key result)
      assertVersion run c.expectedStateVersion "discarded_stale_operation_result"
      pure result
    match ← attempted.attempt with
    | .ok result => pure result
    | .error e => settleFailure c e

/-- `_operation`. -/
def operation (c : OperationCall) (run : Option String) (action : Service OperationResult) :
    Service OperationResult := do
  assertVersion run c.expectedStateVersion "operation_state_version_changed"
  let previous ← store (.operationResult c)
  runOperation c run action previous

/-- Without a run there is no version to check. -/
theorem operation_unbound (c : OperationCall) (action : Service OperationResult) :
    operation c none action = (store (.operationResult c)).bind (runOperation c none action) := rfl

/-! ## The ledger -/

/-- A claimed operation was not done, and its row is executing afterwards. -/
structure Claimed (c : OperationCall) (s s' : Store) (row : OperationRow) : Prop where
  store : s' = { s with operations := s.operations.put c.key row }
  kind : row.kind = c.kind
  payload : row.payload = c.payload
  status : row.status = .executing
  before : ∀ old, s.operations c.key = some old →
    old.kind = c.kind ∧ ¬ (old.status = .done ∧ old.result.isSome)

/-- A call of the ledger is refused, answered, or claims the operation. -/
theorem operationResult_cases (c : OperationCall) (now : Nat) (s : Store) :
    (∃ e, operationResult c now s = .error e) ∨
    (∃ r, operationResult c now s = .ok (some r, s)) ∨
    ∃ s' row, operationResult c now s = .ok (none, s') ∧ Claimed c s s' row := by
  unfold operationResult
  cases hrow : s.operations c.key with
  | none => exact .inr (.inr ⟨_, _, rfl, rfl, rfl, rfl, rfl, fun _ h => by simp [hrow] at h⟩)
  | some row =>
    dsimp only
    split
    · exact .inl ⟨_, rfl⟩
    · rename_i hsame
      simp only [not_or, not_not] at hsame
      split
      · exact .inl ⟨_, rfl⟩
      · split
        · exact .inl ⟨_, rfl⟩
        · split
          · rename_i hdone
            obtain ⟨r, hr⟩ := Option.isSome_iff_exists.mp hdone.2
            exact .inr (.inl ⟨r, by rw [hr]⟩)
          · rename_i hdone
            refine .inr (.inr ⟨_, _, rfl, rfl, hsame.1, hsame.2, rfl, fun old h => ?_⟩)
            rw [hrow] at h
            cases h
            exact ⟨hsame.1, hdone⟩

theorem operationResult_claimed {c : OperationCall} {now : Nat} {s s' : Store}
    (h : operationResult c now s = .ok (none, s')) : ∃ row, Claimed c s s' row := by
  rcases operationResult_cases c now s with ⟨e, hx⟩ | ⟨r, hx⟩ | ⟨s₁, row, hx, hc⟩ <;>
    rw [hx] at h <;> cases h
  exact ⟨row, hc⟩

/-! ## What an operation is made of -/

/-- The ledger transactions of a call. -/
def OperationCall.ledger (c : OperationCall) (run : Option String) : StoreOp → Prop
  | .runControl runKey => run = some runKey
  | .operationResult c' => c' = c
  | .finishOperation key _ | .failOperation key _ | .supersedeOperation key _
  | .markOperationUncertain key _ => key = c.key
  | _ => False

section Closed

variable {K : ∀ {α : Type}, Service α → Prop} (h : Closed K)
include h

theorem assertReconcileMutable_closed {runKey : String}
    (hs : K (store (.runControl runKey))) : K (assertReconcileMutable runKey) := by
  refine h.bind (h.bind hs fun _ => h.pure _) fun control => ?_
  split
  · exact h.pure _
  · exact h.raise _

variable {c : OperationCall} {run : Option String} (hs : ∀ o, c.ledger run o → K (store o))
include hs

theorem assertVersion_closed (version : Option Nat) (text : String) :
    K (assertVersion run version text) := by
  unfold assertVersion
  split
  · refine h.bind (assertReconcileMutable_closed h (hs _ rfl)) fun control => ?_
    split
    · exact h.raise _
    · exact h.pure _
  · exact h.pure _

theorem settleFailure_closed (e : ControllerError) : K (settleFailure c e) := by
  cases e with
  | superseded => exact h.raise _
  | dependency | checkedHeadConflict | runPolicy | valueError | runtimeError | permissionError
  | fatal => exact h.bind (hs _ rfl) fun _ => h.raise _

/-- What holds of the ledger transactions and of the action holds of the operation. -/
theorem operation_closed {action : Service OperationResult} (ha : K action) :
    K (operation c run action) := by
  have hv := fun text => assertVersion_closed h hs c.expectedStateVersion text
  refine h.bind (hv _) fun _ => h.bind (hs _ rfl) fun previous => ?_
  cases previous with
  | some => exact h.pure _
  | none =>
    refine h.bind (h.attempt ?_) fun r => ?_
    · exact h.bind ha fun _ => h.bind (hs _ rfl) fun _ => h.bind (hv _) fun _ => h.pure _
    · cases r with
      | ok => exact h.pure _
      | error e => exact settleFailure_closed h hs e

end Closed

end HollysysController
