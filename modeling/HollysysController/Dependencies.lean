import HollysysController.Exceptions

/-! # Dependency outages

A dependency error opens an outage of the run, or of the whole host, and
degrades the run. A pass that succeeds closes the run's own outages. -/

namespace HollysysController

open Durable

/-! ## Failure -/

/-- `_dependency_scope` of a run's error. -/
def dependencyScope (runKey : String) (kind : DependencyKind) (c : ErrorContext) : String :=
  if c.dependency = "gitlab" ∧ (kind = .auth ∨ kind = .rateLimited) then c.dependency
  else s!"{c.dependency}:{runKey}"

def failureOf (cfg : Config) (dependency : String) (kind : DependencyKind) (c : ErrorContext) :
    DependencyFailure where
  dependency
  kind
  initialBackoffSeconds := cfg.dependencyBackoffInitialSeconds
  maximumBackoffSeconds := cfg.dependencyBackoffMaxSeconds
  retryAfterSeconds := c.retryAfterSeconds

/-- Enough runs with a transient GitLab outage of their own open the outage of
the whole host. -/
def openHostCircuit (cfg : Config) (kind : DependencyKind) (c : ErrorContext) : Service Unit := do
  let runs ← store .corroboratingRuns
  if cfg.dependencyCircuitFailureThreshold ≤ runs.length then
    let outage ← store (.recordDependencyFailure (failureOf cfg "gitlab" kind c))
    runs.forM fun runKey => store (.associateOutageRun "gitlab" outage.outageId runKey)
  else pure ()

/-- `_enqueue_dependency_outage`: best effort. -/
def enqueueDependencyOutage (cfg : Config) (runKey : String) (outage : Outage) : Service Unit :=
  if !cfg.progressNotices && outage.kind != .auth then pure ()
  else do
    match ← (history runKey).attempt with
    | .error _ => pure ()
    | .ok _ => store (.enqueue
        { key := s!"{runKey}:dependency-outage:{outage.outageId}", runKey,
          event := "dependency-outage" })

/-- The state a dependency failure moves a run to, if it moves it. -/
def degradedState (s : RunState) : Option RunState :=
  if s.isReconcilable then some .dependencyDegraded
  else if s = .abortRequested ∨ s = .aborting then some s
  else none

def outageReason (kind : DependencyKind) (c : ErrorContext) : String :=
  let code := c.errorCode.getD "unavailable"
  s!"{c.dependency}:{kind.errorClass}:{code}"

/-- `_handle_dependency_error`. A contract error is raised again. -/
def handleDependencyError (cfg : Config) (runKey : String) (kind : DependencyKind)
    (text : String) (c : ErrorContext) : Service Unit :=
  if kind = .contract then raise (.dependency kind text c)
  else do
    let scope := dependencyScope runKey kind c
    let outage ← store (.recordDependencyFailure (failureOf cfg scope kind c))
    store (.associateOutageRun scope outage.outageId runKey)
    if c.dependency = "gitlab" ∧ scope ≠ "gitlab" ∧ kind = .transient then
      openHostCircuit cfg kind c
    match ← store (.runControl runKey) with
    | none => pure ()
    | some control =>
      match degradedState control.state with
      | none => pure ()
      | some newState =>
        let _ ← store (.transitionRun {
          runKey
          expectedStates := [control.state]
          newState
          reason := outageReason kind c
          expectedVersion := some control.stateVersion
          nextRetryAt := some outage.nextRetryAt })
    enqueueDependencyOutage cfg runKey outage

/-! ## Recovery -/

/-- `_enqueue_dependency_recovered`: best effort. -/
def enqueueDependencyRecovered (cfg : Config) (runKey : String) (outage : Outage) :
    Service Unit :=
  if !cfg.progressNotices && outage.kind != .auth then pure ()
  else do
    match ← (history runKey).attempt with
    | .error _ => pure ()
    | .ok _ => store (.enqueue
        { key := s!"{runKey}:dependency-recovered:{outage.outageId}", runKey,
          event := "dependency-recovered" })

/-- The transition of a degraded run once an outage is over: it stays degraded
while another outage of the run is open. -/
def recoveryTransition (runKey base : String) (control : RunControl) (remaining : List Outage) :
    Transition where
  runKey
  expectedStates := [.dependencyDegraded]
  newState := if remaining = [] then .active else .dependencyDegraded
  reason := if remaining = [] then s!"{base}_dependency_recovered"
    else "dependency_recovery_partial"
  expectedVersion := some control.stateVersion
  nextRetryAt := (remaining.map (·.nextRetryAt)).min?

/-- `_finish_dependency_recovery` for one run of the outage. -/
def finishRunRecovery (cfg : Config) (base runKey : String) (outage : Outage) : Service Unit := do
  match ← store (.runControl runKey) with
  | none => pure ()
  | some control =>
    if control.state = .dependencyDegraded then
      let remaining ← store (.runOutages runKey)
      let _ ← store (.transitionRun (recoveryTransition runKey base control remaining))
    else pure ()
  enqueueDependencyRecovered cfg runKey outage

/-- `_finish_dependency_recovery`. -/
def finishDependencyRecovery (cfg : Config) (base dependency : String) (outage : Outage) :
    Service Unit := do
  let runs ← store (.outageRunKeys dependency outage.outageId)
  runs.forM fun runKey => finishRunRecovery cfg base runKey outage

/-- `_recover_run_dependency`: close a due outage of the run after a pass that
succeeded. -/
def recoverRunDependency (cfg : Config) (runKey base : String) : Service Unit := do
  let now ← host .now
  let scope := s!"{base}:{runKey}"
  match ← store (.openOutage scope) with
  | none => pure ()
  | some outage =>
    if now < outage.nextRetryAt then pure ()
    else
      let associated ← store (.outageRunKeys scope outage.outageId)
      if !associated.contains runKey then pure ()
      else
        match ← store (.recoverDependency scope) with
        | none => pure ()
        | some recovered => finishDependencyRecovery cfg base scope recovered

end HollysysController
