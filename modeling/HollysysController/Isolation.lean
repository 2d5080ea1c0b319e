import HollysysController.Durable.Loops
import HollysysController.Startup

/-! # One run does not stop the others

The daemon ends when a periodic pass fails with anything but a dependency
error. Whether a failure met at one run stays with that run depends on the step
it is met in: some steps have handlers around each run, some have none, and a
handler can fail itself. -/

namespace HollysysController

open Durable

/-! ## What may befall a pass -/

/-- The store and the clock do not fail by themselves. -/
def Op.isReliable : Op → Bool
  | .store _ | .host .now => true
  | _ => false

/-- The other threads work on the store, Hermes, GitLab and the host may fail at every
operation, and nothing stops the process. -/
structure Undying (E : Setting Op ControllerError World) : Prop where
  others : ∀ w w', E.others w w' → serving.others w w'
  unstopped : ∀ w o f, E.faults w o f → f ≠ .stopBefore ∧ f ≠ .stopAfter
  reliable : ∀ w o f, o.isReliable = true → E.faults w o f → f = .none

/-! ## How far a pass has come -/

/-- The last step of a pass for one live run. -/
def periodicIntent (sweep : Sweep) (runKey : String) : Service Unit :=
  store (.enqueueReconcile runKey "periodic-full-reconcile" none (sweep.intentId runKey))

section Stages

variable (cfg : Config) (sweep : Sweep) (E : Setting Op ControllerError World) (w : World)

/-- The requests are gone through. -/
def RequestsDone (w₁ : World) : Prop :=
  Worked machine E (requestStep cfg sweep) sweep.requests w w₁

/-- So are the aborts, and `runs` are to be upgraded. -/
def UpgradesListed (runs : List String) (w₃ : World) : Prop :=
  ∃ w₁ w₂, RequestsDone cfg sweep E w w₁ ∧
    Worked machine E (abortStep cfg sweep) sweep.abortRuns w₁ w₂ ∧
    Runs machine E (store .runKeys) w₂ (.returned runs) w₃

/-- So are the upgrades, and the circuit has been looked at. -/
def CircuitRead (blocked : Bool) (w₅ : World) : Prop :=
  ∃ runs w₃ w₄, UpgradesListed cfg sweep E w runs w₃ ∧
    Worked machine E (upgradeStep cfg sweep) runs w₃ w₄ ∧
    Runs machine E (store (.retryBlocked "gitlab")) w₄ (.returned blocked) w₅

/-- GitLab was asked for its health, and the circuit has been looked at again. -/
def CircuitReread (blocked : Bool) (w₇ : World) : Prop :=
  ∃ w₅ w₆, CircuitRead cfg sweep E w false w₅ ∧
    Runs machine E (recoverGitlabCircuit cfg) w₅ (.returned ()) w₆ ∧
    Runs machine E (store (.retryBlocked "gitlab")) w₆ (.returned blocked) w₇

/-- The cooldowns of `runs` are to be released. -/
def CooldownsListed (now : Nat) (runs : List String) (w₉ : World) : Prop :=
  ∃ w₇ w₈, CircuitReread cfg sweep E w false w₇ ∧
    Runs machine E (host .now) w₇ (.returned now) w₈ ∧
    Runs machine E (store .runKeys) w₈ (.returned runs) w₉

/-- They are, and the workers of `runs` are to be watched. -/
def WorkersListed (now : Nat) (runs : List String) (w₁₂ : World) : Prop :=
  ∃ before cooling w₉ w₁₀ w₁₁, CooldownsListed cfg sweep E w before cooling w₉ ∧
    Worked machine E (cooldownStep sweep before) cooling w₉ w₁₀ ∧
    Runs machine E (host .now) w₁₀ (.returned now) w₁₁ ∧
    Runs machine E (store .runKeys) w₁₁ (.returned runs) w₁₂

/-- They are. -/
def WorkersWatched (w₁₃ : World) : Prop :=
  ∃ now runs w₁₂, WorkersListed cfg sweep E w now runs w₁₂ ∧
    Worked machine E (watchdogStep cfg sweep now) runs w₁₂ w₁₃

/-- Every run went through every step. While GitLab's circuit is in backoff, the steps after
the upgrades are left to a later pass. -/
def Processed (w' : World) : Prop :=
  CircuitRead cfg sweep E w true w' ∨ CircuitReread cfg sweep E w true w' ∨
    ∃ w₁₃, WorkersWatched cfg sweep E w w₁₃ ∧
      Worked machine E (periodicIntent sweep) sweep.activeRuns w₁₃ w'

/-- **What fault isolation asks of the passes over `w`.** -/
structure Isolated : Prop where
  /-- No failure leaves the pass, and every run is processed. -/
  processed : ∀ r w', Runs machine E (reconcileAll cfg sweep) w r w' →
    r = .returned () ∧ Processed cfg sweep E w w'
  /-- A run that is being aborted stays in the abort states. -/
  aborting : ∀ r w' k row, Runs machine E (reconcileAll cfg sweep) w r w' →
    w.store.runControl k = some row → row.state.inAbort = true →
      ∃ row', w'.store.runControl k = some row' ∧ row'.state.inAbort = true

/-- Each failure met at one run is of a class that its step handles there, and the handling
does not fail itself. The circuit, the cooldowns, the watchdog and the intents have no
handlers around a run. -/
structure Handled : Prop where
  requests : ∀ q w₁ e w₂, Meets machine E (requestStep cfg sweep) sweep.requests w q w₁ →
    Runs machine E (resumeRequest cfg sweep q) w₁ (.raised e) w₂ → e.isFatal = false
  aborts : ∀ w₁ k w₂ e w₃, RequestsDone cfg sweep E w w₁ →
    Meets machine E (abortStep cfg sweep) sweep.abortRuns w₁ k w₂ →
    Runs machine E (abortRun cfg sweep k) w₂ (.raised e) w₃ →
      e.isDependency = true ∧ Contained machine E (settleAbort cfg k e) w₃
  upgrades : ∀ runs w₁ k w₂ e w₃, UpgradesListed cfg sweep E w runs w₁ →
    Meets machine E (upgradeStep cfg sweep) runs w₁ k w₂ →
    Runs machine E (upgradeLegacy cfg sweep k) w₂ (.raised e) w₃ →
      e.isDependency = true ∧ e.isDependencyContract = false ∧
        Contained machine E (settleUpgrade cfg k e) w₃
  circuit : ∀ w₁, CircuitRead cfg sweep E w false w₁ →
    Contained machine E (recoverGitlabCircuit cfg) w₁
  cooldowns : ∀ now runs w₁ k w₂, CooldownsListed cfg sweep E w now runs w₁ →
    Meets machine E (cooldownStep sweep now) runs w₁ k w₂ →
    Contained machine E (cooldownStep sweep now k) w₂
  watchdog : ∀ now runs w₁ k w₂, WorkersListed cfg sweep E w now runs w₁ →
    Meets machine E (watchdogStep cfg sweep now) runs w₁ k w₂ →
    Contained machine E (watchdogStep cfg sweep now k) w₂
  intents : ∀ w₁ k w₂, WorkersWatched cfg sweep E w w₁ →
    Meets machine E (periodicIntent sweep) sweep.activeRuns w₁ k w₂ →
    Contained machine E (periodicIntent sweep k) w₂

end Stages

/-! ## The steps and their handlers -/

variable {cfg : Config} {sweep : Sweep} {E : Setting Op ControllerError World} {w : World}

theorem requestStep_guarded (q : PersistedRequest) : requestStep cfg sweep q =
    guarded (resumeRequest cfg sweep q) fun e => if e.isFatal then raise e else pure () :=
  congrArg (Prog.bind _) (funext fun r => by cases r <;> rfl)

theorem abortStep_guarded (runKey : String) : abortStep cfg sweep runKey =
    guarded (abortRun cfg sweep runKey) (settleAbort cfg runKey) :=
  congrArg (Prog.bind _) (funext fun r => by cases r <;> rfl)

theorem upgradeStep_guarded (runKey : String) : upgradeStep cfg sweep runKey =
    guarded (upgradeLegacy cfg sweep runKey) (settleUpgrade cfg runKey) :=
  congrArg (Prog.bind _) (funext fun r => by cases r <;> rfl)

theorem contained_requestStep {q : PersistedRequest} :
    Contained machine E (requestStep cfg sweep q) w ↔
      ∀ e w₁, Runs machine E (resumeRequest cfg sweep q) w (.raised e) w₁ → e.isFatal = false := by
  rw [requestStep_guarded, contained_guarded]
  refine forall₂_congr fun e w₁ => imp_congr_right fun _ => ?_
  cases e.isFatal with
  | true => exact ⟨fun h => absurd h not_contained_raise, nofun⟩
  | false => exact ⟨fun _ => rfl, fun _ => contained_pure⟩

/-- Only dependency errors are settled after an abort. -/
theorem settleAbort_dependency {runKey : String} {e : ControllerError}
    (h : Contained machine E (settleAbort cfg runKey e) w) : e.isDependency = true := by
  cases e with
  | dependency => rfl
  | valueError | checkedHeadConflict | runtimeError | permissionError | runPolicy | superseded
  | fatal => exact absurd h not_contained_raise

/-- Contract errors are handed on by the handler of dependency errors. -/
theorem settleUpgrade_dependency {runKey : String} {e : ControllerError}
    (h : Contained machine E (settleUpgrade cfg runKey e) w) :
    e.isDependency = true ∧ e.isDependencyContract = false := by
  cases e with
  | dependency kind =>
    cases kind with
    | contract => exact absurd h not_contained_raise
    | transient | rateLimited | auth => exact ⟨rfl, rfl⟩
  | valueError | checkedHeadConflict | runtimeError | permissionError | runPolicy | superseded
  | fatal => exact absurd h not_contained_raise

theorem contained_abortStep {runKey : String} :
    Contained machine E (abortStep cfg sweep runKey) w ↔
      ∀ e w₁, Runs machine E (abortRun cfg sweep runKey) w (.raised e) w₁ →
        e.isDependency = true ∧ Contained machine E (settleAbort cfg runKey e) w₁ := by
  rw [abortStep_guarded, contained_guarded]
  exact forall₂_congr fun e w₁ => imp_congr_right fun _ =>
    ⟨fun h => ⟨settleAbort_dependency h, h⟩, fun h => h.2⟩

theorem contained_upgradeStep {runKey : String} :
    Contained machine E (upgradeStep cfg sweep runKey) w ↔
      ∀ e w₁, Runs machine E (upgradeLegacy cfg sweep runKey) w (.raised e) w₁ →
        e.isDependency = true ∧ e.isDependencyContract = false ∧
          Contained machine E (settleUpgrade cfg runKey e) w₁ := by
  rw [upgradeStep_guarded, contained_guarded]
  exact forall₂_congr fun e w₁ => imp_congr_right fun _ =>
    ⟨fun h => ⟨(settleUpgrade_dependency h).1, (settleUpgrade_dependency h).2, h⟩, fun h => h.2.2⟩

/-! ## The whole pass -/

section Undying

variable (hE : Undying E)
include hE

theorem contained_runKeys : Contained machine E (store .runKeys) w :=
  contained_op (fun _ _ => hE.reliable _ _ _ rfl) fun _ _ => ⟨_, rfl⟩

theorem contained_retryBlocked (dependency : String) :
    Contained machine E (store (.retryBlocked dependency)) w :=
  contained_op (fun _ _ => hE.reliable _ _ _ rfl) fun _ _ => ⟨_, rfl⟩

theorem contained_now : Contained machine E (host .now) w :=
  contained_op (fun _ _ => hE.reliable _ _ _ rfl) fun _ _ => ⟨_, rfl⟩

/-- A list of runs is taken at a time that is read before it. -/
theorem contained_listed {f : Nat → String → Service Unit} :
    Contained machine E (do
      let now ← host .now
      let runs ← store .runKeys
      runs.forM (f now)) w ↔
    ∀ now w₁ runs w₂, Runs machine E (host .now) w (.returned now) w₁ →
      Runs machine E (store .runKeys) w₁ (.returned runs) w₂ →
      ∀ k w₃, Meets machine E (f now) runs w₂ k w₃ → Contained machine E (f now k) w₃ := by
  refine contained_bind.trans ⟨fun h now w₁ runs w₂ hnow hruns => ?_, fun h =>
    ⟨contained_now hE, fun now w₁ hnow => contained_bind.mpr ⟨contained_runKeys hE,
      fun runs w₂ hruns => contained_forM.mpr (h now w₁ runs w₂ hnow hruns)⟩⟩⟩
  exact contained_forM.mp ((contained_bind.mp (h.2 now w₁ hnow)).2 runs w₂ hruns)

end Undying

theorem runs_listed {f : Nat → String → Service Unit} {w' : World} :
    Runs machine E (do
      let now ← host .now
      let runs ← store .runKeys
      runs.forM (f now)) w (.returned ()) w' ↔
    ∃ now runs w₁ w₂, Runs machine E (host .now) w (.returned now) w₁ ∧
      Runs machine E (store .runKeys) w₁ (.returned runs) w₂ ∧
      Worked machine E (f now) runs w₂ w' := by
  constructor
  · intro h
    obtain ⟨now, w₁, hnow, h⟩ := runs_bind_returned.mp h
    obtain ⟨runs, w₂, hruns, h⟩ := runs_bind_returned.mp h
    exact ⟨now, runs, w₁, w₂, hnow, hruns, runs_forM.mp h⟩
  · rintro ⟨now, runs, w₁, w₂, hnow, hruns, h⟩
    exact runs_bind_returned.mpr ⟨now, w₁, hnow,
      runs_bind_returned.mpr ⟨runs, w₂, hruns, runs_forM.mpr h⟩⟩

/-- The steps of a pass that need GitLab. -/
def gitlabSteps (cfg : Config) (sweep : Sweep) : Service Unit := do
  releaseProviderCooldowns sweep
  enqueueStaleWorkerNotices cfg sweep
  sweep.activeRuns.forM (periodicIntent sweep)

/-- The steps of a pass from the first look at the circuit. -/
def circuitSteps (cfg : Config) (sweep : Sweep) : Service Unit := do
  if ← store (.retryBlocked "gitlab") then pure ()
  else
    recoverGitlabCircuit cfg
    if ← store (.retryBlocked "gitlab") then pure ()
    else gitlabSteps cfg sweep

theorem reconcileAll_eq : reconcileAll cfg sweep = (do
    sweep.requests.forM (requestStep cfg sweep)
    sweep.abortRuns.forM (abortStep cfg sweep)
    let runs ← store .runKeys
    runs.forM (upgradeStep cfg sweep)
    circuitSteps cfg sweep) := rfl

/-- A pass that answers has processed every run. -/
theorem processed_of_runs {w' : World} (h : Runs machine E (reconcileAll cfg sweep) w
    (.returned ()) w') : Processed cfg sweep E w w' := by
  rw [reconcileAll_eq] at h
  obtain ⟨⟨⟩, w₁, hrequests, h⟩ := runs_bind_returned.mp h
  obtain ⟨⟨⟩, w₂, haborts, h⟩ := runs_bind_returned.mp h
  obtain ⟨runs, w₃, hruns, h⟩ := runs_bind_returned.mp h
  obtain ⟨⟨⟩, w₄, hupgrades, h⟩ := runs_bind_returned.mp h
  have hlisted : UpgradesListed cfg sweep E w runs w₃ :=
    ⟨w₁, w₂, runs_forM.mp hrequests, runs_forM.mp haborts, hruns⟩
  obtain ⟨blocked, w₅, hblocked, h⟩ := runs_bind_returned.mp h
  have hread : CircuitRead cfg sweep E w blocked w₅ :=
    ⟨runs, w₃, w₄, hlisted, runs_forM.mp hupgrades, hblocked⟩
  cases blocked with
  | true =>
    cases h
    exact .inl hread
  | false =>
    obtain ⟨⟨⟩, w₆, hcircuit, h⟩ := runs_bind_returned.mp h
    obtain ⟨blocked, w₇, hblocked, h⟩ := runs_bind_returned.mp h
    have hreread : CircuitReread cfg sweep E w blocked w₇ := ⟨w₅, w₆, hread, hcircuit, hblocked⟩
    cases blocked with
    | true =>
      cases h
      exact .inr (.inl hreread)
    | false =>
      obtain ⟨⟨⟩, w₁₀, hcooling, h⟩ := runs_bind_returned.mp h
      obtain ⟨⟨⟩, w₁₃, hwatch, h⟩ := runs_bind_returned.mp h
      obtain ⟨before, cooling, w₈, w₉, hbefore, hc, hreleased⟩ := runs_listed.mp hcooling
      obtain ⟨now, runs, w₁₁, w₁₂, hnow, hr, hwatched⟩ := runs_listed.mp hwatch
      exact .inr (.inr ⟨w₁₃, ⟨now, runs, w₁₂, ⟨before, cooling, w₉, w₁₀, w₁₁,
        ⟨w₇, w₈, hreread, hbefore, hc⟩, hreleased, hnow, hr⟩, hwatched⟩, runs_forM.mp h⟩)

/-- **A pass is contained when every failure in it is handled.** -/
theorem contained_reconcileAll (hE : Undying E) :
    Contained machine E (reconcileAll cfg sweep) w ↔ Handled cfg sweep E w := by
  rw [reconcileAll_eq]
  constructor
  · intro h
    obtain ⟨hrequests, h⟩ := contained_forM_bind.mp h
    have habort : ∀ w₁, RequestsDone cfg sweep E w w₁ → _ ∧ _ :=
      fun w₁ h₁ => contained_forM_bind.mp (h w₁ h₁)
    have hupgrade : ∀ runs w₃, UpgradesListed cfg sweep E w runs w₃ →
        (∀ k w₄, Meets machine E (upgradeStep cfg sweep) runs w₃ k w₄ →
          Contained machine E (upgradeStep cfg sweep k) w₄) ∧
        ∀ w₄, Worked machine E (upgradeStep cfg sweep) runs w₃ w₄ →
          Contained machine E (circuitSteps cfg sweep) w₄ := by
      rintro runs w₃ ⟨w₁, w₂, h₁, h₂, h₃⟩
      have hruns := contained_bind.mp ((habort w₁ h₁).2 w₂ h₂)
      exact contained_forM_bind.mp (hruns.2 runs w₃ h₃)
    have hcircuit : ∀ w₅, CircuitRead cfg sweep E w false w₅ →
        Contained machine E (recoverGitlabCircuit cfg) w₅ ∧
        ∀ w₆ w₇, Runs machine E (recoverGitlabCircuit cfg) w₅ (.returned ()) w₆ →
          Runs machine E (store (.retryBlocked "gitlab")) w₆ (.returned false) w₇ →
          Contained machine E (gitlabSteps cfg sweep) w₇ := by
      rintro w₅ ⟨runs, w₃, w₄, h₃, h₄, h₅⟩
      have hread := contained_bind.mp ((hupgrade runs w₃ h₃).2 w₄ h₄)
      obtain ⟨hrecover, hreread⟩ := contained_bind.mp (hread.2 false w₅ h₅)
      exact ⟨hrecover, fun w₆ w₇ h₆ h₇ => (contained_bind.mp (hreread () w₆ h₆)).2 false w₇ h₇⟩
    have hcooldown : ∀ w₇, CircuitReread cfg sweep E w false w₇ →
        Contained machine E (releaseProviderCooldowns sweep) w₇ ∧
        ∀ w₁₀, Runs machine E (releaseProviderCooldowns sweep) w₇ (.returned ()) w₁₀ →
          Contained machine E (enqueueStaleWorkerNotices cfg sweep) w₁₀ ∧
          ∀ w₁₃, Runs machine E (enqueueStaleWorkerNotices cfg sweep) w₁₀ (.returned ()) w₁₃ →
            Contained machine E (sweep.activeRuns.forM (periodicIntent sweep)) w₁₃ := by
      rintro w₇ ⟨w₅, w₆, h₅, h₆, h₇⟩
      obtain ⟨hrelease, hrest⟩ := contained_bind.mp ((hcircuit w₅ h₅).2 w₆ w₇ h₆ h₇)
      refine ⟨hrelease, fun w₁₀ h₁₀ => ?_⟩
      obtain ⟨hwatch, hintents⟩ := contained_bind.mp (hrest () w₁₀ h₁₀)
      exact ⟨hwatch, fun w₁₃ h₁₃ => hintents () w₁₃ h₁₃⟩
    refine ⟨fun q w₁ e w₂ hq => ?_, fun w₁ k w₂ e w₃ h₁ hk => ?_,
      fun runs w₁ k w₂ e w₃ h₁ hk => ?_, fun w₁ h₁ => (hcircuit w₁ h₁).1,
      fun now runs w₁ k w₂ h₁ hk => ?_, fun now runs w₁ k w₂ h₁ hk => ?_,
      fun w₁ k w₂ h₁ hk => ?_⟩
    · exact contained_requestStep.mp (hrequests q w₁ hq) e w₂
    · exact contained_abortStep.mp ((habort w₁ h₁).1 k w₂ hk) e w₃
    · exact contained_upgradeStep.mp ((hupgrade runs w₁ h₁).1 k w₂ hk) e w₃
    · obtain ⟨w₇, w₈, h₇, h₈, h₉⟩ := h₁
      exact (contained_listed hE).mp (hcooldown w₇ h₇).1 now w₈ runs w₁ h₈ h₉ k w₂ hk
    · obtain ⟨before, cooling, w₉, w₁₀, w₁₁, ⟨w₇, w₈, h₇, h₈, h₉⟩, h₁₀, h₁₁, h₁₂⟩ := h₁
      have hrun := runs_listed.mpr ⟨before, cooling, w₈, w₉, h₈, h₉, h₁₀⟩
      exact (contained_listed hE).mp ((hcooldown w₇ h₇).2 w₁₀ hrun).1
        now w₁₁ runs w₁ h₁₁ h₁₂ k w₂ hk
    · obtain ⟨now, runs, w₁₂, ⟨before, cooling, w₉, w₁₀, w₁₁, ⟨w₇, w₈, h₇, h₈, h₉⟩, h₁₀, h₁₁,
        h₁₂⟩, h₁₃⟩ := h₁
      have hrun := runs_listed.mpr ⟨before, cooling, w₈, w₉, h₈, h₉, h₁₀⟩
      have hrun' := runs_listed.mpr ⟨now, runs, w₁₁, w₁₂, h₁₁, h₁₂, h₁₃⟩
      exact contained_forM.mp (((hcooldown w₇ h₇).2 w₁₀ hrun).2 w₁ hrun') k w₂ hk
  · intro h
    refine contained_forM_bind.mpr ⟨fun q w₁ hq => contained_requestStep.mpr fun e w₂ =>
      h.requests q w₁ e w₂ hq, fun w₁ h₁ => ?_⟩
    refine contained_forM_bind.mpr ⟨fun k w₂ hk => contained_abortStep.mpr fun e w₃ =>
      h.aborts w₁ k w₂ e w₃ h₁ hk, fun w₂ h₂ => ?_⟩
    refine contained_bind.mpr ⟨contained_runKeys hE, fun runs w₃ h₃ => ?_⟩
    have hlisted : UpgradesListed cfg sweep E w runs w₃ := ⟨w₁, w₂, h₁, h₂, h₃⟩
    refine contained_forM_bind.mpr ⟨fun k w₄ hk => contained_upgradeStep.mpr fun e w₅ =>
      h.upgrades runs w₃ k w₄ e w₅ hlisted hk, fun w₄ h₄ => ?_⟩
    refine contained_bind.mpr ⟨contained_retryBlocked hE _, fun blocked w₅ h₅ => ?_⟩
    cases blocked with
    | true => exact contained_pure
    | false =>
      have hread : CircuitRead cfg sweep E w false w₅ := ⟨runs, w₃, w₄, hlisted, h₄, h₅⟩
      refine contained_bind.mpr ⟨h.circuit w₅ hread, fun _ w₆ h₆ => ?_⟩
      refine contained_bind.mpr ⟨contained_retryBlocked hE _, fun blocked w₇ h₇ => ?_⟩
      cases blocked with
      | true => exact contained_pure
      | false =>
        have hreread : CircuitReread cfg sweep E w false w₇ := ⟨w₅, w₆, hread, h₆, h₇⟩
        refine contained_bind.mpr ⟨(contained_listed hE).mpr fun now w₈ runs w₉ h₈ h₉ k w₁₀ =>
          h.cooldowns now runs w₉ k w₁₀ ⟨w₇, w₈, hreread, h₈, h₉⟩, fun _ w₁₀ h₁₀ => ?_⟩
        obtain ⟨before, cooling, w₈, w₉, h₈, h₉, h₁₀⟩ := runs_listed.mp h₁₀
        have hworkers : ∀ now w₁₁ runs w₁₂, Runs machine E (host .now) w₁₀ (.returned now) w₁₁ →
            Runs machine E (store .runKeys) w₁₁ (.returned runs) w₁₂ →
            WorkersListed cfg sweep E w now runs w₁₂ := fun now w₁₁ runs w₁₂ h₁₁ h₁₂ =>
          ⟨before, cooling, w₉, w₁₀, w₁₁, ⟨w₇, w₈, hreread, h₈, h₉⟩, h₁₀, h₁₁, h₁₂⟩
        refine contained_bind.mpr ⟨(contained_listed hE).mpr fun now w₁₁ runs w₁₂ h₁₁ h₁₂ k w₁₃ =>
          h.watchdog now runs w₁₂ k w₁₃ (hworkers now w₁₁ runs w₁₂ h₁₁ h₁₂), fun _ w₁₃ h₁₃ => ?_⟩
        obtain ⟨now, runs, w₁₁, w₁₂, h₁₁, h₁₂, h₁₃⟩ := runs_listed.mp h₁₃
        exact contained_forM.mpr fun k w₁₄ =>
          h.intents w₁₃ k w₁₄ ⟨now, runs, w₁₂, hworkers now w₁₁ runs w₁₂ h₁₁ h₁₂, h₁₃⟩

/-- An abort stays an abort through a pass. -/
theorem reconcileAll_advances (hE : Undying E) {r : Durable.Outcome ControllerError Unit}
    {w' : World} (h : Runs machine E (reconcileAll cfg sweep) w r w') :
    Advances w.store w'.store :=
  h.sound (wp_invariant (I := fun v : World => Advances w.store v.store)
    (fun v v' hv ho => hv.trans (serving_advances (hE.others v v' ho)))
    (fun o v ho hv => hv.trans (o.exec_advances ho v)) (issuing_uses.calling.reconcileAll cfg sweep)
    (.refl _))

theorem quiet_undying : Undying (Setting.quiet Op ControllerError World) where
  others w w' h := by
    cases h
    exact .refl
  unstopped _ _ _ h := by
    cases h
    exact ⟨nofun, nofun⟩
  reliable _ _ _ _ h := h

/-- One run is being aborted, with these cards left in Kanban, beside a live run. -/
def abortingWorld (tasks : List HermesTask) : World where
  store :=
    { runs := [sampleRun "run-a" "ga" 1, sampleRun "run-b" "gb" 2]
      managedCards :=
        [{ board := "app", cardId := ⟨1⟩, runKey := "run-a", stage := .runInit, iteration := 1,
           idempotencyKey := "run-a:run-init", parentCardId := none, purpose := .root,
           createdAt := 10 }]
      runControl := (Table.empty.put "run-b" {}).put "run-a"
        { state := .aborting, stateVersion := 3, abortRequestedBy := some "ou_1",
          abortReason := some "wrong branch", abortRequestedAt := some 90 } }
  hermes := { tasks, nextTask := 2 }
  gitlab := downGitLab
  now := 100

def abortingRoot : HermesTask where
  id := ⟨1⟩
  board := "app"
  body := .run (sampleRun "run-a" "ga" 1)
  assignee := none
  status := .done
  createdBy := some "hollysys-controller"
  createdAt := 10
  idempotencyKey := some "run-a:run-init"
  tenant := some "run-a"
  skills := []
  parents := []

def abortingSweep : Sweep where
  abortRuns := ["run-a"]
  activeRuns := ["run-b"]

end HollysysController
