import HollysysController.Durable.Loops
import HollysysController.Calls
import HollysysController.RunStates
import HollysysController.Start

/-! # Lost version races

A pass over a run reads the run's version and writes against it. Another thread
may have moved the run in between: the operations of the ledger answer that with
a superseded pass, the transitions of the store with a plain error, which the
policy around the pass takes for a defect of the run. -/

namespace HollysysController

open Durable

/-! ## What a pass owes to a winner -/

/-- `transition_run` was asked to move a run that another thread had moved. -/
def ControllerError.isStaleTransition : ControllerError → Bool
  | .valueError text => text == "stale_run_version" || text == "invalid_run_transition"
  | _ => false

/-- The version under the pass was gone. -/
def ControllerError.isLostRace (e : ControllerError) : Bool :=
  e.isSuperseded || e.isStaleTransition

/-- The part of `_reconcile_run_with_policy` that has handlers around it. -/
def reconcilePass (cfg : Config) (runKey : String) : Service Unit := do
  reconcileRun cfg runKey
  recoverRunDependency cfg runKey "kanban"
  recoverRunDependency cfg runKey "gitlab"

/-- Other threads may move the run, by dependency failures and recoveries or an abort, but
neither into exception nor from there back to work. Nothing else goes wrong. -/
structure Racing (runKey : String) (E : Setting Op ControllerError World) : Prop where
  idle : ∀ w, E.others w w
  calm : ∀ w o f, E.faults w o f ↔ f = .none
  enters : ∀ w w', E.others w w' → stateOf runKey w' = .exception → stateOf runKey w = .exception
  leaves : ∀ w w' row, E.others w w' → stateOf runKey w = .exception →
    w'.store.runControl runKey = some row → row.state.isReconcilable = false

section Statements

variable (cfg : Config) (runKey : String) (E : Setting Op ControllerError World) (w : World)

/-- The pass over the run from `w` ends with this error, in `w₁`. -/
def PassFails (e : ControllerError) (w₁ : World) : Prop :=
  ∃ w₀, Runs machine E (store (.retryBlocked "gitlab")) w (.returned false) w₀ ∧
    Runs machine E (reconcilePass cfg runKey) w₀ (.raised e) w₁

/-- **What a lost race must not do to the run or to the daemon.** -/
structure RacesSpare : Prop where
  /-- The run is not moved into exception for it. -/
  spared : ∀ e w₁ r w', PassFails cfg runKey E w e w₁ → e.isLostRace = true →
    Runs machine E (settleReconcile cfg runKey e) w₁ r w' →
    stateOf runKey w' = .exception → stateOf runKey w₁ = .exception
  /-- The daemon does not end with it. -/
  served : ∀ e w₁ r w' text, PassFails cfg runKey E w e w₁ → e.isLostRace = true →
    Runs machine E (settleReconcile cfg runKey e) w₁ r w' → r ≠ .raised (.fatal text)
  /-- Nor does a race that is lost while another error is settled. -/
  settled : ∀ e w₁ e' w', PassFails cfg runKey E w e w₁ →
    Runs machine E (settleReconcile cfg runKey e) w₁ (.raised e') w' → e'.isLostRace = true →
    stateOf runKey w' = .exception → stateOf runKey w₁ = .exception

/-- No transition of the pass is stale in a way that leaves the run, when the error is
looked at, in one of the states that `_record_run_exception` acts on. -/
def StaleUnrecorded : Prop :=
  ∀ e w₁ w₂ row, PassFails cfg runKey E w e w₁ → e.isStaleTransition = true →
    E.others w₁ w₂ → w₂.store.runControl runKey = some row → row.state.isReconcilable = false

end Statements

/-! ## The handlers -/

variable {cfg : Config} {runKey : String} {E : Setting Op ControllerError World} {w : World}

theorem reconcileWithPolicy_eq : reconcileWithPolicy cfg runKey = (do
    if ← store (.retryBlocked "gitlab") then pure ()
    else guarded (reconcilePass cfg runKey) (settleReconcile cfg runKey)) :=
  congrArg (Prog.bind _) (funext fun blocked => by
    cases blocked with
    | true => rfl
    | false => exact congrArg (Prog.bind _) (funext fun r => by cases r <;> rfl))

theorem enqueue_answers (row : OutboxRow) (s : Store) : ((enqueue row).commit s).1 = .ok () := by
  by_cases h : s.outbox.any (·.key == row.key) <;> simp [Txn.commit, enqueue, h]

/-- A refused exception is a plain error, and changes nothing. -/
theorem setRunException_error {reason : String} {e : ControllerError}
    (h : (machine.exec (.store (.setRunException runKey reason)) w).1 = .error e) :
    e.isValueError = true ∧ (StoreOp.exec w.now (.setRunException runKey reason) w.store).2 =
      w.store := by
  simp only [machine, Op.exec, StoreOp.exec, Txn.commit] at h ⊢
  cases hx : setRunException runKey reason w.now w.store with
  | ok a => simp [hx] at h
  | error e₁ =>
    simp only [hx, Except.error.injEq] at h
    refine ⟨?_, rfl⟩
    subst h
    unfold setRunException transitionRun at hx
    repeat' split at hx
    all_goals first | cases hx; rfl | cases hx

/-- A run at work is moved into exception. -/
theorem setRunException_reconcilable {reason : String} {row : RunControl}
    (hrow : w.store.runControl runKey = some row) (hstate : row.state.isReconcilable = true) :
    ∃ a, (machine.exec (.store (.setRunException runKey reason)) w).1 = .ok a ∧
      stateOf runKey (machine.exec (.store (.setRunException runKey reason)) w).2 =
        .exception := by
  have hne : row.state ≠ .exception := by
    rintro h
    rw [h] at hstate
    cases hstate
  have hmem : row.state ∈ unsettledStates := by
    revert hstate
    cases row.state <;> decide
  simp [machine, Op.exec, StoreOp.exec, Txn.commit, setRunException, transitionRun, hrow, hne,
    hmem, stateOf, Transition.apply]

section Racing

variable (hE : Racing runKey E)
include hE

/-- An operation runs in a state the others have led to. -/
theorem Racing.runs_op {o : Op} {r : Durable.Outcome ControllerError o.Ret} {w' : World}
    (h : Runs machine E (Prog.op o) w r w') : ∃ w₁, E.others w w₁ ∧
      w' = (machine.exec o w₁).2 ∧
      ((∃ a, r = .returned a ∧ (machine.exec o w₁).1 = .ok a) ∨
        ∃ e, r = .raised e ∧ (machine.exec o w₁).1 = .error e) := by
  cases h with
  | @answered _ _ _ w₁ f a _ _ _ ho hf hm hk =>
    cases (hE.calm _ _ _).mp hf
    simp only [Machine.meet, Prod.mk.injEq, Option.some.injEq] at hm
    obtain ⟨rfl, rfl⟩ := hm
    rcases hx : (machine.exec o w₁).1 with e | a
    · rw [hx] at hk
      cases hk
      exact ⟨w₁, ho, rfl, .inr ⟨e, rfl, hx⟩⟩
    · rw [hx] at hk
      cases hk
      exact ⟨w₁, ho, rfl, .inl ⟨a, rfl, hx⟩⟩
  | stopped ho hf hm =>
    cases (hE.calm _ _ _).mp hf
    cases hm

theorem Racing.contained_op {o : Op} (hok : ∀ w, ∃ a, (machine.exec o w).1 = .ok a) :
    Contained machine E (Prog.op o : Service o.Ret) w :=
  Durable.contained_op (fun _ _ hf => (hE.calm _ _ _).mp hf) fun w₁ _ => hok w₁

/-- The notice about a failure is best effort. -/
theorem Racing.contained_notice (e : ControllerError) :
    Contained machine E (enqueueControllerFailure cfg runKey e) w := by
  have hread : ∀ {w : World}, Contained machine E (noticeRun runKey) w := by
    intro w
    refine contained_bind.mpr ⟨hE.contained_op fun _ => ⟨_, rfl⟩, fun cards w₁ _ => ?_⟩
    split
    · exact hE.contained_op fun _ => ⟨_, rfl⟩
    · refine contained_bind.mpr ⟨hE.contained_op fun _ => ⟨_, rfl⟩, fun task w₂ _ => ?_⟩
      split
      · exact hE.contained_op fun _ => ⟨_, rfl⟩
      · split <;> exact contained_pure
  refine contained_bind.mpr ⟨hread, fun run w₁ _ => ?_⟩
  split
  · exact contained_pure
  · exact hE.contained_op fun v => ⟨(), enqueue_answers _ v.store⟩

/-- What `_record_run_exception` raises leaves the run where it was. -/
theorem Racing.recordRunException_raised {e e' : ControllerError} {w' : World}
    (h : Runs machine E (recordRunException cfg runKey e) w (.raised e') w') :
    e'.isValueError = true ∧ (stateOf runKey w' = .exception → stateOf runKey w = .exception) := by
  rcases runs_bind.mp h with ⟨control, w₁, hread, h⟩ | ⟨e₀, hread, -⟩ | ⟨-, hr⟩
  · obtain ⟨w₀, ho, rfl, -⟩ := hE.runs_op hread
    cases control with
    | none => cases h
    | some control =>
      dsimp only at h
      split at h
      · rcases runs_bind.mp h with ⟨row, w₂, hset, h⟩ | ⟨e₁, hset, hr⟩ | ⟨-, hr⟩
        · exact absurd h (hE.contained_notice e e' w')
        · cases hr
          obtain ⟨w₂, ho', rfl, ⟨a, hr, -⟩ | ⟨e₂, hr, hx⟩⟩ := hE.runs_op hset
          · cases hr
          · cases hr
            obtain ⟨hvalue, hstore⟩ := setRunException_error hx
            refine ⟨hvalue, fun hstate => hE.enters _ _ ho (hE.enters _ _ ho' ?_)⟩
            rw [exec_store] at hstate
            simpa [stateOf, hstore] using hstate
        · cases hr
      · cases h
  · obtain ⟨w₀, -, -, ⟨a, hr, -⟩ | ⟨e₂, hr, hx⟩⟩ := hE.runs_op hread
    · cases hr
    · cases hx
  · cases hr

/-- The bookkeeping of an outage moves no run into exception. -/
theorem Racing.bookkeeping {p : Prop} : Bookkeeping (fun {α} (q : Service α) =>
    Keeps machine E (fun v => stateOf runKey v = .exception → p) q) := by
  have hothers : ∀ v v', (stateOf runKey v = .exception → p) → E.others v v' →
      stateOf runKey v' = .exception → p := fun v v' hv ho hs => hv (hE.enters v v' ho hs)
  refine
    { closed_keeps with
      store := fun o ho => keeps_op hothers fun v hv => ?_
      hermes := fun o ho => keeps_op hothers fun v hv => hv
      gitlab := fun o ho => keeps_op hothers fun v hv => hv
      host := fun o => keeps_op hothers fun v hv => hv
      artifact := fun run m => keeps_op hothers fun v hv => hv
      outage := fun o ho => keeps_op hothers fun v hv hs => hv ?_
      transition := fun t _ ht _ => keeps_op hothers fun v hv hs => hv ?_ }
  · rw [(exec_read v).1 o ho]
    exact hv
  · have hget := o.exec_get (c := .control) v.now v.store
      (by cases o <;> simp_all [StoreOp.isOutage, StoreOp.writes])
    simp only [Column.get] at hget
    simpa [stateOf, hget] using hs
  · exact (transitionRun_avoids ht.2 v.now).commit v.store runKey hs

theorem Racing.handleDependencyError_keeps {p : Prop} (kind : DependencyKind) (text : String)
    (c : ErrorContext) : Keeps machine E (fun v => stateOf runKey v = .exception → p)
      (handleDependencyError cfg runKey kind text c) :=
  hE.bookkeeping.handleDependencyError cfg runKey kind text c

/-- A race that is lost while an error is settled leaves the run where it was. -/
theorem Racing.settle_raised {e e' : ControllerError} {w' : World}
    (h : Runs machine E (settleReconcile cfg runKey e) w (.raised e') w')
    (hrace : e'.isLostRace = true) :
    stateOf runKey w' = .exception → stateOf runKey w = .exception := by
  cases e with
  | superseded => cases h
  | runPolicy | valueError | checkedHeadConflict => exact (hE.recordRunException_raised h).2
  | dependency kind text c =>
    cases kind with
    | contract => exact (hE.recordRunException_raised h).2
    | transient | rateLimited | auth =>
      exact h.sound (hE.handleDependencyError_keeps _ text c w id)
  | fatal | runtimeError | permissionError =>
    cases h
    cases hrace

/-- What settles a lost race never ends the daemon. -/
theorem Racing.settle_served {e : ControllerError} {r : Durable.Outcome ControllerError Unit}
    {w' : World} (hrace : e.isLostRace = true)
    (h : Runs machine E (settleReconcile cfg runKey e) w r w') (text : String) :
    r ≠ .raised (.fatal text) := by
  rintro rfl
  cases e with
  | superseded => cases h
  | valueError => cases (hE.recordRunException_raised h).1
  | checkedHeadConflict | runPolicy | dependency | fatal | runtimeError | permissionError =>
    cases hrace

/-- The exception that is recorded for a stale transition. -/
theorem Racing.recordRunException_records {e : ControllerError} {w₁ : World} {row : RunControl}
    (ho : E.others w w₁) (hrow : w₁.store.runControl runKey = some row)
    (hstate : row.state.isReconcilable = true) :
    ∃ r w', Runs machine E (recordRunException cfg runKey e) w r w' ∧
      stateOf runKey w' = .exception := by
  obtain ⟨a, hset, hexception⟩ := setRunException_reconcilable hrow hstate
  have hnone : ∀ v o, E.faults v o .none := fun v o => (hE.calm v o _).mpr rfl
  let w₂ := (machine.exec (.store (.setRunException runKey e.text)) w₁).2
  let notice := enqueueControllerFailure cfg runKey e
  refine ⟨(machine.eval notice w₂).1, (machine.eval notice w₂).2,
    runs_bind.mpr (.inl ⟨some row, w₁, Durable.runs_op ho (hnone _ _) (congrArg _ hrow), ?_⟩), ?_⟩
  · dsimp only
    rw [if_pos hstate]
    exact runs_bind.mpr (.inl ⟨a, w₂, Durable.runs_op (hE.idle _) (hnone _ _) hset,
      eval_runs hE.idle hnone notice w₂⟩)
  · refine machine.eval_bind_keeps (I := fun v => stateOf runKey v = .exception)
      ((reading_keeps fun v => stateOf runKey v = .exception).noticeRun runKey w₂ hexception)
      fun run v hv => ?_
    split
    · exact hv
    · exact (stateOf_store (o := .enqueue _) (Prod.eta _).symm (by simp [StoreOp.writes])
        runKey).trans hv

end Racing

/-- Kanban timed out in a pass over the sample run, and its backoff is over. -/
def degradedWorld : World :=
  { (machine.eval (handleDependencyError sampleConfig "hollysys-k1" .transient "timeout"
      { dependency := "kanban" }) wholeStart.after).2 with now := 1000 }

/-- The recovery of the GitLab circuit takes the run back to work. -/
def circuitRecovered (w : World) : World :=
  (machine.exec (.store (.transitionRun
    (recoveryTransition "hollysys-k1" "gitlab" { stateVersion := 2 } []))) w).2

/-- The recovery of the circuit may come before any operation. -/
def besideCircuit : Setting Op ControllerError World where
  others w w' := w' = w ∨ w' = circuitRecovered w
  faults _ _ f := f = .none

theorem besideCircuit_racing : Racing "hollysys-k1" besideCircuit where
  idle _ := .inl rfl
  calm _ _ _ := Iff.rfl
  enters w w' ho hs := by
    rcases ho with rfl | rfl
    · exact hs
    · exact (transitionRun_avoids (by decide) w.now).commit w.store _ hs
  leaves w w' row ho hs hrow := by
    have hstate : ∀ r, w.store.runControl "hollysys-k1" = some r → r.state = .exception :=
      fun r hr => by simpa [stateOf, hr] using hs
    have hkept : w'.store.runControl "hollysys-k1" = w.store.runControl "hollysys-k1" := by
      rcases ho with rfl | rfl
      · rfl
      · cases hr : w.store.runControl "hollysys-k1" with
        | none => simp [circuitRecovered, StoreOp.exec, Txn.commit, transitionRun,
            recoveryTransition, hr]
        | some r => simp [circuitRecovered, StoreOp.exec, Txn.commit, transitionRun,
            recoveryTransition, hr, hstate r hr]
    rw [hkept] at hrow
    rw [hstate row hrow]
    rfl

/-- The circuit recovers between the read of the run and the recovery of its own outage. -/
def recoveryScript : List (World → World) :=
  List.replicate 14 id ++ [circuitRecovered]

theorem recoveryScript_allowed : ∀ m ∈ recoveryScript, ∀ w, besideCircuit.others w (m w) := by
  intro m hm w
  rcases List.mem_append.mp hm with hm | hm
  · rw [List.eq_of_mem_replicate hm]
    exact .inl rfl
  · rw [List.mem_singleton.mp hm]
    exact .inr rfl

theorem retryBlocked_same (dependency : String) (w : World) :
    (machine.exec (.store (.retryBlocked dependency)) w).2 = w := rfl

theorem quiet_racing (runKey : String) :
    Racing runKey (Setting.quiet Op ControllerError World) where
  idle _ := rfl
  calm _ _ _ := Iff.rfl
  enters _ _ ho hs := by
    cases ho
    exact hs
  leaves w _ row ho hs hrow := by
    cases ho
    have hstate : row.state = .exception := by simpa [stateOf, hrow] using hs
    rw [hstate]
    rfl

theorem passFails_quiet {cfg : Config} {runKey : String} {e : ControllerError} {w w₁ : World}
    (h : PassFails cfg runKey (Setting.quiet Op ControllerError World) w e w₁) :
    machine.eval (reconcilePass cfg runKey) w = (.raised e, w₁) := by
  obtain ⟨w₀, hread, hpass⟩ := h
  have hsame : w₀ = w := (congrArg Prod.snd (runs_quiet hread)).symm
  rw [← hsame]
  exact runs_quiet hpass

end HollysysController
