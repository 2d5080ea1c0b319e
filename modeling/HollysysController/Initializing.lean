import HollysysController.LostRaces
import HollysysController.Startup

/-! # Runs without a card

A run is found by the reconcile queries from the moment its control row exists,
and gets its first card only at the end of a start that may take several
attempts. While an attempt is under way it has the run to itself; between two
attempts nothing keeps a reconcile away. -/

namespace HollysysController

open Durable

/-! ## What a reconcile owes to the next attempt -/

/-- `_reconcile_run_with_policy`, when `_begin_reconcile` finds the run taken or not. -/
def reconcileUnlessTaken (cfg : Config) (taken : Bool) (runKey : String) : Service Unit :=
  if taken then do
    let _ ← store (.retryBlocked "gitlab")
    pure ()
  else reconcileWithPolicy cfg runKey

/-- The run has no managed card yet. -/
def Cardless (runKey : String) (w : World) : Prop := w.store.cardsForRun runKey = []

/-- Nothing that an attempt at the start of the run reads has changed: only outages, notices
and the rows of other runs may have. -/
structure Unharmed (runKey : String) (w w' : World) : Prop where
  row : w'.store.runControl runKey = w.store.runControl runKey
  tables : ∀ c : Column, c ∉ [Column.control, .outages, .outbox] →
    c.get w'.store = c.get w.store
  around : w'.hermes = w.hermes ∧ w'.gitlab = w.gitlab ∧ w'.host = w.host ∧ w'.now = w.now

/-- A start has the run, GitLab is in backoff, or the run is not at work. -/
def HeldOff (runKey : String) (taken : Bool) (w : World) : Prop :=
  taken = true ∨ w.store.retryBlocked "gitlab" w.now = true ∨
    ∀ row, w.store.runControl runKey = some row → row.state.isReconcilable = false

section Unharmed

variable {runKey : String} {w v : World}

theorem Unharmed.refl (w : World) : Unharmed runKey w w :=
  ⟨rfl, fun _ _ => rfl, rfl, rfl, rfl, rfl⟩

/-- What writes outages and notices only does no harm. -/
theorem Unharmed.store (h : Unharmed runKey w v) (o : StoreOp)
    (ho : o.writes ⊆ [Column.outages, .outbox]) :
    Unharmed runKey w (machine.eval (HollysysController.store o) v).2 := by
  rw [HollysysController.store, Machine.eval_op_state, exec_store]
  refine ⟨?_, fun c hc => ?_, h.around⟩
  · have hget := o.exec_get (c := .control) v.now v.store fun hmem => by simpa using ho hmem
    exact (congrFun hget runKey).trans h.row
  · refine (o.exec_get v.now v.store fun hmem => hc ?_).trans (h.tables c hc)
    exact List.mem_cons_of_mem _ (ho hmem)

/-- A transition of a run at work or in an abort does no harm to a run that is neither. -/
theorem Unharmed.transition (h : Unharmed runKey w v) {t : Transition}
    (hrow : ∀ row, w.store.runControl runKey = some row → row.state ∉ t.expectedStates) :
    Unharmed runKey w (machine.eval (HollysysController.store (.transitionRun t)) v).2 := by
  rw [HollysysController.store, Machine.eval_op_state, exec_store]
  refine ⟨?_, fun c hc => ?_, h.around⟩
  · refine Eq.trans ?_ h.row
    simp only [StoreOp.exec, Txn.commit]
    split
    · next hx =>
      unfold transitionRun at hx
      split at hx
      · cases hx
      · next row hv =>
        split at hx
        · cases hx
        · next hstate =>
          split at hx <;> cases hx
          refine Table.put_ne _ _ fun hk => ?_
          subst hk
          exact hrow row (h.row.symm.trans hv) (not_not.mp hstate)
    · rfl
  · refine ((StoreOp.transitionRun t).exec_get v.now v.store fun hmem => hc ?_).trans
      (h.tables c hc)
    rw [List.mem_singleton.mp hmem]
    exact List.mem_cons_self

/-- The bookkeeping of outages does no harm to a run that is neither at work nor aborted. -/
theorem unharmed_bookkeeping (hrow : ∀ row, w.store.runControl runKey = some row →
      row.state.isReconcilable = false ∧ row.state.isAborting = false) :
    Bookkeeping (fun {α} (p : Service α) =>
      ∀ v, Unharmed runKey w v → Unharmed runKey w (machine.eval p v).2) where
  toReading := reading_keeps _
  outage o ho v hv := hv.store o (by cases o <;> simp_all [StoreOp.isOutage, StoreOp.writes])
  transition t ht _ _ v hv := hv.transition fun row hr hmem => by
    obtain ⟨hwork, habort⟩ := hrow row hr
    rcases ht _ hmem with h | h <;> simp_all

end Unharmed

/-! ## One reconcile -/

section Reconcile

variable {cfg : Config} {runKey : String} {w : World}

theorem history_cardless (h : Cardless runKey w) : machine.eval (history runKey) w =
    (.raised (.valueError s!"unknown run {runKey}"), w) := by
  have hcards : machine.eval (store (.cardsForRun runKey)) w = (.returned [], w) := by
    rw [eval_store]
    exact congrArg (fun cards => (Durable.Outcome.returned cards, w)) h
  exact machine.eval_bind_of hcards

theorem eval_retryBlocked (dependency : String) (w : World) :
    machine.eval (store (.retryBlocked dependency)) w =
      (.returned (w.store.retryBlocked dependency w.now), w) := by
  rw [eval_store]
  rfl

/-- A pass over a run without a card that is not blocked: it ends at once, or with the
missing history. -/
theorem reconcileRun_cardless (h : Cardless runKey w)
    (hblocked : w.store.retryBlocked "gitlab" w.now = false) :
    machine.eval (reconcileRun cfg runKey) w = (.returned (), w) ∧
        stateOf runKey w ∈ [.exception, .humanBlocked] ∨
      machine.eval (reconcileRun cfg runKey) w = (.returned (), w) ∧
        (stateOf runKey w).isTerminal = true ∨
      machine.eval (reconcileRun cfg runKey) w =
        (.raised (.valueError s!"unknown run {runKey}"), w) := by
  have hcontrol : machine.eval (runControl runKey) w =
      (.returned ((w.store.runControl runKey).getD {}), w) :=
    machine.eval_bind_of (eval_readControl runKey w)
  rw [reconcileRun, Prog.bind_def, machine.eval_bind_of hcontrol]
  split
  · next habort =>
    refine .inr (.inr ?_)
    obtain ⟨row, hrow⟩ : ∃ row, w.store.runControl runKey = some row := by
      cases hr : w.store.runControl runKey with
      | none => simp [hr] at habort
      | some row => exact ⟨row, rfl⟩
    rw [hrow, Option.getD_some] at habort
    rw [continueAbort, Prog.bind_def, machine.eval_bind_of (eval_readControl runKey w), hrow]
    dsimp only
    rw [if_neg (by tauto)]
    exact machine.eval_bind_raised (history_cardless h)
  · split
    · next hended =>
      rcases hended with hended | hended | hended
      · exact .inr (.inl ⟨rfl, hended⟩)
      · exact .inl ⟨rfl, by simp [stateOf, hended]⟩
      · exact .inl ⟨rfl, by simp [stateOf, hended]⟩
    · refine .inr (.inr ?_)
      rw [Prog.bind_def, machine.eval_bind_of (eval_retryBlocked "gitlab" w), hblocked]
      exact machine.eval_bind_raised (history_cardless h)

/-- An error of a run that is not at work is not recorded on it. -/
theorem recordRunException_unrecorded (e : ControllerError)
    (hrow : ∀ row, w.store.runControl runKey = some row → row.state.isReconcilable = false) :
    machine.eval (recordRunException cfg runKey e) w = (.returned (), w) := by
  rw [recordRunException, Prog.bind_def, machine.eval_bind_of (eval_readControl runKey w)]
  cases hr : w.store.runControl runKey with
  | none => rfl
  | some row =>
    dsimp only
    rw [hrow row hr]
    rfl

/-- What settles an error does no harm to a run that is neither at work nor aborted. -/
theorem settleReconcile_unharmed (hrow : ∀ row, w.store.runControl runKey = some row →
      row.state.isReconcilable = false ∧ row.state.isAborting = false) (e : ControllerError)
    {v : World} (hv : Unharmed runKey w v) :
    Unharmed runKey w (machine.eval (settleReconcile cfg runKey e) v).2 := by
  have hbook := unharmed_bookkeeping hrow
  have hrecord : ∀ e, Unharmed runKey w (machine.eval (recordRunException cfg runKey e) v).2 := by
    intro e
    rw [recordRunException_unrecorded e fun row hr => (hrow row (hv.row.symm.trans hr)).1]
    exact hv
  cases e with
  | dependency kind text c =>
    cases kind with
    | contract => exact hrecord _
    | transient | rateLimited | auth => exact hbook.handleDependencyError _ _ _ _ _ v hv
  | superseded => exact hv
  | runPolicy | valueError | checkedHeadConflict => exact hrecord _
  | fatal | runtimeError | permissionError => exact hv

/-- A pass that ends with the missing history is settled as an exception of the run. -/
theorem guarded_unknown (h : machine.eval (reconcileRun cfg runKey) w =
      (.raised (.valueError s!"unknown run {runKey}"), w)) :
    machine.eval (guarded (reconcilePass cfg runKey) (settleReconcile cfg runKey)) w =
      machine.eval (recordRunException cfg runKey (.valueError s!"unknown run {runKey}")) w := by
  have hpass : machine.eval (reconcilePass cfg runKey).attempt w =
      (.returned (.error (.valueError s!"unknown run {runKey}")), w) := by
    rw [Machine.eval_attempt, show machine.eval (reconcilePass cfg runKey) w = _ from
      machine.eval_bind_raised h]
  exact machine.eval_bind_of hpass

/-- A run that has ended, or waits for a human, is left alone. -/
theorem guarded_unharmed (h : machine.eval (reconcileRun cfg runKey) w = (.returned (), w))
    (hrow : ∀ row, w.store.runControl runKey = some row →
      row.state.isReconcilable = false ∧ row.state.isAborting = false) :
    Unharmed runKey w
      (machine.eval (guarded (reconcilePass cfg runKey) (settleReconcile cfg runKey)) w).2 := by
  have hbook := unharmed_bookkeeping hrow
  refine machine.eval_bind_keeps (I := Unharmed runKey w) ?_ fun r v hv => ?_
  · rw [machine.eval_attempt_state, show machine.eval (reconcilePass cfg runKey) w = _ from
      machine.eval_bind_of h]
    exact hbook.bind (hbook.recoverRunDependency cfg runKey "kanban")
      (fun _ => hbook.recoverRunDependency cfg runKey "gitlab") w (.refl w)
  · cases r with
    | ok => exact hv
    | error e => exact settleReconcile_unharmed hrow e hv

/-- **A reconcile does no harm to a run without a card exactly when it is held off.** -/
theorem unharmed_iff (taken : Bool) (h : Cardless runKey w) :
    Unharmed runKey w (machine.eval (reconcileUnlessTaken cfg taken runKey) w).2 ↔
      HeldOff runKey taken w := by
  have hread : ∀ f : Bool → Service Unit,
      machine.eval ((store (.retryBlocked "gitlab")).bind f) w =
        machine.eval (f (w.store.retryBlocked "gitlab" w.now)) w :=
    fun f => machine.eval_bind_of (eval_retryBlocked "gitlab" w)
  cases taken with
  | true =>
    refine ⟨fun _ => .inl rfl, fun _ => ?_⟩
    show Unharmed runKey w (machine.eval ((store (.retryBlocked "gitlab")).bind _) w).2
    rw [hread]
    exact .refl w
  | false =>
    show Unharmed runKey w (machine.eval (reconcileWithPolicy cfg runKey) w).2 ↔ _
    rw [reconcileWithPolicy_eq, Prog.bind_def, hread]
    cases hblocked : w.store.retryBlocked "gitlab" w.now with
    | true => exact ⟨fun _ => .inr (.inl hblocked), fun _ => .refl w⟩
    | false =>
      rw [if_neg (by decide)]
      constructor
      · intro hunharmed
        refine .inr (.inr fun row hrow => ?_)
        by_contra hwork
        have hstate : stateOf runKey w = row.state := by simp [stateOf, hrow]
        rcases reconcileRun_cardless h hblocked with ⟨-, hs⟩ | ⟨-, hs⟩ | hraised
        · rw [hstate] at hs
          revert hs hwork
          cases row.state <;> decide
        · rw [hstate] at hs
          revert hs hwork
          cases row.state <;> decide
        · rw [guarded_unknown hraised] at hunharmed
          obtain ⟨r, w', hrun, hexception⟩ := (quiet_racing runKey).recordRunException_records (e := .valueError s!"unknown run {runKey}")
            (rfl : (Setting.quiet Op ControllerError World).others w w) hrow (by simpa using hwork)
          rw [runs_quiet hrun] at hunharmed
          rw [stateOf, hunharmed.row, hrow, Option.getD_some] at hexception
          rw [hexception] at hwork
          exact hwork rfl
      · rintro (hheld | hheld | hheld)
        · cases hheld
        · rw [hblocked] at hheld
          cases hheld
        · have hrow : ∀ state, (∀ row, w.store.runControl runKey = some row →
              row.state = state) → state.isAborting = false →
              ∀ row, w.store.runControl runKey = some row →
                row.state.isReconcilable = false ∧ row.state.isAborting = false :=
            fun state hs habort row hr => ⟨hheld row hr, by rw [hs row hr]; exact habort⟩
          have hstate : ∀ row, w.store.runControl runKey = some row →
              row.state = stateOf runKey w := fun row hr => by simp [stateOf, hr]
          rcases reconcileRun_cardless h hblocked with ⟨hreturned, hs⟩ |
            ⟨hreturned, hs⟩ | hraised
          · refine guarded_unharmed hreturned (hrow _ hstate ?_)
            revert hs
            cases stateOf runKey w <;> decide
          · refine guarded_unharmed hreturned (hrow _ hstate ?_)
            revert hs
            cases stateOf runKey w <;> decide
          · rw [guarded_unknown hraised, recordRunException_unrecorded _ hheld]
            exact .refl w

end Reconcile

/-! ## Interleavings -/

/-- What happens to a run while it is being started. -/
inductive InitAct where
  /-- An attempt at the request, to its end or up to a stop. -/
  | attempt (draw : RunDraw) (inFlight : Bool)
  | reconcile (taken : Bool)
  /-- Whatever the other threads do, the recovery of the circuit among it. -/
  | elsewhere
  deriving DecidableEq

structure InitStep where
  before : World
  act : InitAct
  after : World

/-- An attempt may fail at every operation, with the other threads at work. -/
def InitStep.Happens (cfg : Config) (r : StartRequest) (runKey : String) (s : InitStep) : Prop :=
  match s.act with
  | .attempt draw inFlight =>
    ∃ out, Runs machine serving (start cfg draw inFlight r) s.before out s.after
  | .reconcile taken =>
    s.after = (machine.eval (reconcileUnlessTaken cfg taken runKey) s.before).2
  | .elsewhere => serving.others s.before s.after

/-- The steps lead from the one world to the other. -/
inductive Initialization (cfg : Config) (r : StartRequest) (runKey : String) :
    World → List InitStep → World → Prop
  | nil (w : World) : Initialization cfg r runKey w [] w
  | cons {s : InitStep} {steps : List InitStep} {w : World} (h : s.Happens cfg r runKey)
      (hrest : Initialization cfg r runKey s.after steps w) :
      Initialization cfg r runKey s.before (s :: steps) w

/-- The step is a reconcile of the run before it has a card. -/
def InitStep.IsEarly (runKey : String) (taken : Bool) (s : InitStep) : Prop :=
  s.act = .reconcile taken ∧ Cardless runKey s.before

/-- No early reconcile harms the run. -/
def NeverHarmed (runKey : String) (steps : List InitStep) : Prop :=
  ∀ s ∈ steps, ∀ taken, s.IsEarly runKey taken → Unharmed runKey s.before s.after

/-- Every early reconcile is held off. -/
def AlwaysHeldOff (runKey : String) (steps : List InitStep) : Prop :=
  ∀ s ∈ steps, ∀ taken, s.IsEarly runKey taken → HeldOff runKey taken s.before

theorem Initialization.happens {cfg : Config} {r : StartRequest} {runKey : String} {w w' : World}
    {steps : List InitStep} (h : Initialization cfg r runKey w steps w') :
    ∀ s ∈ steps, s.Happens cfg r runKey := by
  induction h with
  | nil => exact fun _ hs => absurd hs List.not_mem_nil
  | cons hhead _ ih => exact List.forall_mem_cons.mpr ⟨hhead, ih⟩

/-- **Reconciles leave the start of a run alone exactly when each of them is held off until
the run has its first card.** -/
theorem neverHarmed_iff {cfg : Config} {r : StartRequest} {runKey : String} {w w' : World}
    {steps : List InitStep} (h : Initialization cfg r runKey w steps w') :
    NeverHarmed runKey steps ↔ AlwaysHeldOff runKey steps := by
  refine forall₂_congr fun s hs => forall₂_congr fun taken hearly => ?_
  have hafter := h.happens s hs
  rw [InitStep.Happens, hearly.1] at hafter
  rw [hafter]
  exact unharmed_iff taken hearly.2

/-! ## A run that is condemned before its first card -/

/-- The first attempt meets a GitLab timeout at the remote branch. -/
def failedAttempt : InitStep where
  before := unstartedWorld
  act := .attempt ⟨"g1", "k1"⟩ false
  after := (machine.replay (start sampleConfig ⟨"g1", "k1"⟩ false sampleStart)
    (List.replicate 9 Fault.none ++
      [Fault.failBefore (.dependency .transient "timeout" { dependency := "gitlab" })])
    unstartedWorld).2

/-- The backoff of the run passes. -/
def backoffOver : InitStep where
  before := failedAttempt.after
  act := .elsewhere
  after := { failedAttempt.after with now := 1000 }

/-- A reconcile of the run. -/
def earlyReconcile (taken : Bool) : InitStep where
  before := backoffOver.after
  act := .reconcile taken
  after := (machine.eval (reconcileUnlessTaken sampleConfig taken "hollysys-k1")
    backoffOver.after).2

theorem earlyReconcile_initialization (taken : Bool) :
    Initialization sampleConfig sampleStart "hollysys-k1" unstartedWorld
      [failedAttempt, backoffOver, earlyReconcile taken] (earlyReconcile taken).after := by
  refine .cons (s := failedAttempt) ⟨_, replay_runs
    (fun _ => Relation.ReflTransGen.refl) (fun _ _ _ => trivial) _ _ _⟩
    (.cons (s := backoffOver) ?_ (.cons (s := earlyReconcile taken) rfl (.nil _)))
  exact Relation.ReflTransGen.refl

/-- The reconcile comes before the second attempt, which would have started the run. -/
theorem earlyReconcile_harms :
    Initialization sampleConfig sampleStart "hollysys-k1" unstartedWorld
      [failedAttempt, backoffOver, earlyReconcile false] (earlyReconcile false).after ∧
    ¬ NeverHarmed "hollysys-k1" [failedAttempt, backoffOver, earlyReconcile false] ∧
    stateOf "hollysys-k1" (earlyReconcile false).after = .exception ∧
    (machine.eval (start sampleConfig ⟨"g2", "k2"⟩ false sampleStart) backoffOver.after).1 ≠
      (machine.eval (start sampleConfig ⟨"g2", "k2"⟩ false sampleStart)
        (earlyReconcile false).after).1 ∧
    (machine.eval (start sampleConfig ⟨"g2", "k2"⟩ false sampleStart)
      (earlyReconcile false).after).1 =
        .raised (.superseded "reconcile_superseded:hollysys-k1") := by
  have hattempts : backoffOver.after.store.cardsForRun "hollysys-k1" = [] ∧
      stateOf "hollysys-k1" backoffOver.after = .dependencyDegraded ∧
      stateOf "hollysys-k1" (earlyReconcile false).after = .exception ∧
      (machine.eval (start sampleConfig ⟨"g2", "k2"⟩ false sampleStart) backoffOver.after).1 ≠
        (machine.eval (start sampleConfig ⟨"g2", "k2"⟩ false sampleStart)
          (earlyReconcile false).after).1 ∧
      (machine.eval (start sampleConfig ⟨"g2", "k2"⟩ false sampleStart)
        (earlyReconcile false).after).1 =
          .raised (.superseded "reconcile_superseded:hollysys-k1") := by
    decide +kernel
  obtain ⟨hcardless, hdegraded, hexception, hdiffers, hsuperseded⟩ := hattempts
  refine ⟨earlyReconcile_initialization false, fun h => ?_, hexception, hdiffers, hsuperseded⟩
  have hearly : (earlyReconcile false).IsEarly "hollysys-k1" false :=
    ⟨rfl, hcardless⟩
  have hrow := (h _ (by simp) false hearly).row
  rw [stateOf, hrow] at hexception
  exact absurd (hdegraded.symm.trans hexception) (by decide)

/-- With the second attempt under way, the reconcile is held off. -/
theorem takenReconcile_unharmed :
    NeverHarmed "hollysys-k1" [failedAttempt, backoffOver, earlyReconcile true] := by
  refine (neverHarmed_iff (earlyReconcile_initialization true)).mpr fun s hs taken hearly => ?_
  simp only [List.mem_cons, List.not_mem_nil, or_false] at hs
  rcases hs with rfl | rfl | rfl
  · cases hearly.1
  · cases hearly.1
  · cases hearly.1
    exact .inl rfl

end HollysysController
