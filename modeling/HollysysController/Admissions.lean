import HollysysController.Aborts
import HollysysController.Resolve
import HollysysController.RunStates

/-! # Runs whose worker was not admitted

A run whose next worker profile is refused waits in `retry_wait`, or in
`human_blocked` when waiting does not help. This module says when such a run is
ever moved on. -/

namespace HollysysController

open Durable

/-! ## Waiting for a retry -/

/-- A card that was held is released. -/
def Published (w w' : World) : Prop :=
  ∃ board id t t', w.hermes.find board id = some t ∧ t.status.isReleased = false ∧
    w'.hermes.find board id = some t' ∧ t'.status.isReleased = true

theorem not_published_self (w : World) : ¬ Published w w := by
  rintro ⟨board, id, t, t', hf, ht, hf', ht'⟩
  rw [hf] at hf'
  cases hf'
  rw [ht] at ht'
  cases ht'

/-- A pass publishes a card or moves the run out of `retry_wait`, and is not rejected
because the run may not be changed. -/
def LeavesRetryWait (cfg : Config) (runKey : String) (w : World) : Prop :=
  (∀ text, (machine.eval (reconcileRun cfg runKey) w).1 ≠ .raised (.superseded text)) ∧
    (Published w (machine.eval (reconcileRun cfg runKey) w).2 ∨
      stateOf runKey (machine.eval (reconcileRun cfg runKey) w).2 ≠ .retryWait)

/-- The delivery MR of the run was merged already, and nothing stands in the way of
seeing it: GitLab is not backed off and answers, and the history is in order. -/
def MergedOutside (runKey : String) (w : World) : Prop :=
  w.store.retryBlocked "gitlab" w.now = false ∧ ∃ items run mr head merge,
    machine.eval (history runKey) w = (.returned (items, run), w) ∧
    machine.eval (unauthorizedPromotion items) w = (.returned none, w) ∧
    machine.eval (boundDeliveryMr .start run) w = (.returned (some mr), w) ∧
    mr.state = "merged" ∧ mergedMrIdentity mr = .ok (head, merge) ∧
    ∃ verdict, machine.eval (mergedCompliance run items mr.iid head
      (managedMerge (w.store.operations s!"{run.runKey}:merge:{head}") head)) w =
        (.returned verdict, w)

/-! ## The history of a run -/

theorem readItems_managed {cards : List ManagedCard} {w w' : World} {items : List HistoryItem}
    (h : machine.eval (readItems cards) w = (.returned items, w')) :
    items.map (·.managed) = cards := by
  induction cards generalizing w items with
  | nil =>
    cases h
    rfl
  | cons c cs ih =>
    obtain ⟨task, w₁, -, h⟩ := machine.eval_bind_returned.mp h
    cases task with
    | none => cases h
    | some task =>
      obtain ⟨rest, w₂, hrest, h⟩ := machine.eval_bind_returned.mp h
      cases h
      rw [List.map_cons, ih hrest]

/-- The history of a run is the run's own. -/
theorem history_runKey {runKey : String} {w w' : World} {items : List HistoryItem}
    {run : RunRecord} (h : machine.eval (history runKey) w = (.returned (items, run), w')) :
    run.runKey = runKey := by
  obtain ⟨cards, w₁, hcards, h⟩ := machine.eval_bind_returned.mp h
  obtain ⟨s, hs, -⟩ := eval_store_returned.mp hcards
  split at h
  · cases h
  · obtain ⟨items', w₂, hitems, h⟩ := machine.eval_bind_returned.mp h
    obtain ⟨run', w₃, hrun, h⟩ := machine.eval_bind_returned.mp h
    obtain ⟨hverify, rfl⟩ := eval_fromExcept.mp hrun
    cases h
    obtain ⟨root, hroot, -, hkey⟩ := verifyHistory_root hverify
    have hmem : root.managed ∈ cards := by
      rw [← readItems_managed hitems]
      exact List.mem_map_of_mem hroot
    cases hs
    rw [← hkey]
    simpa using (List.mem_filter.mp ((List.mem_insertionSort _).mp hmem)).2

/-! ## Passes that change nothing -/

/-- The run of `p` from `w` leaves the world as it is. -/
def Still {α : Type} (p : Service α) (w : World) : Prop := ∃ r, machine.eval p w = (r, w)

namespace Still

variable {α β : Type} {w : World}

theorem pure (a : α) : Still (.pure a) w := ⟨_, rfl⟩

theorem raise (e : ControllerError) : Still (α := α) (raise e) w := ⟨_, rfl⟩

/-- A function that only reads. -/
theorem read {p : Service α} (h : (machine.eval p w).2 = w) : Still p w := ⟨_, Prod.ext rfl h⟩

theorem bind {p : Service α} {f : α → Service β} (hp : Still p w)
    (hf : ∀ a, machine.eval p w = (.returned a, w) → Still (f a) w) : Still (p.bind f) w := by
  obtain ⟨r, hr⟩ := hp
  cases r with
  | returned a =>
    obtain ⟨r', hr'⟩ := hf a hr
    exact ⟨r', (machine.eval_bind_of hr).trans hr'⟩
  | raised e => exact ⟨.raised e, by rw [Machine.eval_bind, hr]⟩
  | stopped => exact ⟨.stopped, by rw [Machine.eval_bind, hr]⟩

end Still

/-- What only reads leaves this world as it is. -/
abbrev stillReading (w : World) := reading_keeps (· = w)

section RetryWait

variable {cfg : Config} {runKey : String} {w : World}

theorem eval_runControl (runKey : String) (w : World) :
    machine.eval (runControl runKey) w =
      (.returned ((w.store.runControl runKey).getD {}), w) :=
  machine.eval_bind_of (eval_readControl runKey w)

theorem assertReconcileMutable_still (h : (stateOf runKey w).isReconcilable = false) :
    ∃ text, machine.eval (assertReconcileMutable runKey) w = (.raised (.superseded text), w) := by
  refine ⟨s!"reconcile_superseded:{runKey}",
    (machine.eval_bind_of (eval_runControl runKey w)).trans ?_⟩
  unfold stateOf at h
  simp only [h, Bool.false_eq_true, if_false]
  rfl

/-- In `retry_wait` nothing but the end of a merged run is ever reached. -/
theorem reconcileRun_still (hs : stateOf runKey w = .retryWait) (hm : ¬ MergedOutside runKey w) :
    Still (reconcileRun cfg runKey) w := by
  have hfixed : (stateOf runKey w).isReconcilable = false := by rw [hs]; rfl
  obtain ⟨text, hassert⟩ := assertReconcileMutable_still hfixed
  have hrefused : ∀ {α : Type} (f : RunControl → Service α),
      machine.eval ((assertReconcileMutable runKey).bind f) w = (.raised (.superseded text), w) :=
    fun f => by rw [Machine.eval_bind, hassert]
  refine .bind (.read ((stillReading w).runControl runKey w rfl)) fun control hcontrol => ?_
  obtain rfl : (w.store.runControl runKey).getD {} = control := by
    rw [eval_runControl] at hcontrol
    cases hcontrol
    rfl
  have hstate : ((w.store.runControl runKey).getD {}).state = .retryWait := hs
  simp only [hstate, RunState.isTerminal, reduceCtorEq, or_self, if_false, Bool.false_eq_true]
  refine .bind ⟨_, eval_store _ _⟩ fun blocked hblocked => ?_
  cases blocked with
  | true => exact .pure ()
  | false =>
    have hopen : w.store.retryBlocked "gitlab" w.now = false := by
      obtain ⟨s, hread, -⟩ := eval_store_returned.mp hblocked
      exact Except.ok.inj (congrArg Prod.fst hread)
    refine .bind (.read ((stillReading w).history runKey w rfl)) fun read hread => ?_
    obtain ⟨items, run⟩ := read
    obtain rfl := history_runKey hread
    refine .bind (.read ((stillReading w).unauthorizedPromotion items w rfl)) fun found hfound => ?_
    cases found with
    | some i =>
      refine .bind (.bind ⟨_, hrefused _⟩ fun u harchived => ?_) fun _ _ => .pure ()
      cases (hrefused _).symm.trans harchived
    | none =>
      refine .bind (.read ((stillReading w).boundDeliveryMr .start run w rfl)) fun mr hmr => ?_
      split
      · next merged hmerged =>
        obtain ⟨rfl, hstate⟩ := Option.filter_eq_some_iff.mp hmerged
        refine .bind ?_ fun identity hidentity => ?_
        · cases mergedMrIdentity merged with
          | ok => exact .pure _
          | error => exact .raise _
        obtain ⟨head, merge⟩ := identity
        obtain ⟨hidentity, -⟩ := eval_fromExcept.mp hidentity
        refine .bind ⟨_, eval_store _ _⟩ fun row hrow => ?_
        obtain rfl : w.store.operations s!"{run.runKey}:merge:{head}" = row := by
          obtain ⟨s, hread, -⟩ := eval_store_returned.mp hrow
          exact Except.ok.inj (congrArg Prod.fst hread)
        refine .bind (.read ((stillReading w).mergedCompliance _ _ _ _ _ w rfl))
          fun verdict hverdict => ?_
        exact absurd ⟨hopen, items, run, merged, head, merge, hread, hfound, hmr,
          by simpa using hstate, hidentity, verdict, hverdict⟩ hm
      · exact ⟨_, hrefused _⟩

theorem eval_enqueue (row : OutboxRow) (w : World) :
    ∃ s, machine.eval (store (.enqueue row)) w = (.returned (), { w with store := s }) ∧
      s.runControl = w.store.runControl := by
  refine ⟨((enqueue row).commit w.store).2, eval_store_returned.mpr ⟨_, ?_, rfl⟩, ?_⟩
  · refine Prod.ext ?_ rfl
    simp only [StoreOp.exec, Txn.commit, enqueue]
    split
    · next hx => split at hx <;> cases hx <;> rfl
    · next hx => split at hx <;> cases hx
  · exact (StoreOp.enqueue row).exec_get (c := .control) w.now w.store (by simp [StoreOp.writes])

theorem mergedMrIdentity_shape {mr : MergeRequest} {head : String} {merge : Option String}
    (h : mergedMrIdentity mr = .ok (head, merge)) :
    isSha head = true ∧ merge.any (!isSha ·) = false := by
  unfold mergedMrIdentity at h
  dsimp only at h
  split at h
  · cases h
  · next hno =>
    cases h
    simp only [not_or] at hno
    exact ⟨by simpa using hno.2.1, by simpa using hno.2.2⟩

/-- A run that is not settled is completed by the merge of its MR. -/
theorem markCompleted_completes {runKey head : String} {merge : Option String}
    {control : RunControl} (external : Bool) (compliance reason : String)
    (hc : w.store.runControl runKey = some control) (hs : control.state ∈ unsettledStates)
    (hsha : isSha head = true) (hmerge : merge.any (!isSha ·) = false) :
    ∃ a w', machine.eval (store (.markCompleted runKey external compliance head merge reason)) w =
      (.returned a, w') ∧ stateOf runKey w' = .completed := by
  have hlive : control.state.isTerminal = false := by
    simp only [unsettledStates, List.mem_cons, List.not_mem_nil, or_false] at hs
    rcases hs with h | h | h | h | h | h <;> rw [h] <;> rfl
  have hexec : ∃ a s, markCompleted runKey external compliance head merge reason w.now w.store =
      .ok (a, s) ∧ s.runControl runKey = some a ∧ a.state = .completed := by
    simp only [markCompleted, hsha, hmerge, hc, hlive, transitionRun, List.mem_cons, hs, or_true,
      Bool.not_true, Bool.false_eq_true, if_false, not_true, Option.any_none]
    exact ⟨_, _, rfl, by simp, rfl⟩
  obtain ⟨a, s, hx, hrow, hstate⟩ := hexec
  refine ⟨a, { w with store := s }, eval_store_returned.mpr ⟨s, Txn.commit_eq_ok.mpr hx, rfl⟩, ?_⟩
  simp [stateOf, hrow, hstate]

/-- A run that is not settled ends with the merge of its MR. -/
theorem finalizeMerged_completes {run : RunRecord} {items : List HistoryItem} {mr : MergeRequest}
    {head : String} {merge : Option String} {verdict : String × String} {control : RunControl}
    (hc : w.store.runControl run.runKey = some control) (hs : control.state ∈ unsettledStates)
    (hidentity : mergedMrIdentity mr = .ok (head, merge))
    (hverdict : machine.eval (mergedCompliance run items mr.iid head
      (managedMerge (w.store.operations s!"{run.runKey}:merge:{head}") head)) w =
        (.returned verdict, w)) :
    ∃ w', machine.eval (finalizeMerged run items mr) w = (.returned (), w') ∧
      stateOf run.runKey w' = .completed := by
  obtain ⟨compliance, reason⟩ := verdict
  obtain ⟨hsha, hmerge⟩ := mergedMrIdentity_shape hidentity
  obtain ⟨a, w₁, hmark, hstate⟩ := markCompleted_completes
    (!managedMerge (w.store.operations s!"{run.runKey}:merge:{head}") head) compliance reason
    hc hs hsha hmerge
  have hnotice : ∀ row, ∃ w₂, machine.eval (store (.enqueue row)) w₁ = (.returned (), w₂) ∧
      stateOf run.runKey w₂ = .completed := fun row => by
    obtain ⟨s, hrow, hcontrol⟩ := eval_enqueue row w₁
    exact ⟨_, hrow, by rw [← hstate]; simp only [stateOf, hcontrol]⟩
  have hlive : control.state ≠ .abortRequested ∧ control.state ≠ .aborting ∧
      control.state.isTerminal = false := by
    simp only [unsettledStates, List.mem_cons, List.not_mem_nil, or_false] at hs
    rcases hs with h | h | h | h | h | h <;> rw [h] <;> simp [RunState.isTerminal]
  have hread : machine.eval (runControl run.runKey) w = (.returned control, w) := by
    rw [eval_runControl, hc]
    rfl
  have hrecord : machine.eval (store (.operationRecord s!"{run.runKey}:merge:{head}")) w =
      (.returned (w.store.operations s!"{run.runKey}:merge:{head}"), w) := eval_store _ _
  have htail : ∀ verified violation, ∃ w', machine.eval (if compliance = "verified" then
      store (.enqueue verified) else store (.enqueue violation)) w₁ = (.returned (), w') ∧
        stateOf run.runKey w' = .completed := fun verified violation => by
    by_cases hv : compliance = "verified"
    · simpa only [if_pos hv] using hnotice verified
    · simpa only [if_neg hv] using hnotice violation
  let tail := merge.getD (toString mr.iid)
  obtain ⟨w', htail, hend⟩ := htail
    { key := s!"{run.runKey}:merged:{tail}", runKey := run.runKey, event := "merged" }
    { key := s!"{run.runKey}:merged-policy-violation:{tail}", runKey := run.runKey,
      event := "merged-policy-violation" }
  refine ⟨w', ?_, hend⟩
  refine machine.eval_bind_returned.mpr ⟨_, w, eval_fromExcept.mpr ⟨hidentity, rfl⟩, ?_⟩
  refine machine.eval_bind_returned.mpr ⟨_, w, hrecord, ?_⟩
  refine machine.eval_bind_returned.mpr ⟨_, w, hverdict, ?_⟩
  refine machine.eval_bind_returned.mpr ⟨_, w, hread, ?_⟩
  simp only [hlive, or_self, if_false, Bool.false_eq_true]
  exact machine.eval_bind_returned.mpr ⟨_, _, hmark, htail⟩

/-- A pass moves a run out of `retry_wait` exactly when its MR was merged already. -/
theorem leavesRetryWait_iff (hs : stateOf runKey w = .retryWait) :
    LeavesRetryWait cfg runKey w ↔ MergedOutside runKey w := by
  constructor
  · rintro ⟨-, hleft⟩
    by_contra hm
    obtain ⟨r, hr⟩ : Still (reconcileRun cfg runKey) w := reconcileRun_still hs hm
    rw [hr] at hleft
    rcases hleft with hpublished | hmoved
    · exact not_published_self w hpublished
    · exact hmoved hs
  · rintro ⟨hopen, items, run, mr, head, merge, hread, hfound, hmr, hstate, hidentity, verdict,
      hverdict⟩
    obtain rfl := history_runKey hread
    obtain ⟨control, hc, hcs⟩ : ∃ control, w.store.runControl run.runKey = some control ∧
        control.state = .retryWait := by
      unfold stateOf at hs
      cases hc : w.store.runControl run.runKey with
      | none => simp [hc] at hs
      | some control => exact ⟨control, rfl, by simpa [hc] using hs⟩
    obtain ⟨w', hend, hcompleted⟩ := finalizeMerged_completes hc
      (by rw [hcs]; simp [unsettledStates]) hidentity hverdict
    have hrun : machine.eval (reconcileRun cfg run.runKey) w = (.returned (), w') := by
      refine machine.eval_bind_returned.mpr ⟨_, w, eval_runControl _ _, ?_⟩
      simp only [hc, Option.getD_some, hcs, RunState.isTerminal, reduceCtorEq, or_self, if_false,
        Bool.false_eq_true]
      refine machine.eval_bind_returned.mpr ⟨false, w, ?_, ?_⟩
      · exact eval_store_returned.mpr ⟨w.store, by simp [StoreOp.exec, hopen], rfl⟩
      refine machine.eval_bind_returned.mpr ⟨_, w, hread, ?_⟩
      refine machine.eval_bind_returned.mpr ⟨_, w, hfound, ?_⟩
      refine machine.eval_bind_returned.mpr ⟨_, w, hmr, ?_⟩
      simpa [Option.filter, hstate] using hend
    rw [LeavesRetryWait, hrun, hcompleted]
    exact ⟨fun _ => by simp, .inr (by simp)⟩

end RetryWait

/-! ## Waiting for a human -/

/-- The run waits for a human. -/
def Held (runKey : String) (w : World) : Prop := stateOf runKey w = .humanBlocked

/-- What can be done about a run: a pass of the Controller, or a request of a human. -/
inductive RunOperation where
  | reconcile (runKey : String)
  | resolve (r : ResolveRequest)
  | recover (r : RecoverRequest)
  | abortRequest (token : String) (r : AbortRequest)
  | abortConfirm (c : AbortConfirmRequest)

namespace RunOperation

def runKey : RunOperation → String
  | reconcile k => k
  | resolve r => r.runKey
  | recover r => r.runKey
  | abortRequest _ r => r.runKey
  | abortConfirm c => c.runKey

/-- The world after the operation. -/
def perform (cfg : Config) (w : World) : RunOperation → World
  | reconcile k => (machine.eval (reconcileWithPolicy cfg k) w).2
  | resolve r => (machine.eval (HollysysController.resolve cfg false r) w).2
  | recover r => (machine.eval (HollysysController.recover cfg r) w).2
  | abortRequest token r => (machine.eval (HollysysController.abortRequest cfg token r) w).2
  | abortConfirm c => (machine.eval (HollysysController.abortConfirm cfg c) w).2

end RunOperation

/-- Some operation moves the run on. -/
def MovesOn (cfg : Config) (runKey : String) (w : World) : Prop :=
  ∃ o : RunOperation, o.runKey = runKey ∧ ¬ Held runKey (o.perform cfg w)

/-- A work card of the run carries a valid block comment, which a new request can
answer: the question of some worker, not of the Controller. -/
def Answerable (runKey : String) (w : World) : Prop :=
  ∃ r s items run i found, r.runKey = runKey ∧
    beginRequest r.key r.payload w.store = .ok (none, s) ∧
    machine.eval (history runKey) w = (.returned (items, run), w) ∧
    askedItem r items = .ok i ∧ authorizeResolution r run = .ok () ∧ blockedRecord r i = .ok found

section Held

variable {cfg : Config} {runKey : String} {w : World}

theorem held_control (h : Held runKey w) :
    ∃ control, w.store.runControl runKey = some control ∧ control.state = .humanBlocked := by
  unfold Held stateOf at h
  cases hc : w.store.runControl runKey with
  | none => simp [hc] at h
  | some control => exact ⟨control, rfl, by simpa [hc] using h⟩

theorem held_store {o : StoreOp} (ho : Column.control ∉ o.writes) (h : Held runKey w) :
    Held runKey (machine.eval (store o) w).2 :=
  (stateOf_store (Prod.ext rfl rfl : machine.eval (store o) w =
    ((machine.eval (store o) w).1, (machine.eval (store o) w).2)) ho runKey).trans h

theorem held_of_control {s : Store} (h : Held runKey w)
    (hs : s.runControl runKey = w.store.runControl runKey) :
    Held runKey { w with store := s } := by
  unfold Held stateOf at h ⊢
  rwa [hs]

theorem transitionRun_held {t : Transition} (ht : RunState.humanBlocked ∉ t.expectedStates)
    (h : Held runKey w) : Held runKey (machine.eval (store (.transitionRun t)) w).2 := by
  obtain ⟨control, hc, hs⟩ := held_control h
  rw [store, Machine.eval_op_state, exec_store]
  refine held_of_control h ?_
  simp only [StoreOp.exec, Txn.commit, transitionRun]
  by_cases hk : t.runKey = runKey
  · simp [hk, hc, hs, ht]
  · split
    · next hx =>
      split at hx
      · cases hx
      · split at hx
        · cases hx
        · split at hx <;> cases hx
          exact Table.put_ne _ _ (Ne.symm hk)
    · rfl

theorem held_bookkeeping (runKey : String) :
    Bookkeeping (fun {α} (p : Service α) => ∀ w, Held runKey w → Held runKey (machine.eval p w).2)
    where
  toReading := reading_keeps _
  outage o ho w hw := held_store (by cases o <;> simp_all [StoreOp.isOutage, StoreOp.writes]) hw
  transition t ht _ _ w hw :=
    transitionRun_held (fun h => by rcases ht _ h with h | h <;> cases h) hw

/-- The control row of a held run is read, and says so. -/
theorem held_afterControl {α : Type} {f : Option RunControl → Service α} (h : Held runKey w)
    (hf : ∀ control, control.state = .humanBlocked → Held runKey (machine.eval (f (some control)) w).2) :
    Held runKey (machine.eval ((store (.runControl runKey)).bind f) w).2 := by
  obtain ⟨control, hc, hs⟩ := held_control h
  rw [machine.eval_bind_of (eval_readControl runKey w), hc]
  exact hf control hs

/-! ### The pass -/

theorem reconcileRun_held (h : Held runKey w) :
    machine.eval (reconcileRun cfg runKey) w = (.returned (), w) := by
  obtain ⟨control, hc, hs⟩ := held_control h
  refine (machine.eval_bind_of (eval_runControl runKey w)).trans ?_
  simp only [hc, Option.getD_some, hs, RunState.isTerminal, reduceCtorEq, or_self, or_true,
    if_false, if_true]
  rfl

theorem recordRunException_held (e : ControllerError) (h : Held runKey w) :
    Held runKey (machine.eval (recordRunException cfg runKey e) w).2 := by
  refine held_afterControl h fun control hs => ?_
  simp only [hs, RunState.isReconcilable, Bool.false_eq_true, if_false]
  exact h

theorem settleReconcile_held (e : ControllerError) :
    ∀ w, Held runKey w → Held runKey (machine.eval (settleReconcile cfg runKey e) w).2 := by
  have h := held_bookkeeping runKey
  intro w hw
  cases e with
  | dependency kind text c =>
    cases kind with
    | contract => exact recordRunException_held _ hw
    | transient | rateLimited | auth => exact h.handleDependencyError _ _ _ _ _ w hw
  | superseded => exact h.pure _ w hw
  | runPolicy | valueError | checkedHeadConflict => exact recordRunException_held _ hw
  | fatal | runtimeError | permissionError => exact h.raise _ w hw

theorem reconcileWithPolicy_held (h : Held runKey w) :
    Held runKey (machine.eval (reconcileWithPolicy cfg runKey) w).2 := by
  have hK := held_bookkeeping runKey
  refine hK.bind (hK.store (.retryBlocked "gitlab") rfl) (fun blocked w hw => ?_) w h
  split
  · exact hK.pure _ w hw
  · refine hK.bind (hK.attempt fun w hw => ?_) (fun r => ?_) w hw
    · refine machine.eval_bind_keeps ?_ fun _ => hK.bind (hK.recoverRunDependency _ _ _) fun _ =>
        hK.recoverRunDependency _ _ _
      rwa [reconcileRun_held hw]
    · cases r with
      | ok => exact hK.pure _
      | error e => exact settleReconcile_held e

/-! ### The requests -/

theorem held_failRequest (key text : String) :
    ∀ w, Held runKey w → Held runKey (machine.eval (store (.failRequest key text)) w).2 :=
  fun _ => held_store (by simp [StoreOp.writes])


/-- What fails the request, or records an outage, and raises the error again. -/
theorem settled_held {α : Type} {p : Service Unit} {e : ControllerError}
    (hp : ∀ w, Held runKey w → Held runKey (machine.eval p w).2) :
    ∀ w, Held runKey w → Held runKey (machine.eval (p.bind fun _ => (raise e : Service α)) w).2 :=
  (held_bookkeeping runKey).bind hp fun _ => (held_bookkeeping runKey).raise e

theorem settleRecovery_held (r : RecoverRequest) (e : ControllerError) :
    ∀ w, Held runKey w → Held runKey (machine.eval (settleRecovery cfg r e) w).2 := by
  have houtage := (held_bookkeeping runKey).recordRequestDependencyError cfg r.runKey
  cases e with
  | dependency kind text c =>
    cases kind with
    | contract => exact settled_held (held_failRequest _ _)
    | transient | rateLimited | auth => exact settled_held (houtage _ _ _)
  | superseded | runPolicy | valueError | checkedHeadConflict | fatal | runtimeError
  | permissionError => exact settled_held (held_failRequest _ _)

theorem settleAbortRequest_held (r : AbortRequest) (e : ControllerError) :
    ∀ w, Held runKey w → Held runKey (machine.eval (settleAbortRequest cfg r e) w).2 := by
  have houtage := (held_bookkeeping runKey).recordRequestDependencyError cfg r.runKey
  cases e with
  | dependency kind text c =>
    cases kind with
    | contract => exact settled_held (held_failRequest _ _)
    | transient | rateLimited | auth => exact settled_held (houtage _ _ _)
  | superseded | runPolicy | valueError | checkedHeadConflict | fatal | runtimeError
  | permissionError => exact settled_held (held_failRequest _ _)

theorem settleResolution_held (r : ResolveRequest) (e : ControllerError) :
    ∀ w, Held runKey w → Held runKey (machine.eval (settleResolution cfg r e) w).2 := by
  have houtage := (held_bookkeeping runKey).recordRequestDependencyError cfg r.runKey
  cases e with
  | dependency kind text c =>
    cases kind with
    | contract => exact settled_held (held_failRequest _ _)
    | transient | rateLimited | auth => exact settled_held (houtage _ _ _)
  | runPolicy text =>
    unfold settleResolution
    dsimp only
    split
    · exact (held_bookkeeping runKey).raise _
    · exact settled_held (held_failRequest _ _)
  | superseded | valueError | checkedHeadConflict | fatal | runtimeError | permissionError =>
    exact settled_held (held_failRequest _ _)

theorem recover_held (r : RecoverRequest) (h : Held r.runKey w) :
    Held r.runKey (machine.eval (recover cfg r) w).2 := by
  have hK := held_bookkeeping r.runKey
  refine hK.bind (fun w hw => held_store (by simp [StoreOp.writes]) hw) (fun previous => ?_) w h
  cases previous with
  | some response => exact hK.pure _
  | none =>
    refine hK.bind (hK.attempt ?_) fun result => ?_
    · refine hK.bind ?_ fun read => ?_
      · refine hK.bind (hK.attempt (hK.history _)) fun result => ?_
        cases result with
        | ok read => exact hK.pure _
        | error e =>
          dsimp only
          split
          · refine hK.bind (hK.store _ rfl) fun run => ?_
            cases run with
            | none => exact hK.raise _
            | some run => exact hK.pure _
          · exact hK.raise _
      · obtain ⟨items, run⟩ := read
        refine hK.bind (hK.fromExcept _) fun _ w hw => held_afterControl hw fun control hs => ?_
        simp only [hs, ne_eq, reduceCtorEq, not_false_eq_true, if_true]
        exact hK.raise _ w hw
    · cases result with
      | ok response => exact hK.pure _
      | error e => exact settleRecovery_held r e

theorem abortRequest_held (token : String) (r : AbortRequest) (h : Held r.runKey w) :
    Held r.runKey (machine.eval (abortRequest cfg token r) w).2 := by
  have hK := held_bookkeeping r.runKey
  have hstore : ∀ o : StoreOp, Column.control ∉ o.writes → ∀ w, Held r.runKey w →
      Held r.runKey (machine.eval (store o) w).2 := fun o ho _ => held_store ho
  have hensure : ∀ w, Held r.runKey w →
      Held r.runKey (machine.eval (store (.ensureRunControl r.runKey)) w).2 := fun w hw => by
    obtain ⟨control, hc, hs⟩ := held_control hw
    rw [store, Machine.eval_op_state, exec_store]
    exact held_of_control hw (by simp [StoreOp.exec, Txn.commit, ensureRunControl, hc])
  refine hK.bind (hstore _ (by simp [StoreOp.writes])) (fun previous => ?_) w h
  cases previous with
  | some response => exact hK.pure _
  | none =>
    refine hK.bind (hK.attempt (hK.bind (hK.history _) fun read => ?_)) fun result => ?_
    · obtain ⟨items, run⟩ := read
      exact hK.bind (hK.fromExcept _) fun _ => hK.bind (hK.store _ rfl) fun _ =>
        hK.bind (hK.fromExcept _) fun _ => hK.bind (hK.host _) fun now =>
        hK.bind hensure fun _ => hK.bind (hstore _ (by simp [StoreOp.writes])) fun _ =>
        hK.bind (hK.history _) fun read => hK.bind (hstore _ (by simp [StoreOp.writes])) fun _ =>
        hK.pure _
    · cases result with
      | ok answer => exact hK.pure _
      | error e => exact settleAbortRequest_held r e

theorem abortConfirm_held (c : AbortConfirmRequest) (h : Held c.runKey w) :
    Held c.runKey (machine.eval (abortConfirm cfg c) w).2 := by
  have hK := held_bookkeeping c.runKey
  have hstore : ∀ o : StoreOp, Column.control ∉ o.writes → ∀ w, Held c.runKey w →
      Held c.runKey (machine.eval (store o) w).2 := fun o ho _ => held_store ho
  have hconfirm : ∀ w, Held c.runKey w →
      Held c.runKey (machine.eval (store (.confirmAbortRequest (c.confirmation cfg))) w).2 := by
    intro w hw
    obtain ⟨control, hc, hs⟩ := held_control hw
    rw [store, Machine.eval_op_state, exec_store]
    obtain ⟨-, hsame⟩ := confirmAbortRequest_refused (c.confirmation cfg) w.now hc
      (by rw [hs]; decide) (by rw [hs]; simp)
    exact held_of_control hw (by rw [StoreOp.exec, hsame])
  refine hK.bind (hstore _ (by simp [StoreOp.writes])) (fun previous => ?_) w h
  cases previous with
  | some response => exact hK.pure _
  | none =>
    refine hK.bind (hK.attempt (hK.bind hconfirm fun control => ?_)) fun result => ?_
    · exact hK.bind (hstore _ (by simp [StoreOp.writes])) fun _ => hK.pure _
    · cases result with
      | ok response => exact hK.pure _
      | error e => exact hK.bind (hstore _ (by simp [StoreOp.writes])) fun _ => hK.raise _

/-- The question is looked for before the run is resumed. -/
theorem resolveOnce_held {r : ResolveRequest} {s : Store}
    (hbegin : beginRequest r.key r.payload w.store = .ok (none, s))
    (hnot : ¬ Answerable r.runKey w) (h : Held r.runKey { w with store := s }) :
    Held r.runKey (machine.eval (resolveOnce cfg r) { w with store := s }).2 := by
  have hcards : s.managedCards = w.store.managedCards :=
    beginRequest_writes _ _ _ _ _ hbegin .cards (by simp)
  obtain ⟨out, hread, hread'⟩ := history_same (s := w) (t := { w with store := s }) hcards rfl r.runKey
  cases out with
  | stopped => exact absurd (congrArg Prod.fst hread) (machine.eval_ne_stopped _ _)
  | raised e => rwa [show machine.eval (resolveOnce cfg r) _ = _ from machine.eval_bind_raised hread']
  | returned read =>
    obtain ⟨items, run⟩ := read
    rw [show machine.eval (resolveOnce cfg r) _ = _ from machine.eval_bind_of hread']
    dsimp only
    cases hitem : askedItem r items with
    | error e => exact h
    | ok i =>
      cases hauth : authorizeResolution r run with
      | error e => exact h
      | ok u =>
        cases hblock : blockedRecord r i with
        | error text =>
          change Held r.runKey (machine.eval ((fromText (blockedRecord r i)).bind _) _).2
          rw [hblock]
          exact h
        | ok found =>
          exact absurd ⟨r, s, items, run, i, found, rfl, hbegin, hread, hitem, hauth, hblock⟩ hnot

/-- A request that finds no block it can answer leaves the run held. -/
theorem resolve_held (r : ResolveRequest) (hnot : ¬ Answerable r.runKey w)
    (h : Held r.runKey w) : Held r.runKey (machine.eval (resolve cfg false r) w).2 := by
  have hK := held_bookkeeping r.runKey
  rcases hbegin : beginRequest r.key r.payload w.store with e | ⟨previous, s⟩
  · have hrun : machine.eval (store (.beginRequest r.key r.payload)) w = (.raised e, w) := by
      rw [eval_store]
      simp only [StoreOp.exec, Txn.commit, hbegin]
    rwa [show machine.eval (resolve cfg false r) w = _ from machine.eval_bind_raised hrun]
  · have hrun : machine.eval (store (.beginRequest r.key r.payload)) w =
        (.returned previous, { w with store := s }) :=
      eval_store_returned.mpr ⟨s, Txn.commit_eq_ok.mpr hbegin, rfl⟩
    have hs : Held r.runKey { w with store := s } := by
      have := held_store (o := .beginRequest r.key r.payload) (by simp [StoreOp.writes]) h
      rwa [hrun] at this
    rw [show machine.eval (resolve cfg false r) w = _ from machine.eval_bind_of hrun]
    cases previous with
    | some response => exact hs
    | none =>
      refine machine.eval_bind_keeps (I := Held r.runKey) ?_ fun result => ?_
      · rw [Machine.eval_attempt_state]
        exact resolveOnce_held hbegin hnot hs
      · cases result with
        | ok response => exact hK.pure _
        | error e => exact settleResolution_held r e

end Held

/-! ### A run that is resumed stays so -/

/-- The run does not wait for a human, and every worker is admitted. -/
structure Resumed (runKey : String) (w : World) : Prop where
  free : ¬ Held runKey w
  admits : ∀ profile, w.host.profilePreflight profile = none

section Resumed

variable {cfg : Config} {runKey : String} {w : World}

theorem Resumed.store {s : Store} (h : Resumed runKey w)
    (hs : ((s.runControl runKey).getD {}).state = .humanBlocked →
      ((w.store.runControl runKey).getD {}).state = .humanBlocked) :
    Resumed runKey { w with store := s } :=
  ⟨fun hheld => h.free (hs hheld), h.admits⟩

/-- What a body does does not make a resumed run wait for a human. -/
theorem resumed_body (runKey : String) :
    Body (fun {α} (p : Service α) =>
      ∀ w, Resumed runKey w → Resumed runKey (machine.eval p w).2) := by
  have hstore : ∀ o : StoreOp, o.isBody = true → ∀ w, Resumed runKey w →
      Resumed runKey (machine.eval (store o) w).2 := fun o ho w hw => by
    rw [HollysysController.store, Machine.eval_op_state, exec_store]
    exact hw.store (exec_avoids (by decide) ho w.now w.store runKey)
  refine body_of_ops (closed_eval machine _) (fun o ho => hstore o (StoreOp.isLive_isBody ho))
    (fun o w hw => ?_) (fun o w hw => ?_) (fun o w hw => ?_)
    (fun o ho => hstore o (StoreOp.isOutage_isBody ho))
    (fun t ht _ w hw => ?_) fun cfg run assignee w hw => ?_
  · rw [HollysysController.hermes, Machine.eval_op_state, exec_hermes]
    exact ⟨hw.free, hw.admits⟩
  · rw [HollysysController.gitlab, Machine.eval_op_state, exec_gitlab]
    exact ⟨hw.free, hw.admits⟩
  · rw [HollysysController.host, Machine.eval_op_state, exec_host]
    exact hw
  · rw [HollysysController.store, Machine.eval_op_state, exec_store]
    exact hw.store ((transitionRun_avoids ht w.now).commit w.store runKey)
  · have hdeep : machine.eval (HollysysController.store .deepPreflight) w =
        (.returned w.store.deepPreflight, w) := eval_store _ _
    have hprofile : machine.eval (HollysysController.host (.profilePreflight assignee)) w =
        (.returned none, w) := by
      rw [eval_host]
      simp [HostOp.exec, hw.admits]
    rw [show machine.eval (admitProfile cfg run assignee) w = _ from machine.eval_bind_of hdeep]
    split
    · change Resumed runKey
        (machine.eval ((HollysysController.host (.profilePreflight assignee)).bind _) w).2
      rw [machine.eval_bind_of hprofile]
      exact hw
    · exact hw

theorem resumed_request {o : StoreOp} (ho : Column.control ∉ o.writes) :
    ∀ w, Resumed runKey w → Resumed runKey (machine.eval (store o) w).2 := fun w hw => by
  rw [store, Machine.eval_op_state, exec_store]
  refine hw.store fun hs => ?_
  have hget := o.exec_get (c := .control) w.now w.store ho
  simp only [Column.get] at hget
  rwa [hget] at hs

theorem settleResolution_resumed (r : ResolveRequest) (e : ControllerError) :
    ∀ w, Resumed runKey w → Resumed runKey (machine.eval (settleResolution cfg r e) w).2 := by
  have hK := resumed_body runKey
  have hfail : ∀ text, ∀ w, Resumed runKey w →
      Resumed runKey (machine.eval (store (.failRequest r.key text)) w).2 := fun text =>
    resumed_request (by simp [StoreOp.writes])
  have houtage := hK.recordRequestDependencyError cfg r.runKey
  cases e with
  | dependency kind text c =>
    cases kind with
    | contract => exact hK.bind (hfail _) fun _ => hK.raise _
    | transient | rateLimited | auth => exact hK.bind (houtage _ _ _) fun _ => hK.raise _
  | runPolicy text =>
    unfold settleResolution
    dsimp only
    split
    · exact hK.raise _
    · exact hK.bind (hfail _) fun _ => hK.raise _
  | superseded | valueError | checkedHeadConflict | fatal | runtimeError | permissionError =>
    exact hK.bind (hfail _) fun _ => hK.raise _

/-- A held run is resumed before anything else is done. -/
theorem resumeRun_resumes {r : ResolveRequest} {run : RunRecord} (h : Held run.runKey w)
    (hadmits : ∀ profile, w.host.profilePreflight profile = none) :
    ∃ w', machine.eval (resumeRun r run) w = (.returned (), w') ∧ Resumed run.runKey w' := by
  obtain ⟨control, hc, hs⟩ := held_control h
  let t : Transition := {
    runKey := run.runKey
    expectedStates := [.humanBlocked]
    newState := .active
    reason := s!"human_resolve:{r.blockId}:actor=hollysys-controller"
    expectedVersion := some control.stateVersion }
  let s := { w.store with runControl := w.store.runControl.put run.runKey (t.apply w.now control) }
  have ht : machine.eval (store (.transitionRun t)) w =
      (.returned (t.apply w.now control), { w with store := s }) := by
    refine eval_store_returned.mpr ⟨s, Txn.commit_eq_ok.mpr ?_, rfl⟩
    simp [transitionRun, t, hc, hs, s]
  refine ⟨{ w with store := s }, ?_, ?_, hadmits⟩
  · refine machine.eval_bind_returned.mpr ⟨control, w, by rw [eval_runControl, hc]; rfl, ?_⟩
    rw [if_pos hs]
    exact machine.eval_bind_returned.mpr ⟨_, _, ht, rfl⟩
  · simp [Held, stateOf, s, t, Transition.apply]

/-- An answered block lets the run go on. -/
theorem resolve_moves {r : ResolveRequest} {s : Store} {items : List HistoryItem}
    {run : RunRecord} {i : HistoryItem} {found : Stage × CardRecord} (h : Held r.runKey w)
    (hadmits : ∀ profile, w.host.profilePreflight profile = none)
    (hbegin : beginRequest r.key r.payload w.store = .ok (none, s))
    (hread : machine.eval (history r.runKey) w = (.returned (items, run), w))
    (hitem : askedItem r items = .ok i) (hauth : authorizeResolution r run = .ok ())
    (hblock : blockedRecord r i = .ok found) :
    ¬ Held r.runKey (machine.eval (resolve cfg false r) w).2 := by
  have hK := resumed_body r.runKey
  have hrun : machine.eval (store (.beginRequest r.key r.payload)) w =
      (.returned none, { w with store := s }) :=
    eval_store_returned.mpr ⟨s, Txn.commit_eq_ok.mpr hbegin, rfl⟩
  have hheld : Held r.runKey { w with store := s } := by
    have := held_store (o := .beginRequest r.key r.payload) (by simp [StoreOp.writes]) h
    rwa [hrun] at this
  have hcards : s.managedCards = w.store.managedCards :=
    beginRequest_writes _ _ _ _ _ hbegin .cards (by simp)
  obtain ⟨out, hread₀, hread₁⟩ :=
    history_same (s := w) (t := { w with store := s }) hcards rfl r.runKey
  rw [hread] at hread₀
  cases hread₀
  have hkey := history_runKey hread
  obtain ⟨w₂, hresume, hresumed⟩ : ∃ w', machine.eval (resumeRun r run) { w with store := s } =
      (.returned (), w') ∧ Resumed run.runKey w' :=
    resumeRun_resumes (by rw [hkey]; exact hheld) hadmits
  rw [hkey] at hresumed
  obtain ⟨stage, record⟩ := found
  have hblocked : machine.eval (fromText (blockedRecord r i)) { w with store := s } =
      (.returned (stage, record), { w with store := s }) := by
    rw [hblock]
    rfl
  have hbody : Resumed r.runKey (machine.eval (resolveOnce cfg r) { w with store := s }).2 := by
    rw [show machine.eval (resolveOnce cfg r) _ = _ from (machine.eval_bind_of hread₁).trans <|
      (machine.eval_bind_of (eval_fromExcept.mpr ⟨hitem, rfl⟩)).trans <|
      (machine.eval_bind_of (eval_fromExcept.mpr ⟨hauth, rfl⟩)).trans <|
      (machine.eval_bind_of hblocked).trans (machine.eval_bind_of hresume)]
    exact hK.bind (hK.retryOf _ _ _ _ _ _ _)
      (fun retry => hK.settleBlock _ _ _ _ _ _ fun _ => resumed_request (by simp [StoreOp.writes]))
      w₂ hresumed
  have hend : Resumed r.runKey (machine.eval (resolve cfg false r) w).2 := by
    rw [show machine.eval (resolve cfg false r) w = _ from machine.eval_bind_of hrun]
    refine machine.eval_bind_keeps (I := Resumed r.runKey) ?_ fun result => ?_
    · rw [Machine.eval_attempt_state]
      exact hbody
    · cases result with
      | ok response => exact hK.pure _
      | error e => exact settleResolution_resumed r e
  exact hend.free

/-- A run that waits for a human is moved on exactly when one of its cards carries a
question that can be answered. -/
theorem movesOn_iff (h : Held runKey w) (hadmits : ∀ profile, w.host.profilePreflight profile = none) :
    MovesOn cfg runKey w ↔ Answerable runKey w := by
  constructor
  · rintro ⟨o, rfl, hmoved⟩
    by_contra hnot
    cases o with
    | reconcile k => exact hmoved (reconcileWithPolicy_held h)
    | resolve r => exact hmoved (resolve_held r hnot h)
    | recover r => exact hmoved (recover_held r h)
    | abortRequest token r => exact hmoved (abortRequest_held token r h)
    | abortConfirm c => exact hmoved (abortConfirm_held c h)
  · rintro ⟨r, s, items, run, i, found, rfl, hbegin, hread, hitem, hauth, hblock⟩
    exact ⟨.resolve r, rfl, resolve_moves h hadmits hbegin hread hitem hauth hblock⟩

/-- **A refused worker traps its run.** Once every worker is admitted, a run in
`retry_wait` is moved on by its next pass exactly when its MR was merged already, and a
run in `human_blocked` by some operation exactly when a card of it still carries a
worker's question. -/
theorem refusedRun_trapped_iff (cfg : Config) (runKey : String) (w : World)
    (hadmits : ∀ profile, w.host.profilePreflight profile = none) :
    (stateOf runKey w = .retryWait →
      (LeavesRetryWait cfg runKey w ↔ MergedOutside runKey w)) ∧
    (stateOf runKey w = .humanBlocked → (MovesOn cfg runKey w ↔ Answerable runKey w)) :=
  ⟨leavesRetryWait_iff, fun h => movesOn_iff h hadmits⟩

end Resumed

/-! ## A start whose worker is refused -/

/-- A deployment after its deep preflight, in which a worker profile is refused. -/
def refusingWorld (errorCode : String) : World :=
  { unstartedWorld with
    store := { deepPreflight := true }
    host := { profilePreflight := fun _ => some errorCode } }

/-- The message is delivered there, and later every profile is admitted. -/
def admittedWorld (errorCode : String) : World :=
  { (deliveredStart [] ⟨"g1", "k1"⟩ (refusingWorld errorCode)).after with host := {}, now := 200 }

/-- `Answerable` of a request, as a check that runs. -/
def answerableBy (r : ResolveRequest) (w : World) : Bool :=
  (match beginRequest r.key r.payload w.store with
    | .ok (none, _) => true
    | _ => false) &&
  match (machine.eval (history r.runKey) w).1 with
  | .returned (items, run) =>
    match askedItem r items with
    | .ok i => decide (authorizeResolution r run = .ok ()) &&
        (match blockedRecord r i with | .ok _ => true | .error _ => false)
    | .error _ => false
  | _ => false

theorem answerableBy_sound {r : ResolveRequest} {w : World} (h : answerableBy r w = true) :
    Answerable r.runKey w := by
  obtain ⟨out, hread, -⟩ := history_same (s := w) (t := w) rfl rfl r.runKey
  simp only [answerableBy, Bool.and_eq_true, hread] at h
  obtain ⟨hbegin, h⟩ := h
  split at hbegin
  · next s hs =>
    split at h
    · next items run =>
      split at h
      · next i hi =>
        obtain ⟨hauth, hblock⟩ := Bool.and_eq_true_iff.mp h
        split at hblock
        · next found hfound =>
          exact ⟨r, s, items, run, i, found, rfl, hs, hread, hi, of_decide_eq_true hauth, hfound⟩
        · cases hblock
      · cases h
    · cases h
  · cases hbegin

def sampleAnswer : ResolveRequest where
  runKey := "hollysys-k1"
  cardId := ⟨2⟩
  blockId := "hollysys-k1:t_2:1"
  messageId := "om_11"
  sender := "ou_1"
  chatId := "oc_1"
  answer := "the credential is there"

/-- No card of the run has a comment. -/
def uncommented (runKey : String) (w : World) : Bool :=
  match (machine.eval (history runKey) w).1 with
  | .returned (items, _) => items.all (·.task.comments.isEmpty)
  | _ => true

theorem uncommented_not_answerable {runKey : String} {w : World}
    (h : uncommented runKey w = true) : ¬ Answerable runKey w := by
  rintro ⟨r, s, items, run, i, found, rfl, -, hread, hitem, -, hblock⟩
  simp only [uncommented, hread, List.all_eq_true, List.isEmpty_iff] at h
  have hi : i ∈ items := by
    unfold askedItem at hitem
    split at hitem
    · cases hitem
    · next j hj =>
      split at hitem <;> cases hitem
      exact List.mem_of_find?_eq_some hj
  simp [blockedRecord, blockComment, h i hi] at hblock

/-- A start whose worker is refused leaves the run in `retry_wait` or `human_blocked`,
where neither the next pass nor any request moves it once the worker is admitted. -/
theorem refusedStart_trapped :
    (stateOf "hollysys-k1" (admittedWorld "dependency_unavailable") = .retryWait ∧
      ((admittedWorld "dependency_unavailable").store.runControl "hollysys-k1").bind
        (·.nextRetryAt) = some 105 ∧
      ¬ LeavesRetryWait sampleConfig "hollysys-k1" (admittedWorld "dependency_unavailable")) ∧
    (stateOf "hollysys-k1" (admittedWorld "auth_required") = .humanBlocked ∧
      ¬ MovesOn sampleConfig "hollysys-k1" (admittedWorld "auth_required")) := by
  have hunavailable : stateOf "hollysys-k1" (admittedWorld "dependency_unavailable") = .retryWait ∧
      ((admittedWorld "dependency_unavailable").store.runControl "hollysys-k1").bind
        (·.nextRetryAt) = some 105 ∧
      (machine.eval (reconcileRun sampleConfig "hollysys-k1")
        (admittedWorld "dependency_unavailable")).1 =
          .raised (.superseded "reconcile_superseded:hollysys-k1") := by
    decide +kernel
  have hrequired : stateOf "hollysys-k1" (admittedWorld "auth_required") = .humanBlocked ∧
      uncommented "hollysys-k1" (admittedWorld "auth_required") = true := by
    decide +kernel
  obtain ⟨hwait, hretry, hrefused⟩ := hunavailable
  obtain ⟨hheld, huncommented⟩ := hrequired
  refine ⟨⟨hwait, hretry, fun h => h.1 _ hrefused⟩, hheld, fun h => ?_⟩
  exact uncommented_not_answerable huncommented ((movesOn_iff hheld fun _ => rfl).mp h)

/-- The run that waits for an answer, on a host that admits every worker, is moved on
by it. -/
theorem waitingWorld_moves :
    MovesOn sampleConfig "hollysys-k1" { waitingWorld with host := {} } :=
  have hworld : stateOf "hollysys-k1" { waitingWorld with host := {} } = .humanBlocked ∧
      answerableBy sampleAnswer { waitingWorld with host := {} } = true := by
    decide +kernel
  ((refusedRun_trapped_iff sampleConfig "hollysys-k1" { waitingWorld with host := {} }
    (fun _ => rfl)).2 hworld.1).mpr (answerableBy_sound hworld.2)

end HollysysController
