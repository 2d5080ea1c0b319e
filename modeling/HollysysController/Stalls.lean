import HollysysController.Traversal

/-! # Held cards and silent passes

A work card that is blocked or in triage waits for the Controller. A pass over
an active run either does something about the card or leaves it as it is; this
module says what a pass owes the card and how its handlers of blocked cards end. -/

namespace HollysysController

open Durable

/-! ## What a pass owes -/

def stateOf (runKey : String) (w : World) : RunState :=
  ((w.store.runControl runKey).getD {}).state

/-- The card has left the hold. -/
def Released (c : HistoryItem) (w : World) : Prop :=
  ∃ t, w.hermes.find c.managed.board c.managed.cardId = some t ∧ t.status.isReleased = true

/-- The card was published, or the run was stopped, or a notice was enqueued. -/
def Told (runKey : String) (c : HistoryItem) (w w' : World) : Prop :=
  Released c w' ∨ stateOf runKey w' = .humanBlocked ∨ stateOf runKey w' = .exception ∨
    w'.store.outbox ≠ w.store.outbox

def CoolingDown (c : HistoryItem) (w : World) : Prop :=
  ∃ row, w.store.cardRuntime (c.managed.board, c.managed.cardId) = some row ∧
    row.attemptStatus = "provider_cooldown"

/-- A pass that answers has told somebody about the card, unless it cools down. -/
def NeverSilent (cfg : Config) (runKey : String) (c : HistoryItem) (w : World) : Prop :=
  CoolingDown c w ∨ ∀ u w', machine.eval (reconcileRun cfg runKey) w = (.returned u, w') →
    Told runKey c w w'

/-! ## When it is silent -/

/-- A blocked work card that the pass ends with. -/
def endsPass (i : HistoryItem) : Bool :=
  i.isWork && i.task.status == .blocked && ((fuseEvent i.task).isSome ||
    i.task.latestOutcome == none || i.task.latestOutcome == some "blocked")

theorem endsPass_card {i : HistoryItem} (h : endsPass i = true) :
    i.isWork = true ∧ i.task.status = .blocked := by
  simp only [endsPass, Bool.and_eq_true, beq_iff_eq] at h
  exact h.1

def activeItems (items : List HistoryItem) : List HistoryItem :=
  items.filter (·.task.status.isActive)

/-- The call of the release operation that publishing the card makes. -/
def publishCall (runKey : String) (i : HistoryItem) (w : World) : OperationCall :=
  releaseCall i.managed.board i.managed.idempotencyKey i.managed.cardId
    ((w.store.runControl runKey).getD {}).stateVersion

/-- The ledger answers the publishing of `i` without a promotion, or the pass
publishes another card than `c`. -/
def PublishesElsewhere (runKey : String) (i c : HistoryItem) (w : World) : Prop :=
  (∃ r s, operationResult (publishCall runKey i w) w.now w.store = .ok (some r, s)) ∨
  ((∃ s, operationResult (publishCall runKey i w) w.now w.store = .ok (none, s)) ∧
    i.managed.cardId ≠ c.managed.cardId)

/-- The notice that tells of the merge of the run's MR. -/
def mergeNotice (run : RunRecord) (iid : Nat) (merge : Option String) (compliance : String) :
    OutboxRow :=
  let tail := merge.getD (toString iid)
  if compliance = "verified" then
    { key := s!"{run.runKey}:merged:{tail}", runKey := run.runKey, event := "merged" }
  else
    { key := s!"{run.runKey}:merged-policy-violation:{tail}", runKey := run.runKey,
      event := "merged-policy-violation" }

/-- The merge of the MR is in order, and there is a notice of it already. -/
def MergeAnnounced (run : RunRecord) (items : List HistoryItem) (mr : MergeRequest) (w : World) :
    Prop :=
  (w.store.runControl run.runKey).isSome = true ∧
    ∃ head merge verdict, mergedMrIdentity mr = .ok (head, merge) ∧
      (machine.eval (mergedCompliance run items mr.iid head
        (managedMerge (w.store.operations s!"{run.runKey}:merge:{head}") head)) w).1 =
          .returned verdict ∧
      w.store.outbox.any (·.key == (mergeNotice run mr.iid merge verdict.1).key) = true

/-- The active cards let the pass go by `c`: no blocked card ends the pass and no two
cards are active against the rules, or the card that ends it has no finished attempt
and is published without effect on `c`. -/
def PassedBy (runKey : String) (items : List HistoryItem) (c : HistoryItem) (w : World) : Prop :=
  match (activeItems items).find? endsPass with
  | none => (activeItems items).length ≤ 1 ∨ resolutionWindow (activeItems items) = true
  | some i => fuseEvent i.task = none ∧ i.task.latestOutcome = none ∧
      PublishesElsewhere runKey i c w

/-- The pass overlooks the card: GitLab is backed off; or promotions are in order, and
the MR was merged and announced, or is not merged and the cards let the pass go by. -/
def Overlooked (runKey : String) (run : RunRecord) (items : List HistoryItem)
    (c : HistoryItem) (w : World) : Prop :=
  w.store.retryBlocked "gitlab" w.now = true ∨
  ((machine.eval (unauthorizedPromotion items) w).1 = .returned none ∧
    ∃ mr, (machine.eval (boundDeliveryMr .start run) w).1 = .returned mr ∧
      match mr.filter (·.state == "merged") with
      | some merged => MergeAnnounced run items merged w
      | none => PassedBy runKey items c w)

/-! ## Endings of the handlers -/

theorem stateOf_transition {t : Transition} {w w' : World} {a : RunControl}
    (h : machine.eval (store (.transitionRun t)) w = (.returned a, w')) :
    stateOf t.runKey w' = t.newState := by
  rw [eval_store] at h
  simp only [StoreOp.exec, Txn.commit, transitionRun] at h
  split at h
  · rename_i ho
    split at ho
    · rename_i hx
      split at hx
      · cases hx
      · split at hx
        · cases hx
        · split at hx
          · cases hx
          · cases hx
            cases ho
            cases h
            simp [stateOf, Transition.apply]
    · cases ho
  · cases h

theorem stateOf_setRunException {runKey reason : String} {w w' : World} {a : RunControl}
    (h : machine.eval (store (.setRunException runKey reason)) w = (.returned a, w')) :
    stateOf runKey w' = .exception := by
  rw [eval_store] at h
  simp only [StoreOp.exec, Txn.commit, setRunException] at h
  split at h
  · rename_i ho
    split at ho
    · rename_i hx
      split at hx
      · cases hx
      · rename_i row hrow
        split at hx
        · rename_i hst
          cases hx
          cases ho
          cases h
          simp [stateOf, hrow, hst]
        · have ht : machine.eval (store (.transitionRun
              { runKey, expectedStates := unsettledStates, newState := .exception, reason })) w =
              (.returned a, w') := by
            rw [eval_store]
            simp only [StoreOp.exec, Txn.commit, hx]
            cases ho
            exact h
          exact stateOf_transition ht
    · cases ho
  · cases h

/-- The state of a run changes by writes of the control table only. -/
theorem stateOf_store {o : StoreOp} {w w' : World} {r : Durable.Outcome ControllerError o.Ret}
    (h : machine.eval (store o) w = (r, w')) (ho : Column.control ∉ o.writes) (runKey : String) :
    stateOf runKey w' = stateOf runKey w := by
  have hw : w' = { w with store := (o.exec w.now w.store).2 } := by
    have := machine.eval_op_state (.store o) w
    rw [exec_store] at this
    exact (congrArg Prod.snd h).symm.trans this
  have hget := o.exec_get w.now w.store ho
  simp only [Column.get] at hget
  simp only [stateOf, hw, hget]

theorem enterException_returned {cfg : Config} {run : RunRecord} {id : CardId} {reason : String}
    {w w' : World} {u : Unit}
    (h : machine.eval (enterException cfg run id reason) w = (.returned u, w')) :
    stateOf run.runKey w' = .exception := by
  obtain ⟨_, w₁, -, h⟩ := machine.eval_bind_returned.mp h
  obtain ⟨r, w₂, hset, h⟩ := machine.eval_bind_returned.mp h
  cases r with
  | ok a =>
    cases h
    exact stateOf_setRunException (machine.eval_attempt_ok.mp hset)
  | error e =>
    exfalso
    dsimp only at h
    split at h
    · obtain ⟨control, w₃, -, h⟩ := machine.eval_bind_returned.mp h
      split at h
      · cases h
      · obtain ⟨_, w₄, -, h⟩ := machine.eval_bind_returned.mp h
        cases h
    · cases h

/-- `_exception` answers only with the run in exception. -/
theorem exception_returned {cfg : Config} {run : RunRecord} {id : CardId} {reason : String}
    {w w' : World} {t : TaskRecord}
    (h : machine.eval (exception cfg run id reason) w = (.returned t, w')) :
    stateOf run.runKey w' = .exception := by
  obtain ⟨_, w₁, -, h⟩ := machine.eval_bind_returned.mp h
  obtain ⟨task, w₂, -, h⟩ := machine.eval_bind_returned.mp h
  obtain ⟨_, w₃, henter, h⟩ := machine.eval_bind_returned.mp h
  obtain ⟨_, w₄, henqueue, h⟩ := machine.eval_bind_returned.mp h
  cases h
  rw [stateOf_store henqueue (by simp [StoreOp.writes])]
  exact enterException_returned henter

section Handlers

variable {cfg : Config} {run : RunRecord} {i : HistoryItem} {w w' : World} {u : Unit}

theorem fusedCard_returned {kind : String}
    (h : machine.eval (fusedCard cfg run i kind) w = (.returned u, w')) :
    stateOf run.runKey w' = .exception := by
  obtain ⟨_, w₁, -, h⟩ := machine.eval_bind_returned.mp h
  obtain ⟨archived, w₂, -, h⟩ := machine.eval_bind_returned.mp h
  split at h
  · cases h
  · obtain ⟨t, w₃, hexc, h⟩ := machine.eval_bind_returned.mp h
    cases h
    exact exception_returned hexc

theorem acceptedBlock_returned {comment : String} {fields : List (String × String)}
    (h : machine.eval (acceptedBlock cfg run i comment fields) w = (.returned u, w')) :
    stateOf run.runKey w' = .humanBlocked := by
  obtain ⟨_, w₁, -, h⟩ := machine.eval_bind_returned.mp h
  obtain ⟨current, w₂, hread, h⟩ := machine.eval_bind_returned.mp h
  split at h
  · obtain ⟨a, w₃, ht, h⟩ := machine.eval_bind_returned.mp h
    cases h
    exact stateOf_transition ht
  · rename_i hst
    cases h
    obtain ⟨control, w₃, hcontrol, hpure⟩ := machine.eval_bind_returned.mp hread
    cases hpure
    rw [eval_store] at hcontrol
    cases hcontrol
    simpa [stateOf] using hst

theorem rejectedBlock_returned {fields : List (String × String)}
    (h : machine.eval (rejectedBlock cfg run i fields) w = (.returned u, w')) :
    stateOf run.runKey w' = .exception := by
  unfold rejectedBlock at h
  dsimp only at h
  split at h
  · obtain ⟨_, w₁, -, h⟩ := machine.eval_bind_returned.mp h
    obtain ⟨_, w₂, -, h⟩ := machine.eval_bind_returned.mp h
    obtain ⟨t, w₃, hexc, h⟩ := machine.eval_bind_returned.mp h
    cases h
    exact exception_returned hexc
  · obtain ⟨t, w₃, hexc, h⟩ := machine.eval_bind_returned.mp h
    cases h
    exact exception_returned hexc

theorem humanBlock_returned {comment : String}
    (h : machine.eval (humanBlock cfg run i comment) w = (.returned u, w')) :
    stateOf run.runKey w' = .humanBlocked ∨ stateOf run.runKey w' = .exception := by
  obtain ⟨stage, w₁, -, h⟩ := machine.eval_bind_returned.mp h
  split at h
  · exact .inl (acceptedBlock_returned h)
  · exact .inr (rejectedBlock_returned h)

theorem silentBlock_returned (h : machine.eval (silentBlock cfg run i) w = (.returned u, w')) :
    stateOf run.runKey w' = .exception := by
  obtain ⟨_, w₁, -, h⟩ := machine.eval_bind_returned.mp h
  obtain ⟨t, w₂, hexc, h⟩ := machine.eval_bind_returned.mp h
  cases h
  exact exception_returned hexc

/-- A card with a given-up worker or a finished attempt stops the run. -/
theorem blockedCard_returned {b : Bool} (hends : endsPass i = true)
    (hnot : ¬ (fuseEvent i.task = none ∧ i.task.latestOutcome = none))
    (h : machine.eval (blockedCard cfg run i) w = (.returned b, w')) :
    stateOf run.runKey w' = .humanBlocked ∨ stateOf run.runKey w' = .exception := by
  unfold blockedCard at h
  cases hfuse : fuseEvent i.task with
  | some kind =>
    simp only [hfuse] at h
    obtain ⟨_, w₁, hf, h⟩ := machine.eval_bind_returned.mp h
    cases h
    exact .inr (fusedCard_returned hf)
  | none =>
    simp only [hfuse] at h
    cases hout : i.task.latestOutcome with
    | none => exact absurd ⟨hfuse, hout⟩ hnot
    | some outcome =>
      obtain rfl : outcome = "blocked" := by
        simp only [endsPass, hfuse, hout, Bool.and_eq_true] at hends
        simpa using hends.2
      simp only [hout] at h
      cases hcomment : humanBlockComment i.task with
      | some comment =>
        simp only [hcomment] at h
        obtain ⟨_, w₁, hb, h⟩ := machine.eval_bind_returned.mp h
        cases h
        exact humanBlock_returned hb
      | none =>
        simp only [hcomment] at h
        obtain ⟨_, w₁, hb, h⟩ := machine.eval_bind_returned.mp h
        cases h
        exact .inr (silentBlock_returned hb)

end Handlers

/-! ## The blocked cards of a pass -/

section BlockedCards

variable {cfg : Config} {run : RunRecord} {items : List HistoryItem} {w w' : World}

/-- A blocked work card that does not end the pass is passed over. -/
theorem blockedCard_passed {i : HistoryItem} (hw : i.isWork = true)
    (hb : i.task.status = .blocked) (hends : endsPass i = false) :
    blockedCard cfg run i = Prog.pure false := by
  simp only [endsPass, hw, hb, beq_self_eq_true, Bool.true_and, Bool.or_eq_false_iff,
    Option.isSome_eq_false_iff, Option.isNone_iff_eq_none, beq_eq_false_iff_ne] at hends
  unfold blockedCard
  simp only [hends.1.1]
  cases hout : i.task.latestOutcome with
  | none => exact absurd hout hends.1.2
  | some outcome =>
    have hne : outcome ≠ "blocked" := fun h => hends.2 (by rw [hout, h])
    simp [hne]

/-- A card that ends the pass says so. -/
theorem blockedCard_ends {i : HistoryItem} {b : Bool} (hends : endsPass i = true)
    (h : machine.eval (blockedCard cfg run i) w = (.returned b, w')) : b = true := by
  unfold blockedCard at h
  split at h
  · obtain ⟨_, _, -, h⟩ := machine.eval_bind_returned.mp h
    cases h
    rfl
  · rename_i hfuse
    split at h
    · obtain ⟨_, _, -, h⟩ := machine.eval_bind_returned.mp h
      obtain ⟨_, _, -, h⟩ := machine.eval_bind_returned.mp h
      cases h
      rfl
    · rename_i outcome hout
      split at h
      · rename_i hne
        simp [endsPass, hfuse, hout, hne] at hends
      · split at h <;> obtain ⟨_, _, -, h⟩ := machine.eval_bind_returned.mp h <;> cases h <;> rfl

/-- Without a card that ends the pass, the blocked cards change nothing. -/
theorem blockedCards_none (h : items.find? endsPass = none) :
    machine.eval (blockedCards cfg run items) w = (.returned false, w) := by
  induction items with
  | nil => rfl
  | cons i is ih =>
    have hi : endsPass i = false := by simpa using (List.find?_eq_none.mp h) i List.mem_cons_self
    have his : is.find? endsPass = none := by simpa [hi] using h
    unfold blockedCards
    split
    · rename_i hc
      simp only [Bool.and_eq_true, beq_iff_eq] at hc
      rw [blockedCard_passed hc.1 hc.2 hi]
      exact ih his
    · exact ih his

/-- An answer of the blocked cards is the answer of the first that ends the pass. -/
theorem blockedCards_some {i : HistoryItem} {b : Bool} (h : items.find? endsPass = some i)
    (hr : machine.eval (blockedCards cfg run items) w = (.returned b, w')) :
    machine.eval (blockedCard cfg run i) w = (.returned true, w') ∧ b = true := by
  induction items with
  | nil => cases h
  | cons j js ih =>
    unfold blockedCards at hr
    cases hj : endsPass j with
    | true =>
      obtain rfl : j = i := by simpa [hj] using h
      have hc := endsPass_card hj
      simp only [hc.1, hc.2, beq_self_eq_true, Bool.and_self, if_true] at hr
      obtain ⟨done, w₁, hb, hr⟩ := machine.eval_bind_returned.mp hr
      obtain rfl := blockedCard_ends hj hb
      cases hr
      exact ⟨hb, rfl⟩
    | false =>
      have hjs : js.find? endsPass = some i := by simpa [hj] using h
      split at hr
      · rename_i hc
        simp only [Bool.and_eq_true, beq_iff_eq] at hc
        rw [blockedCard_passed hc.1 hc.2 hj] at hr
        exact ih hjs hr
      · exact ih hjs hr

/-- The pass over the blocked cards answers what the card answers that ends it. -/
theorem blockedCards_eval {i : HistoryItem} (hends : items.find? endsPass = some i)
    (hrun : machine.eval (blockedCard cfg run i) w = (.returned true, w')) :
    machine.eval (blockedCards cfg run items) w = (.returned true, w') := by
  induction items with
  | nil => cases hends
  | cons j js ih =>
    unfold blockedCards
    cases hj : endsPass j with
    | true =>
      obtain rfl : j = i := by simpa [hj] using hends
      have hc := endsPass_card hj
      simp only [hc.1, hc.2, beq_self_eq_true, Bool.and_self, if_true]
      exact machine.eval_bind_returned.mpr ⟨true, w', hrun, rfl⟩
    | false =>
      have hjs : js.find? endsPass = some i := by simpa [hj] using hends
      split
      · rename_i hc
        simp only [Bool.and_eq_true, beq_iff_eq] at hc
        rw [blockedCard_passed hc.1 hc.2 hj]
        exact ih hjs
      · exact ih hjs

end BlockedCards

/-! ## Publishing a held card -/

section Publishing

variable {run : RunRecord} {w w' : World} {t : HermesTask}

/-- A held card is promoted and found released. -/
theorem release_eval {board : String} {id : CardId} (hf : w.hermes.find board id = some t)
    (ht : t.status = .blocked) :
    ∃ status, (status = .ready ∨ status = .todo) ∧ machine.eval (release board id) w =
      (.returned (), { w with hermes := w.hermes.promoted board id status w.now }) := by
  have hexists : ∃ status, (status = .ready ∨ status = .todo) ∧
      Hermes.promote board id w.now w.hermes =
        .ok ((), w.hermes.promoted board id status w.now) := by
    refine ⟨if w.hermes.parentsSettled t then .ready else .todo, by split <;> simp, ?_⟩
    simp [Hermes.promote, hf, ht, Hermes.promoted]
  obtain ⟨status, hs, hx⟩ := hexists
  refine ⟨status, hs, ?_⟩
  have hreleased : status.isReleased = true := by
    rcases hs with rfl | rfl <;> rfl
  have hpromote : machine.eval (hermes (.promote board id)) w =
      (.returned (), { w with hermes := w.hermes.promoted board id status w.now }) := by
    rw [eval_hermes]
    simp [HermesOp.exec, Command.commit, hx]
  have hbefore : w.hermes.task board id = some (w.hermes.snapshot t) := by
    simp [Hermes.task, hf]
  have hheld : (w.hermes.snapshot t).status.isReleased = false := by
    simp [Hermes.snapshot, ht, TaskStatus.isReleased]
  have hafter : (w.hermes.promoted board id status w.now).task board id =
      some ((w.hermes.promoted board id status w.now).snapshot (t.withStatus status)) := by
    simp [Hermes.task, Hermes.find_promoted hf]
  refine machine.eval_bind_returned.mpr ⟨_, _, eval_task _ _ _, ?_⟩
  simp only [hbefore, hheld, Bool.false_eq_true, if_false]
  refine machine.eval_bind_returned.mpr ⟨_, _, machine.eval_attempt_ok.mpr hpromote, ?_⟩
  refine machine.eval_bind_returned.mpr ⟨_, _, eval_task _ _ _, ?_⟩
  simp [hafter, Hermes.snapshot, HermesTask.withStatus, hreleased]

theorem assertReconcileMutable_eval {runKey : String}
    (h : (stateOf runKey w).isReconcilable = true) :
    machine.eval (assertReconcileMutable runKey) w =
      (.returned ((w.store.runControl runKey).getD {}), w) := by
  refine machine.eval_bind_returned.mpr ⟨(w.store.runControl runKey).getD {}, w, ?_, ?_⟩
  · exact machine.eval_bind_returned.mpr ⟨_, _, eval_readControl _ _, rfl⟩
  · unfold stateOf at h
    rw [if_pos h]
    rfl

theorem assertVersion_eval {runKey : String} (text : String)
    (h : (stateOf runKey w).isReconcilable = true)
    {version : Nat} (hv : ((w.store.runControl runKey).getD {}).stateVersion = version) :
    machine.eval (assertVersion (some runKey) (some version) text) w = (.returned (), w) := by
  refine machine.eval_bind_returned.mpr ⟨_, _, assertReconcileMutable_eval h, ?_⟩
  rw [if_neg (not_not_intro hv)]
  rfl

/-- The call that publishing `task` makes. -/
def ensureCall (run : RunRecord) (task : TaskRecord) (record : CardRecord) (w : World) :
    OperationCall :=
  releaseCall run.workspace.board record.idempotencyKey task.id
    ((w.store.runControl run.runKey).getD {}).stateVersion

/-- What publishing does when the ledger does not answer it. -/
def publishAction (run : RunRecord) (task : TaskRecord) : Service OperationResult := do
  release run.workspace.board task.id
  pure (.card task.id)

/-- Publishing in a run that may be changed: the ledger, the operation, the read. -/
theorem ensureWorkPublished_eval {task t' : TaskRecord} {record : CardRecord}
    (hst : (stateOf run.runKey w).isReconcilable = true)
    (hparse : parseCardBody task.body = .ok record) :
    machine.eval (ensureWorkPublished run task) w = (.returned t', w') ↔
      ∃ previous s result, operationResult (ensureCall run task record w) w.now w.store =
          .ok (previous, s) ∧
        machine.eval (runOperation (ensureCall run task record w) (some run.runKey)
          (publishAction run task) previous) { w with store := s } = (.returned result, w') ∧
        w'.hermes.task run.workspace.board task.id = some t' := by
  have hversion := assertVersion_eval "operation_state_version_changed" hst rfl
  constructor
  · intro h
    obtain ⟨control, w₁, hc, h⟩ := machine.eval_bind_returned.mp h
    rw [assertReconcileMutable_eval hst] at hc
    cases hc
    obtain ⟨r, w₂, hr, h⟩ := machine.eval_bind_returned.mp h
    rw [hparse] at hr
    cases hr
    obtain ⟨result, w₃, hop, h⟩ := machine.eval_bind_returned.mp h
    obtain ⟨_, w₄, hv, hop⟩ := machine.eval_bind_returned.mp hop
    cases hversion.symm.trans hv
    obtain ⟨previous, w₅, hclaim, hrun⟩ := machine.eval_bind_returned.mp hop
    obtain ⟨s, hs, rfl⟩ := eval_store_returned.mp hclaim
    obtain ⟨refreshed, w₆, htask, h⟩ := machine.eval_bind_returned.mp h
    rw [eval_task] at htask
    cases htask
    refine ⟨previous, s, result, Txn.commit_eq_ok.mp hs, ?_⟩
    split at h
    · cases h
    · rename_i t ht
      cases h
      exact ⟨hrun, ht⟩
  · rintro ⟨previous, s, result, hclaim, hrun, htask⟩
    refine machine.eval_bind_returned.mpr ⟨_, _, assertReconcileMutable_eval hst, ?_⟩
    refine machine.eval_bind_returned.mpr ⟨record, w, by rw [hparse]; rfl, ?_⟩
    refine machine.eval_bind_returned.mpr ⟨result, w', ?_, ?_⟩
    · refine machine.eval_bind_returned.mpr ⟨(), w, hversion, ?_⟩
      exact machine.eval_bind_returned.mpr ⟨previous, _,
        eval_store_returned.mpr ⟨s, Txn.commit_eq_ok.mpr hclaim, rfl⟩, hrun⟩
    · refine machine.eval_bind_returned.mpr ⟨_, _, eval_task _ _ _, ?_⟩
      rw [htask]
      rfl

end Publishing

end HollysysController
