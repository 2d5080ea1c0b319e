import HollysysController.Admissions
import HollysysController.SilentExceptions

/-! # Silent passes

A pass over an active run comes to a held work card only when nothing before it ends the pass,
and then looks at those that are blocked. What it does not look at stays where it is. -/

namespace HollysysController

open Durable

/-! ## What the pass has read -/

section Reads

variable {runKey : String} {w w' : World}

theorem readItems_read {cards : List ManagedCard} {items : List HistoryItem}
    (h : machine.eval (readItems cards) w = (.returned items, w')) :
    ∀ i ∈ items, w.hermes.task i.managed.board i.managed.cardId = some i.task := by
  induction cards generalizing items w' with
  | nil =>
    cases h
    intro i hi
    cases hi
  | cons c cs ih =>
    obtain ⟨task, w₁, htask, h⟩ := machine.eval_bind_returned.mp h
    rw [eval_task] at htask
    obtain ⟨hfound, rfl⟩ := Prod.mk.inj htask
    cases task with
    | none => cases h
    | some task =>
      obtain ⟨rest, w₂, hrest, h⟩ := machine.eval_bind_returned.mp h
      cases h
      intro i hi
      rcases List.mem_cons.mp hi with rfl | hi
      · exact Outcome.returned.inj hfound
      · exact ih hrest i hi

/-- Every item of a history is what the board holds of its card. -/
theorem history_items {items : List HistoryItem} {run : RunRecord}
    (h : machine.eval (history runKey) w = (.returned (items, run), w')) :
    verifyHistory runKey items = .ok run ∧
      ∀ i ∈ items, w.hermes.task i.managed.board i.managed.cardId = some i.task := by
  obtain ⟨cards, w₁, hcards, h⟩ := machine.eval_bind_returned.mp h
  obtain ⟨s, hs, rfl⟩ := eval_store_returned.mp hcards
  cases hs
  split at h
  · cases h
  · obtain ⟨items', w₂, hitems, h⟩ := machine.eval_bind_returned.mp h
    obtain ⟨run', w₃, hrun, h⟩ := machine.eval_bind_returned.mp h
    obtain ⟨hverify, rfl⟩ := eval_fromExcept.mp hrun
    cases h
    exact ⟨hverify, readItems_read hitems⟩

end Reads

/-! ## A card that waits -/

/-- The history of an active run holds the work card, which waits for the Controller. -/
structure Waiting (runKey : String) (run : RunRecord) (items : List HistoryItem)
    (c : HistoryItem) (w : World) : Prop where
  active : stateOf runKey w = .active
  history : machine.eval (history runKey) w = (.returned (items, run), w)
  /-- The cards of a run are on its board. -/
  boards : ∀ i ∈ items, i.managed.board = run.workspace.board
  mem : c ∈ items
  work : c.isWork = true
  held : c.task.status = .blocked ∨ c.task.status = .triage

/-- A root card that starts the run, whatever else there is. -/
def startsRun (items : List HistoryItem) : Option HistoryItem :=
  (activeItems items).find? fun i => i.isRoot && i.task.status == .blocked

section Pass

variable {cfg : Config} {runKey : String} {run : RunRecord} {items : List HistoryItem}
variable {c i : HistoryItem} {w w' : World} {u : Unit}

namespace Waiting

theorem runKey_eq (h : Waiting runKey run items c w) : run.runKey = runKey :=
  history_runKey h.history

theorem found (h : Waiting runKey run items c w) (hi : i ∈ items) :
    ∃ t, w.hermes.find i.managed.board i.managed.cardId = some t ∧
      w.hermes.snapshot t = i.task := by
  have htask := (history_items h.history).2 i hi
  rw [Hermes.task, Option.map_eq_some_iff] at htask
  exact htask

/-- What is held in the history is held on the board. -/
theorem not_released (h : Waiting runKey run items c w) {h' : Hermes}
    (hsame : h'.find c.managed.board c.managed.cardId =
      w.hermes.find c.managed.board c.managed.cardId) (s : Store) :
    ¬ Released c { w with store := s, hermes := h' } := by
  rintro ⟨t, ht, hreleased⟩
  obtain ⟨t', ht', hc⟩ := h.found h.mem
  obtain rfl : t' = t := Option.some.inj (ht'.symm.trans (hsame.symm.trans ht))
  have hstatus : t'.status = c.task.status := by rw [← hc]; rfl
  rw [hstatus] at hreleased
  rcases h.held with hs | hs
  · rw [hs] at hreleased
    cases hreleased
  · rw [hs] at hreleased
    cases hreleased

/-- Nobody is told by what leaves the card and the notices alone and does not stop the run. -/
theorem not_told_of (h : Waiting runKey run items c w) {s : Store} {h' : Hermes}
    (hsame : h'.find c.managed.board c.managed.cardId =
      w.hermes.find c.managed.board c.managed.cardId)
    (hblocked : stateOf runKey { w with store := s, hermes := h' } ≠ .humanBlocked)
    (hexception : stateOf runKey { w with store := s, hermes := h' } ≠ .exception)
    (houtbox : s.outbox = w.store.outbox) :
    ¬ Told runKey c w { w with store := s, hermes := h' } := by
  rintro (hreleased | hstate | hstate | hnotice)
  · exact h.not_released hsame s hreleased
  · exact hblocked hstate
  · exact hexception hstate
  · exact hnotice houtbox

/-- Nobody is told by what leaves the card, the state of the run and the notices alone. -/
theorem not_told (h : Waiting runKey run items c w) {s : Store} {h' : Hermes}
    (hsame : h'.find c.managed.board c.managed.cardId =
      w.hermes.find c.managed.board c.managed.cardId)
    (hcontrol : s.runControl = w.store.runControl) (houtbox : s.outbox = w.store.outbox) :
    ¬ Told runKey c w { w with store := s, hermes := h' } := by
  have hstate : stateOf runKey { w with store := s, hermes := h' } = .active := by
    rw [← h.active]
    simp only [stateOf, hcontrol]
  exact h.not_told_of hsame (by rw [hstate]; decide) (by rw [hstate]; decide) houtbox

theorem not_told_self (h : Waiting runKey run items c w) : ¬ Told runKey c w w :=
  h.not_told (s := w.store) rfl rfl rfl

/-! ## The way to the cards -/

theorem eval_backedOff (h : Waiting runKey run items c w)
    (hblocked : w.store.retryBlocked "gitlab" w.now = true) :
    machine.eval (reconcileRun cfg runKey) w = (.returned (), w) := by
  have hstate : ((w.store.runControl runKey).getD {}).state = .active := h.active
  refine (machine.eval_bind_of (eval_runControl runKey w)).trans ?_
  simp only [hstate, RunState.isTerminal, reduceCtorEq, or_self, if_false, Bool.false_eq_true]
  have hread : machine.eval (store (.retryBlocked "gitlab")) w = (.returned true, w) :=
    eval_store_returned.mpr ⟨w.store, by simp [StoreOp.exec, hblocked], rfl⟩
  exact (machine.eval_bind_of hread).trans rfl

theorem eval_open (h : Waiting runKey run items c w)
    (hopen : w.store.retryBlocked "gitlab" w.now = false) :
    machine.eval (reconcileRun cfg runKey) w = machine.eval (reconcileMutable cfg runKey) w := by
  have hstate : ((w.store.runControl runKey).getD {}).state = .active := h.active
  refine (machine.eval_bind_of (eval_runControl runKey w)).trans ?_
  simp only [hstate, RunState.isTerminal, reduceCtorEq, or_self, if_false, Bool.false_eq_true]
  have hread : machine.eval (store (.retryBlocked "gitlab")) w = (.returned false, w) :=
    eval_store_returned.mpr ⟨w.store, by simp [StoreOp.exec, hopen], rfl⟩
  exact (machine.eval_bind_of hread).trans rfl

/-- Promotions and MR in order, the pass comes to the cards. -/
theorem eval_cards (h : Waiting runKey run items c w)
    (hpromotions : machine.eval (unauthorizedPromotion items) w = (.returned none, w))
    {mr : Option MergeRequest}
    (hmr : machine.eval (boundDeliveryMr .start run) w = (.returned mr, w))
    (hopened : mr.filter (·.state == "merged") = none) :
    machine.eval (reconcileMutable cfg runKey) w =
      machine.eval (reconcileCards cfg run items) w := by
  have hmutable : (stateOf runKey w).isReconcilable = true := by rw [h.active]; rfl
  refine (machine.eval_bind_of h.history).trans ?_
  refine (machine.eval_bind_of hpromotions).trans ?_
  refine (machine.eval_bind_of hmr).trans ?_
  simp only [hopened]
  exact machine.eval_bind_of (assertReconcileMutable_eval hmutable)

theorem mem_active (h : Waiting runKey run items c w) : c ∈ activeItems items := by
  refine List.mem_filter.mpr ⟨h.mem, ?_⟩
  rcases h.held with hs | hs
  · rw [hs]
    rfl
  · rw [hs]
    rfl

theorem active_ne_nil (h : Waiting runKey run items c w) : activeItems items ≠ [] :=
  List.ne_nil_of_mem h.mem_active

/-- Without a root to start with, the active cards are looked at. -/
theorem reconcileCards_eq (h : Waiting runKey run items c w) (hroot : startsRun items = none) :
    reconcileCards cfg run items = (do
      if ← blockedCards cfg run (activeItems items) then pure ()
      else reconcileActive cfg run items (activeItems items)) := by
  have hne := h.active_ne_nil
  unfold startsRun activeItems at hroot
  unfold activeItems at hne ⊢
  unfold reconcileCards
  simp only [hroot, hne, if_false]

end Waiting

/-! ## Publishing a card that no attempt has finished -/

/-- An operation that the ledger does not answer, done in a run that nobody moves. -/
theorem runOperation_done {call : OperationCall} {action : Service OperationResult}
    {result : OperationResult} (haction : machine.eval action w = (.returned result, w'))
    (hmutable : (stateOf runKey w').isReconcilable = true)
    (hversion : call.expectedStateVersion =
      some ((w'.store.runControl runKey).getD {}).stateVersion) :
    ∃ s, machine.eval (runOperation call (some runKey) action none) w =
        (.returned result, { w' with store := s }) ∧
      s.runControl = w'.store.runControl ∧ s.outbox = w'.store.outbox := by
  let s : Store := { w'.store with
    operations := w'.store.operations.modify call.key fun row =>
      { row with status := .done, result := some result, error := none, uncertainAt := none } }
  have hfinish : machine.eval (store (.finishOperation call.key result)) w' =
      (.returned (), { w' with store := s }) := eval_store _ _
  have hcheck : machine.eval (assertVersion (some runKey) call.expectedStateVersion
      "discarded_stale_operation_result") { w' with store := s } =
        (.returned (), { w' with store := s }) := by
    rw [hversion]
    exact assertVersion_eval (w := { w' with store := s }) _ hmutable rfl
  refine ⟨s, ?_, rfl, rfl⟩
  refine machine.eval_bind_returned.mpr ⟨.ok result, _, machine.eval_attempt_ok.mpr ?_, rfl⟩
  refine machine.eval_bind_returned.mpr ⟨result, w', haction, ?_⟩
  refine machine.eval_bind_returned.mpr ⟨(), _, hfinish, ?_⟩
  exact machine.eval_bind_returned.mpr ⟨(), _, hcheck, rfl⟩

namespace Waiting

theorem mutable (h : Waiting runKey run items c w) :
    (stateOf run.runKey w).isReconcilable = true := by
  rw [h.runKey_eq, h.active]
  rfl

theorem task_id (h : Waiting runKey run items c w) (hi : i ∈ items) :
    i.task.id = i.managed.cardId := by
  obtain ⟨t, ht, htask⟩ := h.found hi
  rw [← htask]
  exact (Hermes.mem_of_find ht).2.2

/-- The ledger is asked about the release of the card itself. -/
theorem ensureCall_eq (h : Waiting runKey run items c w) (hi : i ∈ items)
    (hwork : i.isWork = true) :
    ∃ record, parseCardBody i.task.body = .ok record ∧
      ensureCall run i.task record w = publishCall runKey i w := by
  obtain ⟨hverify, -⟩ := history_items h.history
  obtain ⟨record, hbody, -, -, -, hkey⟩ :=
    verifyWorkItem_record (verifyHistory_work hverify hi hwork)
  refine ⟨record, by rw [hbody]; rfl, ?_⟩
  rw [ensureCall, publishCall, h.runKey_eq, h.boards i hi, hkey, h.task_id hi]

/-- What the ledger answers is not done again. -/
theorem publish_answered (h : Waiting runKey run items c w) (hi : i ∈ items)
    (hwork : i.isWork = true) {r : OperationResult} {s : Store}
    (hanswer : operationResult (publishCall runKey i w) w.now w.store = .ok (some r, s)) :
    machine.eval (ensureWorkPublished run i.task) w = (.returned i.task, w) := by
  obtain ⟨record, hparse, hcall⟩ := h.ensureCall_eq hi hwork
  obtain rfl : s = w.store := by
    rcases operationResult_cases (publishCall runKey i w) w.now w.store with
      ⟨e, hx⟩ | ⟨r', hx⟩ | ⟨s', row, hx, -⟩
    · rw [hx] at hanswer
      cases hanswer
    · rw [hx] at hanswer
      cases hanswer
      rfl
    · rw [hx] at hanswer
      cases hanswer
  have htask : w.hermes.task run.workspace.board i.task.id = some i.task := by
    rw [h.task_id hi, ← h.boards i hi]
    exact (history_items h.history).2 i hi
  refine (ensureWorkPublished_eval h.mutable hparse).mpr ⟨some r, w.store, r, ?_, rfl, htask⟩
  rw [hcall]
  exact hanswer

/-- What the ledger does not answer is done: the card is promoted. -/
theorem publish_claimed (h : Waiting runKey run items c w) (hi : i ∈ items)
    (hwork : i.isWork = true) (hblocked : i.task.status = .blocked) {s : Store}
    (hclaim : operationResult (publishCall runKey i w) w.now w.store = .ok (none, s)) :
    ∃ t' s' status, machine.eval (ensureWorkPublished run i.task) w = (.returned t',
        { w with
          store := s'
          hermes := w.hermes.promoted i.managed.board i.managed.cardId status w.now }) ∧
      (status = .ready ∨ status = .todo) ∧ s'.runControl = w.store.runControl ∧
      s'.outbox = w.store.outbox := by
  obtain ⟨record, hparse, hcall⟩ := h.ensureCall_eq hi hwork
  obtain ⟨t, ht, htask⟩ := h.found hi
  have hstatus : t.status = .blocked := by
    rw [← hblocked, ← htask]
    rfl
  obtain ⟨row, hrow⟩ := operationResult_claimed hclaim
  have hfind : w.hermes.find run.workspace.board i.task.id = some t := by
    rw [← h.boards i hi, h.task_id hi]
    exact ht
  obtain ⟨status, hreleased, hrelease⟩ := release_eval (w := { w with store := s }) hfind hstatus
  let hermes := w.hermes.promoted run.workspace.board i.task.id status w.now
  have haction : machine.eval (publishAction run i.task) { w with store := s } =
      (.returned (.card i.task.id), { w with store := s, hermes }) :=
    machine.eval_bind_returned.mpr ⟨(), _, hrelease, rfl⟩
  have hcontrol : s.runControl = w.store.runControl := by rw [hrow.store]
  have hversion : (publishCall runKey i w).expectedStateVersion =
      some ((s.runControl run.runKey).getD {}).stateVersion := by
    rw [hcontrol, h.runKey_eq]
    rfl
  have hmutable : (stateOf run.runKey { w with store := s, hermes }).isReconcilable = true := by
    rw [stateOf, hcontrol]
    exact h.mutable
  obtain ⟨s', hrun, hcontrol', houtbox⟩ := runOperation_done haction hmutable hversion
  have hread : hermes.task run.workspace.board i.task.id =
      some (hermes.snapshot (t.withStatus status)) := by
    rw [Hermes.task, Hermes.find_promoted hfind]
    rfl
  refine ⟨hermes.snapshot (t.withStatus status), s', status, ?_, hreleased,
    hcontrol'.trans hcontrol, houtbox.trans (by rw [hrow.store])⟩
  rw [h.boards i hi, ← h.task_id hi]
  refine (ensureWorkPublished_eval h.mutable hparse).mpr ⟨none, s, .card i.task.id, ?_, ?_, hread⟩
  · rw [hcall]
    exact hclaim
  · rw [hcall]
    exact hrun

/-- A publish that answers was answered by the ledger, or claimed there. -/
theorem publish_returned (h : Waiting runKey run items c w) (hi : i ∈ items)
    (hwork : i.isWork = true) {t' : TaskRecord}
    (hrun : machine.eval (ensureWorkPublished run i.task) w = (.returned t', w')) :
    ∃ previous s, operationResult (publishCall runKey i w) w.now w.store = .ok (previous, s) := by
  obtain ⟨record, hparse, hcall⟩ := h.ensureCall_eq hi hwork
  obtain ⟨previous, s, -, hclaim, -, -⟩ := (ensureWorkPublished_eval h.mutable hparse).mp hrun
  exact ⟨previous, s, by rw [← hcall]; exact hclaim⟩

end Waiting

/-! ## The endings of a pass -/

theorem eval_notice (row : OutboxRow) (w : World) :
    ∃ s, machine.eval (store (.enqueue row)) w = (.returned (), { w with store := s }) ∧
      s.runControl = w.store.runControl ∧ s.outbox = noticed row w.store.outbox := by
  obtain ⟨s, hrow, hcontrol⟩ := eval_enqueue row w
  refine ⟨s, hrow, hcontrol, ?_⟩
  rw [← outbox_enqueue row w, hrow]

/-- The end of a merged run that was active completes it, with the notice of its merge. -/
theorem finalizeMerged_returned {mr : MergeRequest} (hactive : stateOf run.runKey w = .active)
    (h : machine.eval (finalizeMerged run items mr) w = (.returned u, w')) :
    (w.store.runControl run.runKey).isSome = true ∧
    ∃ head merge verdict s, mergedMrIdentity mr = .ok (head, merge) ∧
      machine.eval (mergedCompliance run items mr.iid head
        (managedMerge (w.store.operations s!"{run.runKey}:merge:{head}") head)) w =
          (.returned verdict, w) ∧
      w' = { w with store := s } ∧
      s.outbox = noticed (mergeNotice run mr.iid merge verdict.1) w.store.outbox := by
  obtain ⟨⟨head, merge⟩, w₁, hread, h⟩ := machine.eval_bind_returned.mp h
  obtain ⟨hidentity, rfl⟩ := eval_fromExcept.mp hread
  obtain ⟨row, w₂, hrow, h⟩ := machine.eval_bind_returned.mp h
  obtain ⟨s, hs, rfl⟩ := eval_store_returned.mp hrow
  cases hs
  obtain ⟨verdict, w₃, hverdict, h⟩ := machine.eval_bind_returned.mp h
  have hsame := (stillReading w).mergedCompliance run items mr.iid head
    (managedMerge (w.store.operations s!"{run.runKey}:merge:{head}") head) w rfl
  rw [hverdict] at hsame
  obtain rfl : w₃ = w := hsame
  obtain ⟨control, w₄, hcontrol, h⟩ := machine.eval_bind_returned.mp h
  rw [eval_runControl] at hcontrol
  cases hcontrol
  have hstate : ((w₃.store.runControl run.runKey).getD {}).state = .active := hactive
  simp only [hstate, reduceCtorEq, or_self, if_false, RunState.isTerminal, Bool.false_eq_true] at h
  obtain ⟨a, w₅, hmark, h⟩ := machine.eval_bind_returned.mp h
  obtain ⟨s₁, hs₁, rfl⟩ := eval_store_returned.mp hmark
  have houtbox : s₁.outbox = w₃.store.outbox := by
    have hget := (StoreOp.markCompleted run.runKey (!managedMerge (w₃.store.operations
      s!"{run.runKey}:merge:{head}") head) verdict.1 head merge verdict.2).exec_get (c := .outbox)
        w₃.now w₃.store (by simp [StoreOp.writes])
    rw [hs₁] at hget
    exact hget
  have hknown : (w₃.store.runControl run.runKey).isSome = true := by
    cases hc : w₃.store.runControl run.runKey with
    | some control => rfl
    | none =>
      have hrefused := Txn.commit_eq_ok.mp hs₁
      simp only [markCompleted, hc] at hrefused
      split at hrefused
      · cases hrefused
      · split at hrefused <;> cases hrefused
  refine ⟨hknown, head, merge, verdict, ?_⟩
  obtain ⟨s₂, hnotice, -, hbox⟩ :=
    eval_notice (mergeNotice run mr.iid merge verdict.1) { w₃ with store := s₁ }
  have hend : machine.eval (store (.enqueue (mergeNotice run mr.iid merge verdict.1)))
      { w₃ with store := s₁ } = (.returned u, w') := by
    by_cases hv : verdict.1 = "verified"
    · rw [mergeNotice, if_pos hv]
      rwa [if_pos hv] at h
    · rw [mergeNotice, if_neg hv]
      rwa [if_neg hv] at h
  rw [hnotice] at hend
  cases hend
  exact ⟨s₂, hidentity, hverdict, rfl, by rw [hbox, houtbox]⟩

/-- A row under a new key is a new row. -/
theorem noticed_eq_iff (row : OutboxRow) (box : List OutboxRow) :
    noticed row box = box ↔ box.any (·.key == row.key) = true := by
  unfold noticed
  split
  · next h => exact iff_of_true rfl h
  · next h => exact iff_of_false (by simp) h

/-- A merge is told unless it was announced before. -/
theorem finalizeMerged_tells {mr : MergeRequest} (hactive : stateOf run.runKey w = .active)
    (hnot : ¬ MergeAnnounced run items mr w)
    (h : machine.eval (finalizeMerged run items mr) w = (.returned u, w')) :
    w'.store.outbox ≠ w.store.outbox := by
  obtain ⟨hknown, head, merge, verdict, s, hidentity, hverdict, rfl, hbox⟩ :=
    finalizeMerged_returned hactive h
  intro hsame
  refine hnot ⟨hknown, head, merge, verdict, hidentity, congrArg Prod.fst hverdict, ?_⟩
  exact (noticed_eq_iff _ _).mp (hbox.symm.trans hsame)

/-- A merge that was announced before completes the run, and nothing else. -/
theorem finalizeMerged_silent {mr : MergeRequest} (hactive : stateOf run.runKey w = .active)
    (h : MergeAnnounced run items mr w) :
    ∃ s, machine.eval (finalizeMerged run items mr) w = (.returned (), { w with store := s }) ∧
      stateOf run.runKey { w with store := s } = .completed ∧ s.outbox = w.store.outbox := by
  obtain ⟨hknown, head, merge, verdict, hidentity, hverdict, hbox⟩ := h
  obtain ⟨control, hc⟩ := Option.isSome_iff_exists.mp hknown
  have hstate : control.state = .active := by
    simpa [stateOf, hc] using hactive
  have hread : machine.eval (mergedCompliance run items mr.iid head
      (managedMerge (w.store.operations s!"{run.runKey}:merge:{head}") head)) w =
        (.returned verdict, w) :=
    Prod.ext hverdict ((stillReading w).mergedCompliance run items mr.iid head _ w rfl)
  obtain ⟨w', hrun, hcompleted⟩ := finalizeMerged_completes hc
    (by rw [hstate]; simp [unsettledStates]) hidentity hread
  obtain ⟨-, head', merge', verdict', s, hidentity', hverdict', rfl, hbox'⟩ :=
    finalizeMerged_returned hactive hrun
  obtain ⟨rfl, rfl⟩ := Prod.mk.inj (Except.ok.inj (hidentity.symm.trans hidentity'))
  obtain rfl := Outcome.returned.inj (congrArg Prod.fst (hread.symm.trans hverdict'))
  exact ⟨s, hrun, hcompleted, hbox'.trans ((noticed_eq_iff _ _).mpr hbox)⟩

namespace Waiting

/-- A blocked card of the run that ends the pass is published, or stops the run. -/
theorem blockedCard_told (h : Waiting runKey run items c w)
    (hends : (activeItems items).find? endsPass = some i)
    (hnot : ¬ (fuseEvent i.task = none ∧ i.task.latestOutcome = none ∧
      PublishesElsewhere runKey i c w))
    (hrun : machine.eval (blockedCard cfg run i) w = (.returned true, w')) :
    Told runKey c w w' := by
  have hmem : i ∈ items := (List.mem_filter.mp (List.mem_of_find?_eq_some hends)).1
  have hi : endsPass i = true := List.find?_some hends
  by_cases hquiet : fuseEvent i.task = none ∧ i.task.latestOutcome = none
  · obtain ⟨hfuse, hout⟩ := hquiet
    have hcard := endsPass_card hi
    have hpublishes : ¬ PublishesElsewhere runKey i c w := fun hp => hnot ⟨hfuse, hout, hp⟩
    unfold blockedCard at hrun
    simp only [hfuse, hout] at hrun
    obtain ⟨_, w₁, hassert, hrun⟩ := machine.eval_bind_returned.mp hrun
    rw [assertReconcileMutable_eval h.mutable] at hassert
    cases hassert
    obtain ⟨t', w₂, hensure, hrun⟩ := machine.eval_bind_returned.mp hrun
    cases hrun
    obtain ⟨previous, s, hledger⟩ := h.publish_returned hmem hcard.1 hensure
    cases previous with
    | some r => exact absurd (.inl ⟨r, s, hledger⟩) hpublishes
    | none =>
      have hsame : i.managed.cardId = c.managed.cardId := by
        by_contra hne
        exact hpublishes (.inr ⟨⟨s, hledger⟩, hne⟩)
      obtain ⟨t'', s', status, hclaimed, hreleased, -, -⟩ :=
        h.publish_claimed hmem hcard.1 hcard.2 hledger
      rw [hclaimed] at hensure
      cases hensure
      obtain ⟨t, ht, -⟩ := h.found hmem
      rw [h.boards i hmem, ← h.boards c h.mem, hsame] at ht
      refine .inl ⟨t.withStatus status, ?_, ?_⟩
      · rw [h.boards i hmem, ← h.boards c h.mem, hsame]
        exact Hermes.find_promoted ht status w.now
      · rcases hreleased with rfl | rfl
        · rfl
        · rfl
  · rcases blockedCard_returned hi hquiet hrun with hstate | hstate
    · exact .inr (.inl (h.runKey_eq ▸ hstate))
    · exact .inr (.inr (.inl (h.runKey_eq ▸ hstate)))

/-- A card that is published elsewhere ends the pass, and nobody is told. -/
theorem publishesElsewhere_silent (h : Waiting runKey run items c w)
    (hends : (activeItems items).find? endsPass = some i) (hfuse : fuseEvent i.task = none)
    (hout : i.task.latestOutcome = none) (hp : PublishesElsewhere runKey i c w) :
    ∃ w', machine.eval (blockedCard cfg run i) w = (.returned true, w') ∧
      ¬ Told runKey c w w' := by
  have hmem : i ∈ items := (List.mem_filter.mp (List.mem_of_find?_eq_some hends)).1
  have hcard := endsPass_card (List.find?_some hends)
  have hcards : ∀ {t' : TaskRecord} {w' : World},
      machine.eval (ensureWorkPublished run i.task) w = (.returned t', w') →
        machine.eval (blockedCard cfg run i) w = (.returned true, w') := by
    intro t' w' hensure
    unfold blockedCard
    simp only [hfuse, hout]
    refine machine.eval_bind_returned.mpr ⟨_, w, assertReconcileMutable_eval h.mutable, ?_⟩
    exact machine.eval_bind_returned.mpr ⟨t', w', hensure, rfl⟩
  rcases hp with ⟨r, s, hanswer⟩ | ⟨⟨s, hclaim⟩, hne⟩
  · exact ⟨w, hcards (h.publish_answered hmem hcard.1 hanswer), h.not_told_self⟩
  · obtain ⟨t', s', status, hensure, -, hcontrol, houtbox⟩ :=
      h.publish_claimed hmem hcard.1 hcard.2 hclaim
    refine ⟨_, hcards hensure, h.not_told ?_ hcontrol houtbox⟩
    exact Hermes.find_promoted_ne (fun hsame => hne hsame.2.symm) status w.now

/-- The pass over the cards, told or silent. -/
theorem cards_told_iff (cfg : Config) (h : Waiting runKey run items c w)
    (hroot : startsRun items = none) :
    (∀ u w', machine.eval (reconcileCards cfg run items) w = (.returned u, w') →
      Told runKey c w w') ↔
    ¬ PassedBy runKey items c w := by
  rw [h.reconcileCards_eq hroot]
  unfold PassedBy
  cases hends : (activeItems items).find? endsPass with
  | none =>
    have hcards : machine.eval (do
        if ← blockedCards cfg run (activeItems items) then pure ()
        else reconcileActive cfg run items (activeItems items)) w =
          machine.eval (reconcileActive cfg run items (activeItems items)) w :=
      machine.eval_bind_of (blockedCards_none hends)
    rw [hcards]
    unfold reconcileActive
    by_cases hlone : (activeItems items).length ≤ 1 ∨ resolutionWindow (activeItems items) = true
    · simp only [hlone, if_true, not_true, iff_false]
      exact fun htold => h.not_told_self (htold () w rfl)
    · simp only [hlone, if_false, not_false_eq_true, iff_true]
      intro u w' hrun
      cases hlast : items.getLast? with
      | none =>
        rw [List.getLast?_eq_none_iff] at hlast
        have hmem := h.mem
        rw [hlast] at hmem
        cases hmem
      | some last =>
        rw [hlast] at hrun
        obtain ⟨t, w₁, hexception, hrun⟩ := machine.eval_bind_returned.mp hrun
        cases hrun
        have hstate := exception_returned hexception
        rw [h.runKey_eq] at hstate
        exact .inr (.inr (.inl hstate))
  | some i =>
    constructor
    · rintro htold ⟨hfuse, hout, hp⟩
      obtain ⟨w', hrun, hsilent⟩ := h.publishesElsewhere_silent hends hfuse hout hp
      have hcards := blockedCards_eval hends hrun
      exact hsilent (htold () w' ((machine.eval_bind_of hcards).trans rfl))
    · intro hnot u w' hrun
      obtain ⟨done, w₁, hcards, hrun⟩ := machine.eval_bind_returned.mp hrun
      obtain ⟨hcard, rfl⟩ := blockedCards_some hends hcards
      cases hrun
      exact h.blockedCard_told hends hnot hcard

/-! ## Silent passes -/

/-- A pass that overlooks the card answers, and nobody is told. -/
theorem overlooked_silent (cfg : Config) (h : Waiting runKey run items c w)
    (hroot : startsRun items = none) (ho : Overlooked runKey run items c w) :
    ∃ w', machine.eval (reconcileRun cfg runKey) w = (.returned (), w') ∧ ¬ Told runKey c w w' := by
  by_cases hblocked : w.store.retryBlocked "gitlab" w.now = true
  · exact ⟨w, h.eval_backedOff hblocked, h.not_told_self⟩
  obtain ⟨hpromotions, mr, hmr, hpassed⟩ := ho.resolve_left hblocked
  have hpromotions : machine.eval (unauthorizedPromotion items) w = (.returned none, w) :=
    Prod.ext hpromotions ((stillReading w).unauthorizedPromotion items w rfl)
  have hmr : machine.eval (boundDeliveryMr .start run) w = (.returned mr, w) :=
    Prod.ext hmr ((stillReading w).boundDeliveryMr .start run w rfl)
  rw [h.eval_open (by simpa using hblocked)]
  cases hmerged : mr.filter (·.state == "merged") with
  | some merged =>
    rw [hmerged] at hpassed
    have hactive : stateOf run.runKey w = .active := by rw [h.runKey_eq, h.active]
    obtain ⟨s, hrun, hcompleted, hbox⟩ := finalizeMerged_silent hactive hpassed
    rw [h.runKey_eq] at hcompleted
    refine ⟨_, ?_, h.not_told_of rfl ?_ ?_ hbox⟩
    · refine (machine.eval_bind_of h.history).trans ?_
      refine (machine.eval_bind_of hpromotions).trans ?_
      refine (machine.eval_bind_of hmr).trans ?_
      simp only [hmerged]
      exact hrun
    · rw [hcompleted]
      decide
    · rw [hcompleted]
      decide
  | none =>
    rw [hmerged] at hpassed
    rw [h.eval_cards hpromotions hmr hmerged]
    have hcards := mt (h.cards_told_iff cfg hroot).mp (not_not_intro hpassed)
    simp only [not_forall] at hcards
    obtain ⟨u, w', hrun, hsilent⟩ := hcards
    exact ⟨w', hrun, hsilent⟩

/-- A pass that does not overlook the card tells somebody. -/
theorem told_of_not_overlooked (h : Waiting runKey run items c w)
    (hroot : startsRun items = none) (ho : ¬ Overlooked runKey run items c w)
    (hrun : machine.eval (reconcileRun cfg runKey) w = (.returned u, w')) :
    Told runKey c w w' := by
  obtain ⟨hopen, ho⟩ := not_or.mp ho
  have hactive : stateOf run.runKey w = .active := by rw [h.runKey_eq, h.active]
  rw [h.eval_open (by simpa using hopen)] at hrun
  have hread := hrun
  obtain ⟨read, w₁, hitems, hrun⟩ := machine.eval_bind_returned.mp hrun
  rw [h.history] at hitems
  cases hitems
  obtain ⟨found, w₂, hpromotions, hrun⟩ := machine.eval_bind_returned.mp hrun
  have hsame := (stillReading w).unauthorizedPromotion items w rfl
  rw [hpromotions] at hsame
  obtain rfl : w₂ = w := hsame
  cases found with
  | some i =>
    obtain ⟨t, w₃, hexception, hrun⟩ := machine.eval_bind_returned.mp hrun
    cases hrun
    exact .inr (.inr (.inl (h.runKey_eq ▸ exception_returned hexception)))
  | none =>
    obtain ⟨mr, w₃, hmr, hend⟩ := machine.eval_bind_returned.mp hrun
    have hsame := (stillReading w₂).boundDeliveryMr .start run w₂ rfl
    rw [hmr] at hsame
    obtain rfl : w₃ = w₂ := hsame
    have hpassed := fun hp => ho ⟨congrArg Prod.fst hpromotions, mr, congrArg Prod.fst hmr, hp⟩
    cases hmerged : mr.filter (·.state == "merged") with
    | some merged =>
      rw [hmerged] at hpassed
      simp only [hmerged] at hend
      exact .inr (.inr (.inr (finalizeMerged_tells hactive hpassed hend)))
    | none =>
      rw [hmerged] at hpassed
      rw [h.eval_cards hpromotions hmr hmerged] at hread
      exact (h.cards_told_iff cfg hroot).mpr hpassed u w' hread

end Waiting

/-- **When a held card is not stalled silently.** A pass over an active run that answers tells
somebody of the card, unless it cools down, when it has no root card to start and does not
overlook the card; and without a root card to start, only then. -/
theorem neverSilent_iff (h : Waiting runKey run items c w) :
    (CoolingDown c w ∨ startsRun items = none ∧ ¬ Overlooked runKey run items c w →
      NeverSilent cfg runKey c w) ∧
    (startsRun items = none → NeverSilent cfg runKey c w →
      CoolingDown c w ∨ ¬ Overlooked runKey run items c w) := by
  constructor
  · rintro (hcooling | ⟨hroot, hnot⟩)
    · exact .inl hcooling
    · exact .inr fun u w' hrun => h.told_of_not_overlooked hroot hnot hrun
  · intro hroot hnever
    by_contra hnot
    obtain ⟨hcooling, hoverlooked⟩ := not_or.mp hnot
    obtain ⟨w', hrun, hsilent⟩ := h.overlooked_silent cfg hroot (not_not.mp hoverlooked)
    exact hsilent (hnever.resolve_left hcooling () w' hrun)

end Pass

/-! ## A card in triage -/

section Triage

variable {runKey : String} {w : World}

/-- What the history holds of the run, as a value. -/
def readOf (runKey : String) (w : World) : Option (List HistoryItem × RunRecord) :=
  match (machine.eval (history runKey) w).1 with
  | .returned read => some read
  | _ => none

/-- Some card of the run waits and satisfies `p`, as a check that runs. -/
def waitsWith (runKey : String) (p : List HistoryItem → RunRecord → HistoryItem → Bool)
    (w : World) : Bool :=
  (readOf runKey w).any fun read =>
    read.1.all (·.managed.board == read.2.workspace.board) &&
      read.1.any fun c => c.isWork && (c.task.status == .blocked || c.task.status == .triage) &&
        p read.1 read.2 c

theorem waitsWith_sound {p : List HistoryItem → RunRecord → HistoryItem → Bool}
    (hactive : stateOf runKey w = .active) (h : waitsWith runKey p w = true) :
    ∃ run items c, Waiting runKey run items c w ∧ p items run c = true := by
  simp only [waitsWith, Option.any_eq_true, Prod.exists, Bool.and_eq_true, List.all_eq_true,
    List.any_eq_true, Bool.or_eq_true, beq_iff_eq] at h
  obtain ⟨items, run, hread, hboards, c, hmem, ⟨hwork, hheld⟩, hp⟩ := h
  have hhistory : (machine.eval (history runKey) w).1 = .returned (items, run) := by
    unfold readOf at hread
    split at hread
    · next read hx => rw [hx, Option.some.inj hread]
    · cases hread
  have hsame := (stillReading w).history runKey w rfl
  exact ⟨run, items, c, ⟨hactive, Prod.ext hhistory hsame, hboards, hmem, hwork, hheld⟩, hp⟩

def answersNone {α : Type} (p : Service (Option α)) (w : World) : Bool :=
  match (machine.eval p w).1 with
  | .returned none => true
  | _ => false

theorem answersNone_iff {α : Type} {p : Service (Option α)} :
    answersNone p w = true ↔ (machine.eval p w).1 = .returned none := by
  unfold answersNone
  split
  · next h => exact iff_of_true rfl h
  · next h => exact iff_of_false (by decide) h

/-- The pass comes to the cards, and one of them with a finished attempt ends it. -/
def endsOnAttempt (w : World) (items : List HistoryItem) (run : RunRecord) (_ : HistoryItem) :
    Bool :=
  (startsRun items).isNone && answersNone (boundDeliveryMr .start run) w &&
    ((activeItems items).find? endsPass).any (·.task.latestOutcome.isSome)

/-- The pass comes to the cards, and ends with none of them. The card does not cool down. -/
def endsOnNone (w : World) (items : List HistoryItem) (run : RunRecord) (c : HistoryItem) : Bool :=
  (startsRun items).isNone && answersNone (unauthorizedPromotion items) w &&
    answersNone (boundDeliveryMr .start run) w && ((activeItems items).find? endsPass).isNone &&
    (activeItems items).length == 1 &&
    (w.store.cardRuntime (c.managed.board, c.managed.cardId)).all
      (·.attemptStatus != "provider_cooldown")

theorem not_overlooked_of_attempt {run : RunRecord} {items : List HistoryItem} {c : HistoryItem}
    (hopen : w.store.retryBlocked "gitlab" w.now = false) (h : endsOnAttempt w items run c = true) :
    startsRun items = none ∧ ¬ Overlooked runKey run items c w := by
  simp only [endsOnAttempt, Bool.and_eq_true, Option.isNone_iff_eq_none, answersNone_iff] at h
  obtain ⟨⟨hroot, hmr⟩, hattempt⟩ := h
  refine ⟨hroot, ?_⟩
  rintro (hblocked | ⟨-, mr, hmr', hpassed⟩)
  · rw [hopen] at hblocked
    cases hblocked
  · obtain rfl : none = mr := Outcome.returned.inj (hmr.symm.trans hmr')
    simp only [Option.filter_none, PassedBy] at hpassed
    split at hpassed
    · next hends =>
      rw [hends] at hattempt
      cases hattempt
    · next i hends =>
      rw [hends, Option.any_some, hpassed.2.1] at hattempt
      cases hattempt

theorem overlooked_of_none (runKey : String) {run : RunRecord} {items : List HistoryItem}
    {c : HistoryItem} (h : endsOnNone w items run c = true) :
    startsRun items = none ∧ Overlooked runKey run items c w ∧ ¬ CoolingDown c w := by
  simp only [endsOnNone, Bool.and_eq_true, Option.isNone_iff_eq_none, answersNone_iff, beq_iff_eq,
    Option.all_eq_true, bne_iff_ne] at h
  obtain ⟨⟨⟨⟨⟨hroot, hpromotions⟩, hmr⟩, hends⟩, hlone⟩, hwarm⟩ := h
  refine ⟨hroot, .inr ⟨hpromotions, none, hmr, ?_⟩, ?_⟩
  · simp only [Option.filter_none, PassedBy, hends]
    exact .inl hlone.le
  · rintro ⟨row, hrow, hcooling⟩
    exact hwarm row hrow hcooling

end Triage

/-- The worker that asked for a credential again: its card was routed to triage. -/
def triagedWorld : World :=
  { askedWorld with
    hermes := askedWorld.hermes.updateTask "gitlab-p1" ⟨2⟩ (·.withStatus .triage) }

/-- A pass over the run leaves the card in triage, and nobody is told. -/
theorem triagedCard_silent :
    ∃ run items c, Waiting "hollysys-k1" run items c triagedWorld ∧
      c.task.status = .triage ∧ ¬ NeverSilent sampleConfig "hollysys-k1" c triagedWorld := by
  have hworld : stateOf "hollysys-k1" triagedWorld = .active ∧
      waitsWith "hollysys-k1" (fun items run c =>
        c.task.status == .triage && endsOnNone triagedWorld items run c) triagedWorld = true := by
    decide +kernel
  obtain ⟨run, items, c, h, hp⟩ := waitsWith_sound hworld.1 hworld.2
  obtain ⟨htriage, hp⟩ := Bool.and_eq_true_iff.mp hp
  obtain ⟨hroot, hoverlooked, hwarm⟩ := overlooked_of_none "hollysys-k1" hp
  obtain ⟨w', hrun, hsilent⟩ := h.overlooked_silent sampleConfig hroot hoverlooked
  refine ⟨run, items, c, h, beq_iff_eq.mp htriage, ?_⟩
  rintro (hcooling | htold)
  · exact hwarm hcooling
  · exact hsilent (htold () w' hrun)

/-- The first time it asked, the run was stopped. -/
theorem askedCard_told :
    ∃ run items c, Waiting "hollysys-k1" run items c askedWorld ∧
      NeverSilent sampleConfig "hollysys-k1" c askedWorld := by
  have hworld : stateOf "hollysys-k1" askedWorld = .active ∧
      waitsWith "hollysys-k1" (endsOnAttempt askedWorld) askedWorld = true ∧
      askedWorld.store.retryBlocked "gitlab" askedWorld.now = false := by
    decide +kernel
  obtain ⟨hactive, hwaits, hopen⟩ := hworld
  obtain ⟨run, items, c, h, hp⟩ := waitsWith_sound hactive hwaits
  exact ⟨run, items, c, h, (neverSilent_iff h).1 (.inr (not_overlooked_of_attempt hopen hp))⟩

end HollysysController
