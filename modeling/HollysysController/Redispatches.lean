import HollysysController.ScopedOutages
import HollysysController.WorkerEviction

/-! # The redispatch budget

A card that is taken from a stale worker is counted on its newest attempt, in a
commit of its own, after Hermes has handed the card out again. What falls between
the reclaim and the count, and what the count finds, decides whether the budget
is kept. -/

namespace HollysysController

open Durable

/-! ## The count of a card -/

/-- The recorded `redispatch_count`. -/
def Store.redispatches (s : Store) (key : String × CardId) : Nat :=
  (s.cardRuntime key).elim 0 (·.redispatchCount)

/-- An attempt of the card on which a redispatch is recorded. -/
def countedFor (key : String × CardId) (a : CardAttempt) : Bool :=
  a.ofCard key.1 key.2 && a.recoveryReason.isSome

/-- No redispatch is recorded on the newest attempt of the card. -/
def Store.uncounted (s : Store) (key : String × CardId) : Bool :=
  (latestAttempt (s.cardAttempts.filter (·.ofCard key.1 key.2))).all (·.recoveryReason.isNone)

/-- The card whose redispatch the operation counts. -/
def StoreOp.counts : StoreOp → Option (String × CardId)
  | updateWorkerWatchdog u => if u.incrementRedispatch then some (u.board, u.cardId) else none
  | _ => none

def Op.counts : Op → Option (String × CardId)
  | .store o => o.counts
  | _ => none

/-- The card that the operation takes from its worker to hand it out again. -/
def Op.redispatches : Op → Option (String × CardId)
  | .hermes (.reclaim board id _ _ false) => some (board, id)
  | _ => none

/-! ## The system -/

/-- The recovery of a late worker, as the pass begins it: the card is on the board of its run,
and the worker is the one of the row and of the task. -/
structure Recovery where
  run : RunRecord
  worker : LateWorker
  task : TaskRecord
  identity : WorkerIdentity
  head : String
  mr : Option MergeRequest
  onBoard : worker.managed.board = run.workspace.board
  identified : workerIdentity worker.managed.board worker.managed.cardId (some worker.row) task =
    some identity

def Recovery.key (r : Recovery) : String × CardId := (r.worker.managed.board, r.worker.managed.cardId)

def Recovery.program (cfg : Config) (r : Recovery) : Service Unit :=
  recoverLateWorker cfg r.run r.worker r.identity r.head r.mr

/-- The world, the reclaims that Hermes carried out for each card, what is left of the recovery
under way, and the card whose reclaim it has yet to count. -/
structure Tally where
  world : World
  reclaims : String × CardId → Nat := fun _ => 0
  thread : Option (Service Unit) := none
  owed : Option (String × CardId) := none

/-- The other threads commit to the store and the other systems move; the watchdog, which runs
in one thread, begins a recovery with the count of the row, and takes its next step. -/
inductive Move where
  | commit (c : Commit)
  | drift (hermes : Hermes) (gitlab : GitLab) (host : Host) (now : Nat)
  | recover (r : Recovery)
  | turn (f : Fault ControllerError)

/-- A program with an operation left. -/
def underWay (p : Service Unit) : Option (Service Unit) :=
  match p with
  | .perform o k => some (.perform o k)
  | .pure _ => none
  | .raise _ => none

/-- The operation takes effect. -/
def takesEffect : Fault ControllerError → Bool
  | .none | .failAfter _ | .stopAfter => true
  | .failBefore _ | .stopBefore => false

namespace Tally

/-- The card that Hermes hands out again in this step. -/
def reclaimed (t : Tally) (o : Op) (f : Fault ControllerError) : Option (String × CardId) :=
  if takesEffect f && (machine.exec o t.world).1.isOk then o.redispatches else none

/-- What is left of the recovery after this step, none when it has ended, failed or stopped. -/
def rest (t : Tally) (o : Op) (k : Except ControllerError o.Ret → Service Unit)
    (f : Fault ControllerError) : Option (Service Unit) :=
  (machine.meet o f t.world).1.bind fun answer => underWay (k answer)

def perform (t : Tally) (o : Op) (k : Except ControllerError o.Ret → Service Unit)
    (f : Fault ControllerError) : Tally where
  world := (machine.meet o f t.world).2
  reclaims key := t.reclaims key + if t.reclaimed o f = some key then 1 else 0
  thread := t.rest o k f
  owed := if (t.rest o k f).isNone || o.counts.isSome then none else t.reclaimed o f <|> t.owed

/-- What is recorded is what was reclaimed, but for a count that is still to come. -/
def Counted (t : Tally) : Prop :=
  t.owed = none → ∀ key, t.world.store.redispatches key = t.reclaims key

def WithinBudget (cfg : Config) (t : Tally) : Prop :=
  ∀ key, t.reclaims key ≤ cfg.workerRedispatchLimit

end Tally

def redispatchStep (cfg : Config) (t : Tally) : Move → Option Tally
  | .commit c =>
    if c.op.counts.isSome then none
    else some { t with world := { t.world with store := (c.op.exec c.now t.world.store).2 } }
  | .drift hermes gitlab host now =>
    some { t with world := { t.world with hermes, gitlab, host, now } }
  | .recover r =>
    if t.thread.isNone ∧ (t.world.store.cardRuntime r.key).map (·.redispatchCount) =
        some r.worker.row.redispatchCount
    then some { t with thread := underWay (r.program cfg) }
    else none
  | .turn f =>
    match t.thread with
    | some (.perform o k) => some (t.perform o k f)
    | _ => none

/-- A reclaim is counted before its recovery ends, and it is counted on an attempt on which no
redispatch is recorded. -/
def StepCounts (t : Tally) (o : Op) (k : Except ControllerError o.Ret → Service Unit)
    (f : Fault ControllerError) : Prop :=
  match o.counts with
  | none => (t.reclaimed o f <|> t.owed).isSome → (t.rest o k f).isSome
  | some key =>
    if takesEffect f then t.world.store.uncounted key = t.owed.isSome else t.owed = none

/-- The law of a step of the recovery under way. -/
def CountsReclaims (t : Tally) : Move → Prop
  | .turn f =>
    match t.thread with
    | some (.perform o k) => StepCounts t o k f
    | _ => True
  | _ => True

/-! ## What the commits do to the counts -/

/-- The count of a card is the number of its attempts on which a redispatch is recorded. -/
structure Tallied (s : Store) : Prop where
  ids : (s.cardAttempts.map (·.runId)).Nodup
  counts : ∀ key, s.redispatches key = s.cardAttempts.countP (countedFor key)

/-- The commit counts nothing, and neither the row nor the attempts of a card are lost. -/
structure Uncounting (s s' : Store) : Prop where
  same : ∀ key, s'.redispatches key = s.redispatches key
  rows : ∀ key, (s.cardRuntime key).isSome → (s'.cardRuntime key).isSome
  attempts : ∀ key : String × CardId, (∃ a ∈ s.cardAttempts, a.ofCard key.1 key.2 = true) →
    ∃ a ∈ s'.cardAttempts, a.ofCard key.1 key.2 = true
  tallied : Tallied s → Tallied s'

theorem Uncounting.refl (s : Store) : Uncounting s s :=
  ⟨fun _ => rfl, fun _ h => h, fun _ h => h, fun h => h⟩

theorem uncounting_of_same {s s' : Store} (hrow : s'.cardRuntime = s.cardRuntime)
    (hattempts : s'.cardAttempts = s.cardAttempts) : Uncounting s s' := by
  refine ⟨fun key => ?_, fun key => ?_, fun key => ?_, fun h => ⟨?_, fun key => ?_⟩⟩
  · rw [Store.redispatches, hrow]
    rfl
  · rw [hrow]
    exact id
  · rw [hattempts]
    exact id
  · rw [hattempts]
    exact h.ids
  · rw [Store.redispatches, hrow, hattempts]
    exact h.counts key

/-- A row that is written over another keeps its count. -/
theorem redispatches_put {s : Store} {key key' : String × CardId} {row : CardRuntime}
    (hrow : row.redispatchCount = s.redispatches key) :
    ((s.cardRuntime.put key row) key').elim 0 (·.redispatchCount) = s.redispatches key' := by
  by_cases hkey : key' = key
  · subst hkey
    simpa [Store.redispatches] using hrow
  · simp [Store.redispatches, hkey]

/-- The attempts are changed in a way that no count sees, and others are added uncounted. -/
structure SameCounts (old new : List CardAttempt) : Prop where
  ids : (old.map (·.runId)).Nodup → (new.map (·.runId)).Nodup
  counts : ∀ key, new.countP (countedFor key) = old.countP (countedFor key)
  kept : ∀ key : String × CardId, (∃ a ∈ old, a.ofCard key.1 key.2 = true) →
    ∃ a ∈ new, a.ofCard key.1 key.2 = true

theorem SameCounts.trans {l l' l'' : List CardAttempt} (h : SameCounts l l')
    (h' : SameCounts l' l'') : SameCounts l l'' :=
  ⟨fun hl => h'.ids (h.ids hl), fun key => (h'.counts key).trans (h.counts key),
    fun key hl => h'.kept key (h.kept key hl)⟩

theorem sameCounts_refl (l : List CardAttempt) : SameCounts l l :=
  ⟨id, fun _ => rfl, fun _ => id⟩

/-- Columns of an attempt that say nothing about its card or its recovery. -/
theorem sameCounts_map {f : CardAttempt → CardAttempt} (l : List CardAttempt)
    (hid : ∀ a, (f a).runId = a.runId) (hcard : ∀ a board id, (f a).ofCard board id = a.ofCard board id)
    (hreason : ∀ a, (f a).recoveryReason = a.recoveryReason) : SameCounts l (l.map f) := by
  refine ⟨fun h => ?_, fun key => ?_, fun key => ?_⟩
  · have hsame : (fun a : CardAttempt => a.runId) ∘ f = (·.runId) := funext hid
    rwa [List.map_map, hsame]
  · rw [List.countP_map]
    exact List.countP_congr fun a _ => by simp [countedFor, hcard, hreason]
  · rintro ⟨a, ha, hof⟩
    exact ⟨f a, List.mem_map_of_mem ha, by rw [hcard]; exact hof⟩

theorem mapAttempt_sameCounts (s : Store) (runId : String) {f : CardAttempt → CardAttempt}
    (hid : ∀ a, (f a).runId = a.runId) (hcard : ∀ a board id, (f a).ofCard board id = a.ofCard board id)
    (hreason : ∀ a, (f a).recoveryReason = a.recoveryReason) :
    SameCounts s.cardAttempts (s.mapAttempt runId f).cardAttempts := by
  refine sameCounts_map _ (fun a => ?_) (fun a board id => ?_) fun a => ?_
  · split <;> simp [hid]
  · split <;> simp [hcard]
  · split <;> simp [hreason]

theorem linkRedispatch_sameCounts (e : RuntimeEvent) (runId : String) (s : Store) :
    SameCounts s.cardAttempts (linkRedispatch e runId s).cardAttempts := by
  unfold linkRedispatch
  split
  · split
    · exact mapAttempt_sameCounts s runId (fun _ => rfl) (fun _ _ _ => rfl) fun _ => rfl
    · exact sameCounts_refl _
  · exact sameCounts_refl _

/-- An event that names its run leaves an attempt of its card. -/
theorem recordAttempt_counts {e : RuntimeEvent} {runId : String} {s s' : Store} {u : Unit}
    (h : recordAttempt e runId s = .ok (u, s')) :
    SameCounts s.cardAttempts s'.cardAttempts ∧
      ∃ a ∈ s'.cardAttempts, a.ofCard e.board e.cardId = true := by
  unfold recordAttempt at h
  cases hmanaged : s.managedCard e.board e.cardId with
  | none =>
    rw [hmanaged] at h
    cases h
  | some managed =>
    rw [hmanaged] at h
    dsimp only at h
    cases hfound : s.cardAttempts.find? (·.runId == runId) with
    | some a =>
      rw [hfound] at h
      dsimp only at h
      split at h
      · cases h
      · next hsame =>
        cases h
        have hupdate := mapAttempt_sameCounts s runId (f := e.updateAttempt) (fun _ => rfl)
          (fun _ _ _ => rfl) fun _ => rfl
        have hlinked := linkRedispatch_sameCounts e runId (s.mapAttempt runId e.updateAttempt)
        refine ⟨hupdate.trans hlinked, (hupdate.trans hlinked).kept (e.board, e.cardId) ⟨a, ?_, ?_⟩⟩
        · exact List.mem_of_find?_eq_some hfound
        · simp only [not_or, not_not] at hsame
          simp [CardAttempt.ofCard, hsame.1, hsame.2.1]
    | none =>
      rw [hfound] at h
      dsimp only at h
      split at h
      · cases h
      · cases h
        have hnew : SameCounts s.cardAttempts (s.cardAttempts ++
            [e.firstAttempt runId managed.runKey (s.nextAttempt e.board e.cardId)]) := by
          refine ⟨fun hids => ?_, fun key => ?_, fun key => ?_⟩
          · rw [List.map_append, List.nodup_append]
            refine ⟨hids, by simp, ?_⟩
            simp only [List.mem_map, List.map_cons, List.map_nil, List.mem_singleton]
            rintro _ ⟨a, ha, rfl⟩ _ rfl heq
            have := List.find?_eq_none.mp hfound a ha
            exact this (by simp [heq])
          · simp [countedFor, RuntimeEvent.firstAttempt]
          · rintro ⟨a, ha, hof⟩
            exact ⟨a, List.mem_append_left _ ha, hof⟩
        have hlinked := hnew.trans (linkRedispatch_sameCounts e runId
          { s with cardAttempts := s.cardAttempts ++
            [e.firstAttempt runId managed.runKey (s.nextAttempt e.board e.cardId)] })
        refine ⟨hlinked, (linkRedispatch_sameCounts e runId _).kept (e.board, e.cardId)
          ⟨_, List.mem_append_right _ (List.mem_singleton.mpr rfl), ?_⟩⟩
        simp [CardAttempt.ofCard, RuntimeEvent.firstAttempt]

/-- A terminal event of a run leaves an attempt of its card. -/
theorem recordCardRuntimeEvent_attempt {e : RuntimeEvent} {s s' : Store} {u : Unit}
    (h : recordCardRuntimeEvent e s = .ok (u, s')) (hterminal : e.terminal = true)
    (hrun : e.runId.isSome) : ∃ a ∈ s'.cardAttempts, a.ofCard e.board e.cardId = true := by
  obtain ⟨runId, hrun⟩ := Option.isSome_iff_exists.mp hrun
  unfold recordCardRuntimeEvent at h
  have hnot : ¬ (e.preservesFinished (s.cardRuntime e.key) = true ∧ e.kind ≠ "worker_exited") := by
    simp [RuntimeEvent.preservesFinished, hterminal]
  simp only [if_neg hnot, hrun] at h
  split at h
  · cases h
  · next s₁ hs₁ =>
    obtain ⟨-, hattempt⟩ := recordAttempt_counts hs₁
    split at h <;> cases h <;> exact hattempt

/-- The record of an event counts nothing. -/
theorem recordCardRuntimeEvent_uncounting {e : RuntimeEvent} {s s' : Store} {u : Unit}
    (h : recordCardRuntimeEvent e s = .ok (u, s')) : Uncounting s s' := by
  have hattempts : SameCounts s.cardAttempts s'.cardAttempts := by
    unfold recordCardRuntimeEvent at h
    dsimp only at h
    split at h
    · cases h
      exact sameCounts_refl _
    · split at h
      · cases h
      · next s₁ hs₁ =>
        have hsame : SameCounts s.cardAttempts s₁.cardAttempts := by
          revert hs₁
          cases e.runId with
          | none =>
            intro hs₁
            cases hs₁
            exact sameCounts_refl _
          | some runId => exact fun hs₁ => (recordAttempt_counts hs₁).1
        split at h <;> cases h <;> exact hsame
  have hrow := recordCardRuntimeEvent_row h
  have hcount : ∀ key, s'.redispatches key = s.redispatches key := by
    intro key
    rw [Store.redispatches, hrow]
    split
    · refine redispatches_put ?_
      rw [Store.redispatches]
      cases s.cardRuntime e.key <;> rfl
    · rfl
  refine ⟨hcount, fun key hsome => ?_, hattempts.kept, fun h => ⟨hattempts.ids h.ids, fun key => ?_⟩⟩
  · rw [hrow]
    split
    · by_cases hkey : key = e.key
      · simp [hkey]
      · simpa [hkey] using hsome
    · exact hsome
  · rw [hcount, hattempts.counts]
    exact h.counts key

/-- The count that an update of the watchdog leaves. -/
theorem updateWorkerWatchdog_redispatches (u : WatchdogUpdate) (now : Nat) (s : Store)
    (key : String × CardId) : (updateWorkerWatchdog u now s).2.redispatches key =
      if key = (u.board, u.cardId) ∧ (s.cardRuntime key).isSome
        then (u.redispatch s).2.getD (s.redispatches key) else s.redispatches key := by
  have hstore : (updateWorkerWatchdog u now s).2.cardRuntime =
      s.cardRuntime.modify (u.board, u.cardId) fun r =>
        { r with
          attemptStatus := u.attemptStatus
          deadlineAt := u.leaseSeconds.map (now + ·) <|> r.deadlineAt
          redispatchCount := (u.redispatch s).2.getD r.redispatchCount
          terminalReason := clippedReason u.reason <|> r.terminalReason } := by
    unfold updateWorkerWatchdog
    dsimp only
    split <;> rfl
  rw [Store.redispatches, hstore]
  by_cases hkey : key = (u.board, u.cardId)
  · subst hkey
    rw [Table.modify_self]
    cases hrow : s.cardRuntime (u.board, u.cardId) <;> simp [Store.redispatches, hrow]
  · simp [Store.redispatches, hkey]

theorem updateWorkerWatchdog_rows (u : WatchdogUpdate) (now : Nat) (s : Store)
    (key : String × CardId) :
    ((updateWorkerWatchdog u now s).2.cardRuntime key).isSome = (s.cardRuntime key).isSome := by
  unfold updateWorkerWatchdog
  dsimp only
  split <;> exact Table.modify_isSome _ _ _ _

theorem updateWorkerWatchdog_attempts (u : WatchdogUpdate) (now : Nat) (s : Store) :
    (updateWorkerWatchdog u now s).2.cardAttempts = (u.redispatch s).1 := by
  unfold updateWorkerWatchdog
  dsimp only
  split <;> rfl

/-- An operation that counts no redispatch. -/
theorem exec_uncounting {o : StoreOp} (ho : o.counts = none) (now : Nat) (s : Store) :
    Uncounting s (o.exec now s).2 := by
  by_cases hw : Column.runtime ∈ o.writes
  · cases o <;> simp only [StoreOp.writes, List.mem_cons, List.not_mem_nil, reduceCtorEq, or_self,
      or_false] at hw
    case registerCardAttempt r =>
      have hcount : ∀ key, (StoreOp.exec now (.registerCardAttempt r) s).2.redispatches key =
          s.redispatches key := by
        refine fun key => redispatches_put ?_
        rw [Store.redispatches]
        cases s.cardRuntime (r.board, r.cardId) <;> rfl
      refine ⟨hcount, fun key hsome => ?_, fun _ => id,
        fun h => ⟨h.ids, fun key => (hcount key).trans (h.counts key)⟩⟩
      by_cases hkey : key = (r.board, r.cardId)
      · simp [StoreOp.exec, Txn.commit, registerCardAttempt, hkey]
      · simpa [StoreOp.exec, Txn.commit, registerCardAttempt, hkey] using hsome
    case recordAttemptCompletion c =>
      have hcount : ∀ key, (StoreOp.exec now (.recordAttemptCompletion c) s).2.redispatches key =
          s.redispatches key := by
        intro key
        by_cases hkey : key = (c.board, c.cardId)
        · subst hkey
          simp only [StoreOp.exec, Txn.commit, recordAttemptCompletion, Store.redispatches,
            Table.modify_self]
          cases s.cardRuntime (c.board, c.cardId) <;> rfl
        · simp [StoreOp.exec, Txn.commit, recordAttemptCompletion, Store.redispatches, hkey]
      refine ⟨hcount, fun key hsome => ?_, fun _ => id,
        fun h => ⟨h.ids, fun key => (hcount key).trans (h.counts key)⟩⟩
      by_cases hkey : key = (c.board, c.cardId)
      · subst hkey
        simpa [StoreOp.exec, Txn.commit, recordAttemptCompletion] using hsome
      · simpa [StoreOp.exec, Txn.commit, recordAttemptCompletion, hkey] using hsome
    case recordCardRuntimeEvent e =>
      simp only [StoreOp.exec, Txn.commit]
      rcases hx : recordCardRuntimeEvent e s with err | ⟨u, s'⟩
      · exact .refl s
      · exact recordCardRuntimeEvent_uncounting hx
    case updateWorkerWatchdog u =>
      have hinc : u.incrementRedispatch = false := by
        simpa [StoreOp.counts] using ho
      have hkept : u.redispatch s = (s.cardAttempts, none) := by
        simp [WatchdogUpdate.redispatch, hinc]
      have hcount : ∀ key, (StoreOp.exec now (.updateWorkerWatchdog u) s).2.redispatches key =
          s.redispatches key := by
        intro key
        refine (updateWorkerWatchdog_redispatches u now s key).trans ?_
        simp [hkept]
      have hattempts : (StoreOp.exec now (.updateWorkerWatchdog u) s).2.cardAttempts =
          s.cardAttempts := by
        rw [StoreOp.exec, updateWorkerWatchdog_attempts, hkept]
      refine ⟨hcount, fun key hsome => ?_, fun key => ?_, fun h => ⟨?_, fun key => ?_⟩⟩
      · rw [StoreOp.exec, updateWorkerWatchdog_rows]
        exact hsome
      · rw [hattempts]
        exact id
      · rw [hattempts]
        exact h.ids
      · rw [hcount, hattempts]
        exact h.counts key
  · have hruntime := o.exec_get (c := .runtime) now s hw
    have hattempts := o.exec_get (c := .attempts) now s fun h =>
      hw (by cases o <;> simp_all [StoreOp.writes])
    exact uncounting_of_same hruntime hattempts

/-- A fold that takes the element or keeps the best so far ends with one of them. -/
theorem foldl_taken {β : Type} {f : Option β → β → Option β}
    (hf : ∀ best x, f best x = some x ∨ f best x = best) (l : List β) (best : Option β) :
    l.foldl f best = best ∨ ∃ a ∈ l, l.foldl f best = some a := by
  induction l generalizing best with
  | nil => exact .inl rfl
  | cons x l ih =>
    rw [List.foldl_cons]
    rcases ih (f best x) with h | ⟨a, ha, h⟩
    · rw [h]
      exact (hf best x).symm.imp_right fun hx => ⟨x, List.mem_cons_self, hx⟩
    · exact .inr ⟨a, List.mem_cons_of_mem _ ha, h⟩

/-- The newest of some attempts is one of them. -/
theorem latestAttempt_found {l : List CardAttempt} (h : l ≠ []) :
    ∃ a ∈ l, latestAttempt l = some a := by
  cases l with
  | nil => exact absurd rfl h
  | cons x l =>
    unfold latestAttempt
    rw [List.foldl_cons]
    refine (foldl_taken (fun best a => ?_) l (some x)).elim
      (fun hx => ⟨x, List.mem_cons_self, hx⟩) fun hnext => ?_
    · cases best with
      | none => exact .inl rfl
      | some b =>
        dsimp only
        split
        · exact .inl rfl
        · exact .inr rfl
    · obtain ⟨a, ha, hx⟩ := hnext
      exact ⟨a, List.mem_cons_of_mem _ ha, hx⟩

theorem latestAttempt_mem {l : List CardAttempt} {a : CardAttempt} (h : latestAttempt l = some a) :
    a ∈ l := by
  obtain ⟨b, hb, hnewest⟩ := latestAttempt_found (l := l) (by rintro rfl; cases h)
  rw [hnewest] at h
  cases h
  exact hb

theorem latestAttempt_isSome {l : List CardAttempt} (h : l ≠ []) : (latestAttempt l).isSome := by
  obtain ⟨a, -, hnewest⟩ := latestAttempt_found h
  rw [hnewest]
  rfl

/-- One element of a list with distinct keys begins to count. -/
theorem countP_map_one {α β : Type} [DecidableEq β] {key : α → β} {p : α → Bool} {f : α → α}
    {l : List α} (hids : (l.map key).Nodup) {a : α} (ha : a ∈ l)
    (hbefore : p a = false) (hafter : p (f a) = true) :
    (l.map fun x => if key x = key a then f x else x).countP p = l.countP p + 1 := by
  induction l with
  | nil => exact absurd ha List.not_mem_nil
  | cons x l ih =>
    rw [List.map_cons, List.nodup_cons] at hids
    rcases List.mem_cons.mp ha with rfl | ha
    · have hrest : (l.map fun x => if key x = key a then f x else x) = l := by
        refine (List.map_congr_left fun x hx => ?_).trans (List.map_id l)
        rw [if_neg]
        · rfl
        · exact fun heq => hids.1 (heq ▸ List.mem_map_of_mem hx)
      rw [List.map_cons, hrest, if_pos rfl, List.countP_cons_of_pos hafter,
        List.countP_cons_of_neg (by simp [hbefore])]
    · have hne : key x ≠ key a := fun heq => hids.1 (heq ▸ List.mem_map_of_mem ha)
      rw [List.map_cons, if_neg hne, List.countP_cons, List.countP_cons, ih hids.2 ha]
      omega

/-- The attempt on which a redispatch is recorded. -/
def recovered (why : String) (a : CardAttempt) : CardAttempt :=
  { a with recoveryReason := a.recoveryReason <|> some why }

/-- A redispatch is recorded on the newest attempt, if none is recorded there. -/
theorem recovered_counts {l : List CardAttempt} (hids : (l.map (·.runId)).Nodup)
    {key : String × CardId} {a : CardAttempt}
    (ha : latestAttempt (l.filter (·.ofCard key.1 key.2)) = some a) (why : String)
    (key' : String × CardId) :
    (l.map fun x => if x.runId = a.runId then recovered why x else x).countP (countedFor key') =
      l.countP (countedFor key') + if key' = key ∧ a.recoveryReason = none then 1 else 0 := by
  obtain ⟨hmem, hof⟩ := List.mem_filter.mp (latestAttempt_mem ha)
  have hsame : ∀ x ∈ l, x.runId = a.runId → x = a := fun x hx hid =>
    List.inj_on_of_nodup_map hids hx hmem hid
  by_cases hnew : key' = key ∧ a.recoveryReason = none
  · obtain ⟨rfl, hnone⟩ := hnew
    rw [if_pos ⟨rfl, hnone⟩]
    refine countP_map_one (f := recovered why) hids hmem ?_ ?_
    · simp [countedFor, hnone]
    · simp only [countedFor, recovered, hnone, Bool.and_eq_true]
      exact ⟨hof, rfl⟩
  · rw [if_neg hnew, List.countP_map, Nat.add_zero]
    refine List.countP_congr fun x hx => ?_
    rw [Function.comp_apply]
    split
    · next hid =>
      obtain rfl := hsame x hx hid
      by_cases hkey : key' = key
      · subst hkey
        have hsome : x.recoveryReason.isSome := Option.isSome_iff_ne_none.mpr fun h => hnew ⟨rfl, h⟩
        obtain ⟨why', hwhy⟩ := Option.isSome_iff_exists.mp hsome
        simp [countedFor, recovered, CardAttempt.ofCard, hwhy]
      · have hother : x.ofCard key'.1 key'.2 = false := by
          simp only [CardAttempt.ofCard, Bool.and_eq_true, beq_iff_eq] at hof
          refine Bool.eq_false_iff.mpr fun h => hkey ?_
          simp only [CardAttempt.ofCard, Bool.and_eq_true, beq_iff_eq] at h
          exact Prod.ext (h.1.symm.trans hof.1) (h.2.symm.trans hof.2)
        have hother' : (recovered why x).ofCard key'.1 key'.2 = false := hother
        simp [countedFor, hother, hother']
    · exact Iff.rfl

/-- **The count.** Where the card has a row and an attempt, its count rises by one exactly when
no redispatch is recorded on its newest attempt. -/
theorem count_redispatches {u : WatchdogUpdate} (hinc : u.incrementRedispatch = true) (now : Nat)
    {s : Store} (hs : Tallied s) (hrow : (s.cardRuntime (u.board, u.cardId)).isSome)
    (hattempt : ∃ a ∈ s.cardAttempts, a.ofCard u.board u.cardId = true) :
    Tallied (updateWorkerWatchdog u now s).2 ∧
      (∀ key, (updateWorkerWatchdog u now s).2.redispatches key = s.redispatches key +
        if key = (u.board, u.cardId) ∧ s.uncounted (u.board, u.cardId) then 1 else 0) ∧
      ∀ key : String × CardId, (∃ a ∈ s.cardAttempts, a.ofCard key.1 key.2 = true) →
        ∃ a ∈ (updateWorkerWatchdog u now s).2.cardAttempts, a.ofCard key.1 key.2 = true := by
  obtain ⟨a, hmem, hof⟩ := hattempt
  have hsome : (latestAttempt (s.cardAttempts.filter (·.ofCard u.board u.cardId))).isSome :=
    latestAttempt_isSome (List.ne_nil_of_mem (List.mem_filter.mpr ⟨hmem, hof⟩))
  obtain ⟨current, hcurrent⟩ := Option.isSome_iff_exists.mp hsome
  obtain ⟨why, hwhy⟩ : ∃ why, (u.redispatch s) = (s.cardAttempts.map fun x =>
      if x.runId = current.runId then recovered why x else x, some ((s.cardAttempts.map fun x =>
        if x.runId = current.runId then recovered why x else x).countP
          (countedFor (u.board, u.cardId)))) := by
    refine ⟨clip 1000 (if truthy u.reason then u.reason.getD "" else "redispatch_requested"), ?_⟩
    simp only [WatchdogUpdate.redispatch, hinc, hcurrent, List.countP_eq_length_filter]
    rfl
  have hcounts := @recovered_counts _ hs.ids (u.board, u.cardId) _ hcurrent why
  have huncounted : (current.recoveryReason = none) ↔ s.uncounted (u.board, u.cardId) = true := by
    simp [Store.uncounted, hcurrent]
  rw [updateWorkerWatchdog_attempts, hwhy]
  have hsum : ∀ key, (updateWorkerWatchdog u now s).2.redispatches key = s.redispatches key +
      if key = (u.board, u.cardId) ∧ s.uncounted (u.board, u.cardId) then 1 else 0 := by
    intro key
    rw [updateWorkerWatchdog_redispatches, hwhy]
    by_cases hkey : key = (u.board, u.cardId)
    · subst hkey
      rw [if_pos ⟨rfl, hrow⟩, Option.getD_some, hcounts, hs.counts]
      simp only [huncounted]
    · rw [if_neg fun h => hkey h.1, if_neg fun h => hkey h.1, Nat.add_zero]
  refine ⟨⟨?_, fun key => ?_⟩, hsum, ?_⟩
  · rw [updateWorkerWatchdog_attempts, hwhy, List.map_map]
    have hsame : (fun x : CardAttempt => x.runId) ∘
        (fun x => if x.runId = current.runId then recovered why x else x) = (·.runId) := by
      funext x
      rw [Function.comp_apply]
      split <;> rfl
    rw [hsame]
    exact hs.ids
  · rw [hsum, updateWorkerWatchdog_attempts, hwhy, hcounts, hs.counts]
    simp only [huncounted]
  · rintro key ⟨x, hx, hofx⟩
    refine ⟨_, List.mem_map_of_mem hx, ?_⟩
    split <;> exact hofx

/-! ## What a recovery issues -/

/-- The operation neither hands a card out again nor counts that. -/
def Op.Quiet (o : Op) : Prop :=
  o.redispatches = none ∧ o.counts = none

/-- The event records the end of an attempt of the card. -/
def RecordsEnd (key : String × CardId) (e : Observed) : Prop :=
  ∃ r : RuntimeEvent, e = ⟨.store (.recordCardRuntimeEvent r), .ok ()⟩ ∧
    (r.board, r.cardId) = key ∧ r.terminal = true ∧ r.runId.isSome

/-- A recovery hands out its own card, once and within the limit, and counts that card after it
has recorded the end of the attempt. -/
def recoveryGuard (limit n : Nat) (key : String × CardId) (h : List Observed) (o : Op) : Prop :=
  (∀ key', o.redispatches = some key' →
    key' = key ∧ n < limit ∧ ∀ e ∈ h, e.op.redispatches = none) ∧
  ∀ key', o.counts = some key' → key' = key ∧ ∃ e ∈ h, RecordsEnd key e

/-- What is left of a recovery, after the events `h`. -/
def Recovers (limit n : Nat) (key : String × CardId) (h : List Observed) {α : Type}
    (p : Service α) : Prop :=
  Heeds (recoveryGuard limit n key) p (fun _ _ => True) h

theorem closed_quiet : Closed (fun {α} (p : Service α) => p.Uses Op.Quiet) :=
  closed_uses Op.Quiet

theorem quiet_store {o : StoreOp} (ho : o.isBody = true) : (store o).Uses Op.Quiet :=
  Prog.uses_op ⟨rfl, by cases o <;> first | rfl | simp_all [StoreOp.isBody, Op.counts, StoreOp.counts]⟩

theorem quiet_hermes {o : HermesOp} (ho : o.evicts = false) : (hermes o).Uses Op.Quiet :=
  Prog.uses_op ⟨(by cases o <;> first | rfl | cases ho), rfl⟩

theorem quiet_other {o : StoreOp} (ho : o.counts = none) : (store o).Uses Op.Quiet :=
  Prog.uses_op ⟨rfl, ho⟩

theorem boarding_quiet : Boarding (fun {α} (p : Service α) => p.Uses Op.Quiet) where
  toClosed := closed_quiet
  store o ho := quiet_other (by cases o <;> first | rfl | cases ho)
  hermes o ho := quiet_hermes (by cases o <;> first | rfl | cases ho)
  gitlab _ _ := Prog.uses_op ⟨rfl, rfl⟩
  host _ := Prog.uses_op ⟨rfl, rfl⟩
  artifact _ _ := Prog.uses_op ⟨rfl, rfl⟩
  board _ ho := quiet_hermes ho

theorem bookkeeping_quiet : Bookkeeping (fun {α} (p : Service α) => p.Uses Op.Quiet) :=
  { boarding_quiet with
    outage := fun o ho => quiet_other (by cases o <;> first | rfl | cases ho)
    transition := fun _ _ _ _ => quiet_other rfl }

theorem passing_quiet : Passing (fun {α} (p : Service α) => p.Uses Op.Quiet) :=
  { closed_quiet with
    store := fun _ ho => quiet_store (StoreOp.isLive_isBody ho)
    transition := fun _ _ _ => quiet_other rfl
    ended := fun _ _ ho _ => closed_quiet.bind (quiet_store ho) fun _ => quiet_other rfl
    hermes := fun _ => quiet_hermes
    running := fun cfg board id task => boarding_quiet.abortRunningTask cfg board id task
      (fun _ _ => Prog.uses_op ⟨rfl, rfl⟩) fun _ => quiet_other rfl
    failure := bookkeeping_quiet.handleDependencyError
    recovery := bookkeeping_quiet.recoverRunDependency
    gitlab := fun _ => Prog.uses_op ⟨rfl, rfl⟩
    host := fun _ => Prog.uses_op ⟨rfl, rfl⟩ }

section Thread

variable {limit n : Nat} {key : String × CardId}

theorem recoveryGuard_of_quiet {h : List Observed} {o : Op} (ho : o.Quiet) :
    recoveryGuard limit n key h o :=
  ⟨fun _ h' => absurd (ho.1.symm.trans h') nofun, fun _ h' => absurd (ho.2.symm.trans h') nofun⟩

/-- What issues nothing but quiet operations. -/
theorem recovers_of_quiet {α : Type} {p : Service α} (hp : p.Uses Op.Quiet) (h : List Observed) :
    Recovers limit n key h p :=
  (hp.heeds fun _ _ => recoveryGuard_of_quiet).mono fun _ _ _ => trivial

theorem leads_recovers (h : List Observed) :
    Leads (fun {α} (p : Service α) => p.Uses Op.Quiet)
      (fun {α} (p : Service α) => Recovers limit n key h p) :=
  fun hp hf => leads_heeds _ h hp fun a => recovers_of_quiet (hf a)

/-- A quiet part leaves the card where it is. -/
theorem recovers_bind {α β : Type} {p : Service α} {f : α → Service β} {h : List Observed}
    (hp : p.Uses Op.Quiet) (hh : ∀ e ∈ h, e.op.redispatches = none)
    (hf : ∀ a h', (∀ e ∈ h', e.op.redispatches = none) → Recovers limit n key h' (f a)) :
    Recovers limit n key h (p.bind f) := by
  refine heeds_bind.mpr ((hp.heeds fun _ _ => recoveryGuard_of_quiet).mono fun r h' hes => ?_)
  obtain ⟨es, rfl, hquiet⟩ := hes
  cases r with
  | error e => trivial
  | ok a =>
    refine hf a _ fun e he => ?_
    rcases List.mem_append.mp he with he | he
    · exact hh e he
    · exact (hquiet e he).1

/-- The reclaim of a late worker's task hands out the card. -/
theorem reclaimAttempt_recovers {board : String} {id : CardId} (hkey : (board, id) = key)
    (hn : n < limit) (runId pid : Nat) {h : List Observed}
    (hh : ∀ e ∈ h, e.op.redispatches = none) :
    Recovers limit n key h (reclaimAttempt board id runId pid) := by
  refine recovers_bind (quiet_hermes rfl) hh fun task h' hh' => ?_
  cases task with
  | none => trivial
  | some task =>
    dsimp only
    split
    · split
      · trivial
      · refine heeds_op_bind ⟨fun key' hkey' => ?_, nofun⟩
          (fun _ => recovers_of_quiet (quiet_hermes rfl) _) fun _ => trivial
        cases hkey'
        exact ⟨hkey, hn, hh'⟩
    · exact recovers_of_quiet (quiet_hermes rfl) _

/-- The redispatch of a late worker. -/
theorem redispatchWorker_recovers (cfg : Config) {run : RunRecord} {managed : ManagedCard}
    (row : CardRuntime) {i : WorkerIdentity} (hkey : (managed.board, managed.cardId) = key)
    (hboard : managed.board = run.workspace.board)
    (hidentity : i.board = managed.board ∧ i.cardId = managed.cardId) (hn : n < limit)
    {h : List Observed} (hh : ∀ e ∈ h, e.op.redispatches = none) :
    Recovers limit n key h (redispatchWorker cfg run managed row i) := by
  have p := passing_quiet
  have hstale : Recovers limit n key h
      (redispatchStaleWorker run.workspace.board managed.cardId i.runId i.workerPid) :=
    p.redispatchStaleWorker (S := fun {α} q => Recovers limit n key h (α := α) q)
      (leads_recovers h) (reclaimAttempt_recovers (hboard ▸ hkey) hn _ _ hh)
  refine heeds_bind.mpr (hstale.mono fun r h₁ _ => ?_)
  cases r with
  | error e => trivial
  | ok task =>
    unfold recordReclaimedAttempt
    refine heeds_bind.mpr (heeds_op_bind (recoveryGuard_of_quiet ⟨rfl, rfl⟩) (fun now => ?_)
      fun _ => trivial)
    refine heeds_op (recoveryGuard_of_quiet ⟨rfl, rfl⟩) fun answer => ?_
    cases answer with
    | error e => trivial
    | ok u =>
      refine heeds_op_bind ⟨nofun, fun key' hcount => ?_⟩ (fun _ => ?_) fun _ => trivial
      · cases hcount
        refine ⟨hkey, ⟨_, _⟩, List.mem_append_right _ (List.mem_singleton.mpr rfl), _, rfl, ?_, rfl,
          rfl⟩
        rw [← hkey, hidentity.1, hidentity.2]
      · dsimp only
        split
        · exact recovers_of_quiet (p.bind (p.reading.runControl _) fun _ =>
            p.plain.enqueueProgress _ _ _ _) _
        · trivial

/-- **What a recovery issues.** It hands out its own card within the limit, and counts it after
the record of the attempt's end. -/
theorem recovery_recovers (cfg : Config) (r : Recovery) :
    Recovers cfg.workerRedispatchLimit r.worker.row.redispatchCount r.key [] (r.program cfg) := by
  have p := passing_quiet
  have hnone : ∀ e ∈ ([] : List Observed), e.op.redispatches = none :=
    fun _ he => absurd he List.not_mem_nil
  refine recovers_bind (p.watchdogTargetIsCurrent _) hnone fun current h₁ hh₁ => ?_
  split
  · trivial
  · refine recovers_bind (p.host _) hh₁ fun confirmed h₂ hh₂ => ?_
    split
    · exact recovers_of_quiet (p.leaseNotice _ _ _ _) _
    · refine recovers_bind (p.watchdogTargetIsCurrent _) hh₂ fun current h₃ hh₃ => ?_
      split
      · exact recovers_of_quiet (p.leaseNotice _ _ _ _) _
      · refine recovers_bind (p.host _) hh₃ fun after h₄ hh₄ => ?_
        refine recovers_bind (p.reading.boundDeliveryMr _ _) hh₄ fun mrAfter h₅ hh₅ => ?_
        split
        · exact recovers_of_quiet (p.leaseNotice _ _ _ _) _
        · split
          · exact recovers_of_quiet (p.exhaustedWorker
              (S := fun {α} q => (q : Service α).Uses Op.Quiet) p.bind cfg _
              (p.body.handling.abortTask _ _ _ fun _ _ _ => Prog.uses_op ⟨rfl, rfl⟩)) _
          · next hlimit =>
            exact redispatchWorker_recovers cfg _ rfl r.onBoard (workerIdentity_card r.identified)
              (Nat.lt_of_not_le hlimit) hh₅

end Thread

/-! ## The invariant -/

/-- What the store shows of the events of a recovery. -/
structure Witnessed (n : Nat) (key : String × CardId) (h : List Observed) (t : Tally) : Prop where
  row : (t.world.store.cardRuntime key).isSome
  fresh : (∀ e ∈ h, e.op.redispatches = none) →
    t.owed = none ∧ t.world.store.redispatches key = n
  owed : ∀ key', t.owed = some key' → key' = key
  ended : (∃ e ∈ h, RecordsEnd key e) →
    ∃ a ∈ t.world.store.cardAttempts, a.ofCard key.1 key.2 = true

/-- Every reclaim is counted, but for one that is owed, and no card is over the limit. -/
structure Balanced (limit : Nat) (t : Tally) : Prop where
  counts : ∀ key, t.reclaims key =
    t.world.store.redispatches key + if t.owed = some key then 1 else 0
  within : ∀ key, t.reclaims key ≤ limit
  tallied : Tallied t.world.store
  idle : t.thread = none → t.owed = none
  thread : ∀ p, t.thread = some p →
    ∃ n key h, Recovers limit n key h p ∧ Witnessed n key h t

theorem Balanced.counted {limit : Nat} {t : Tally} (ht : Balanced limit t) : t.Counted := by
  intro hnone key
  simpa [hnone] using (ht.counts key).symm

/-- Another thread commits, or another system moves. -/
theorem Balanced.others {limit : Nat} {t : Tally} (ht : Balanced limit t) {w : World}
    (hw : Uncounting t.world.store w.store) : Balanced limit { t with world := w } where
  counts key := by
    rw [ht.counts key]
    simp only [hw.same]
  within := ht.within
  tallied := hw.tallied ht.tallied
  idle := ht.idle
  thread p hp := by
    obtain ⟨n, key, h, hrecovers, hh⟩ := ht.thread p hp
    refine ⟨n, key, h, hrecovers, hw.rows key hh.row, fun hfresh => ?_, hh.owed,
      fun hended => hw.attempts key (hh.ended hended)⟩
    obtain ⟨howed, hn⟩ := hh.fresh hfresh
    exact ⟨howed, (hw.same key).trans hn⟩

theorem underWay_eq {p q : Service Unit} (h : underWay p = some q) : q = p := by
  cases p with
  | pure a => cases h
  | raise e => cases h
  | perform o k => exact (Option.some.inj h).symm

/-- A recovery begins with the count of its card. -/
theorem Balanced.recover {cfg : Config} {t : Tally} (ht : Balanced cfg.workerRedispatchLimit t)
    {r : Recovery} (hidle : t.thread = none)
    (hrow : (t.world.store.cardRuntime r.key).map (·.redispatchCount) =
      some r.worker.row.redispatchCount) :
    Balanced cfg.workerRedispatchLimit { t with thread := underWay (r.program cfg) } where
  counts := ht.counts
  within := ht.within
  tallied := ht.tallied
  idle _ := ht.idle hidle
  thread p hp := by
    obtain rfl := underWay_eq (p := r.program cfg) hp
    obtain ⟨row, hfound, hcount⟩ := Option.map_eq_some_iff.mp hrow
    refine ⟨_, _, [], recovery_recovers cfg r, ?_, fun _ => ⟨ht.idle hidle, ?_⟩, ?_, ?_⟩
    · rw [hfound]
      rfl
    · rw [Store.redispatches, hfound]
      exact hcount
    · intro key' howed
      rw [ht.idle hidle] at howed
      cases howed
    · rintro ⟨e, he, -⟩
      exact absurd he List.not_mem_nil

/-! ## A step of the recovery -/

theorem meet_effect {f : Fault ControllerError} (hf : takesEffect f = true) (o : Op) (w : World) :
    (machine.meet o f w).2 = (machine.exec o w).2 := by
  cases f <;> first | rfl | cases hf

theorem meet_none {f : Fault ControllerError} (hf : takesEffect f = false) (o : Op) (w : World) :
    (machine.meet o f w).2 = w := by
  cases f <;> first | rfl | cases hf

theorem meet_uncounting {o : Op} (ho : o.counts = none) (f : Fault ControllerError) (w : World) :
    Uncounting w.store (machine.meet o f w).2.store := by
  have hexec : Uncounting w.store (machine.exec o w).2.store := by
    cases o with
    | store o => exact exec_uncounting ho w.now w.store
    | hermes o => exact .refl _
    | gitlab o => exact .refl _
    | host o => exact .refl _
  rcases machine.meet_state o f w with h | h <;> rw [h]
  · exact .refl _
  · exact hexec

/-- The operation that counts is an update of the watchdog. -/
theorem Op.counts_eq {o : Op} {key : String × CardId} (h : o.counts = some key) :
    ∃ u : WatchdogUpdate, o = .store (.updateWorkerWatchdog u) ∧ u.incrementRedispatch = true ∧
      (u.board, u.cardId) = key := by
  cases o with
  | store o =>
    cases o <;> first | cases h | skip
    case updateWorkerWatchdog u =>
      simp only [Op.counts, StoreOp.counts, Option.ite_none_right_eq_some, Option.some.injEq] at h
      exact ⟨u, rfl, h.1, h.2⟩
  | hermes o => cases h
  | gitlab o => cases h
  | host o => cases h

theorem reclaimed_of_counts {t : Tally} {o : Op} {key : String × CardId} (h : o.counts = some key)
    (f : Fault ControllerError) : t.reclaimed o f = none := by
  obtain ⟨u, rfl, -⟩ := Op.counts_eq h
  simp [Tally.reclaimed, Op.redispatches]

theorem reclaimed_redispatches {t : Tally} {o : Op} {f : Fault ControllerError}
    {key : String × CardId} (h : t.reclaimed o f = some key) : o.redispatches = some key := by
  simp only [Tally.reclaimed, Option.ite_none_right_eq_some] at h
  exact h.2

theorem rest_eq {t : Tally} {o : Op} {k : Except ControllerError o.Ret → Service Unit}
    {f : Fault ControllerError} {p : Service Unit} (h : t.rest o k f = some p) :
    ∃ answer, (machine.meet o f t.world).1 = some answer ∧ p = k answer := by
  obtain ⟨answer, hanswer, hp⟩ := Option.bind_eq_some_iff.mp h
  exact ⟨answer, hanswer, underWay_eq hp⟩

/-- An answered record of an attempt's end is in the store. -/
theorem recordsEnd_attempt {key : String × CardId} {o : Op} {f : Fault ControllerError} {w : World}
    {answer : Except ControllerError o.Ret} (hmet : (machine.meet o f w).1 = some answer)
    (he : RecordsEnd key ⟨o, answer⟩) :
    ∃ a ∈ (machine.meet o f w).2.store.cardAttempts, a.ofCard key.1 key.2 = true := by
  obtain ⟨r, heq, rfl, hterminal, hrun⟩ := he
  cases heq
  cases f <;> simp only [Machine.meet, Option.some.injEq, reduceCtorEq] at hmet
  rcases hx : recordCardRuntimeEvent r w.store with e | ⟨u, s'⟩
  · have hexec : (machine.exec (.store (.recordCardRuntimeEvent r)) w).1 = .error e := by
      simp [machine, Op.exec, StoreOp.exec, Txn.commit, hx]
    rw [hexec] at hmet
    cases hmet
  · have hstore : (machine.exec (.store (.recordCardRuntimeEvent r)) w).2.store = s' := by
      simp [machine, Op.exec, StoreOp.exec, Txn.commit, hx]
    obtain ⟨a, ha, hof⟩ := recordCardRuntimeEvent_attempt hx hterminal hrun
    refine ⟨a, ?_, hof⟩
    simp only [Machine.meet, hstore]
    exact ha

section Turn

variable {limit : Nat} {t : Tally} {o : Op} {k : Except ControllerError o.Ret → Service Unit}
  {f : Fault ControllerError}

/-- What the next operation of the recovery is known to be. -/
theorem Balanced.next (ht : Balanced limit t) (hp : t.thread = some (.perform o k)) :
    ∃ n key h, recoveryGuard limit n key h o ∧
      (∀ answer, Recovers limit n key (h ++ [⟨o, answer⟩]) (k answer)) ∧ Witnessed n key h t := by
  obtain ⟨n, key, h, hrecovers, hh⟩ := ht.thread _ hp
  exact ⟨n, key, h, hrecovers.1, hrecovers.2, hh⟩

/-- A count finds the row of its card and an attempt of it. -/
theorem Balanced.count (ht : Balanced limit t) (hp : t.thread = some (.perform o k))
    {key : String × CardId} (hcount : o.counts = some key) (hf : takesEffect f = true) :
    Tallied (t.perform o k f).world.store ∧
      (∀ key', (t.perform o k f).world.store.redispatches key' =
        t.world.store.redispatches key' +
          if key' = key ∧ t.world.store.uncounted key then 1 else 0) ∧
      (∀ key', (t.world.store.cardRuntime key').isSome →
        ((t.perform o k f).world.store.cardRuntime key').isSome) ∧
      ∀ key' : String × CardId, (∃ a ∈ t.world.store.cardAttempts, a.ofCard key'.1 key'.2 = true) →
        ∃ a ∈ (t.perform o k f).world.store.cardAttempts, a.ofCard key'.1 key'.2 = true := by
  obtain ⟨n, key₀, h, hguard, -, hh⟩ := ht.next hp
  obtain ⟨rfl, hended⟩ := hguard.2 key hcount
  obtain ⟨u, rfl, hinc, rfl⟩ := Op.counts_eq hcount
  obtain ⟨htallied, hsum, hattempts⟩ := count_redispatches hinc t.world.now ht.tallied hh.row
    (hh.ended hended)
  have hstore : (t.perform _ k f).world.store =
      (updateWorkerWatchdog u t.world.now t.world.store).2 := by
    rw [Tally.perform, meet_effect hf]
    rfl
  rw [hstore]
  exact ⟨htallied, hsum, fun key' hrow => by rwa [updateWorkerWatchdog_rows], hattempts⟩

/-- The card that is owed a count is the card of the recovery. -/
theorem Balanced.owed_iff (ht : Balanced limit t) (hp : t.thread = some (.perform o k))
    {key : String × CardId} (hcount : o.counts = some key) :
    t.owed.isSome = true ↔ t.owed = some key := by
  obtain ⟨n, key₀, h, hguard, -, hh⟩ := ht.next hp
  obtain ⟨rfl, -⟩ := hguard.2 key hcount
  constructor
  · intro hsome
    obtain ⟨key', howed⟩ := Option.isSome_iff_exists.mp hsome
    rw [howed, hh.owed key' howed]
  · intro howed
    rw [howed]
    rfl

/-- **Only that keeps the count.** Where the counts agree after a step of the recovery, the step
counts its reclaims. -/
theorem Balanced.counts_of_counted (ht : Balanced limit t)
    (hp : t.thread = some (.perform o k)) (hcounted : (t.perform o k f).Counted) :
    StepCounts t o k f := by
  unfold StepCounts
  cases hcount : o.counts with
  | none =>
    dsimp only
    intro hdue
    by_contra hrest
    have hnone : t.rest o k f = none := by simpa using hrest
    have hsame := (meet_uncounting hcount f t.world).same
    have hagree := hcounted (by simp [Tally.perform, hnone])
    cases hreclaimed : t.reclaimed o f with
    | some key =>
      have := hagree key
      have hsum := ht.counts key
      have hkey := hsame key
      simp only [Tally.perform, hreclaimed, if_true] at this
      omega
    | none =>
      rw [hreclaimed] at hdue
      obtain ⟨key, howed⟩ := Option.isSome_iff_exists.mp hdue
      have := hagree key
      have hsum := ht.counts key
      have hkey := hsame key
      have howed : t.owed = some key := howed
      simp only [Tally.perform, hreclaimed, reduceCtorEq, if_false] at this
      rw [howed, if_pos rfl] at hsum
      omega
  | some key =>
    dsimp only
    have hreclaimed := reclaimed_of_counts (t := t) hcount f
    have hagree := hcounted (by simp [Tally.perform, hcount])
    by_cases hf : takesEffect f = true
    · rw [if_pos hf]
      obtain ⟨-, hsum, -⟩ := ht.count (f := f) hp hcount hf
      have := hagree key
      have hbefore := ht.counts key
      rw [hsum key] at this
      simp only [Tally.perform, hreclaimed, reduceCtorEq, if_false, true_and] at this
      rw [Bool.eq_iff_iff, ht.owed_iff hp hcount]
      by_cases hun : t.world.store.uncounted key = true <;> by_cases howed : t.owed = some key <;>
        simp only [hun, howed, if_true, if_false, Bool.false_eq_true] at this hbefore ⊢ <;> omega
    · rw [if_neg hf]
      by_contra howed
      obtain ⟨key', howed⟩ := Option.ne_none_iff_exists'.mp howed
      have := hagree key'
      have hbefore := ht.counts key'
      simp only [Tally.perform, meet_none (Bool.eq_false_iff.mpr hf), hreclaimed, reduceCtorEq,
        if_false] at this
      rw [howed, if_pos rfl] at hbefore
      omega

/-- The events of the recovery after this step. -/
theorem Balanced.goes_on (ht : Balanced limit t) (hp : t.thread = some (.perform o k))
    (hstore : Tallied (t.perform o k f).world.store ∧
      (∀ key', (t.world.store.cardRuntime key').isSome →
        ((t.perform o k f).world.store.cardRuntime key').isSome) ∧
      ∀ key' : String × CardId, (∃ a ∈ t.world.store.cardAttempts, a.ofCard key'.1 key'.2 = true) →
        ∃ a ∈ (t.perform o k f).world.store.cardAttempts, a.ofCard key'.1 key'.2 = true)
    (hcounts : ∀ key', (t.perform o k f).reclaims key' =
      (t.perform o k f).world.store.redispatches key' +
        if (t.perform o k f).owed = some key' then 1 else 0) :
    Balanced limit (t.perform o k f) := by
  obtain ⟨n, key, h, hguard, hrest, hh⟩ := ht.next hp
  obtain ⟨htallied, hrows, hattempts⟩ := hstore
  refine ⟨hcounts, fun key' => ?_, htallied, fun hnone => ?_, fun p hthread => ?_⟩
  · cases hreclaimed : t.reclaimed o f with
    | none =>
      simp only [Tally.perform, hreclaimed, reduceCtorEq, if_false, Nat.add_zero]
      exact ht.within key'
    | some key₀ =>
      obtain ⟨rfl, hlimit, hfresh⟩ := hguard.1 key₀ (reclaimed_redispatches hreclaimed)
      obtain ⟨howed, hn⟩ := hh.fresh hfresh
      have hsum := ht.counts key'
      have hwithin := ht.within key'
      simp only [Tally.perform, hreclaimed, Option.some.injEq]
      split
      · next heq =>
        subst heq
        rw [howed] at hsum
        simp only [reduceCtorEq, if_false, Nat.add_zero] at hsum
        omega
      · omega
  · have hnone : t.rest o k f = none := hnone
    simp [Tally.perform, hnone]
  · obtain ⟨answer, hmet, rfl⟩ := rest_eq hthread
    refine ⟨n, key, _, hrest answer, hrows key hh.row, fun hfresh => ?_, fun key' howed => ?_, ?_⟩
    · have hquiet : o.redispatches = none := hfresh _ (List.mem_append_right _ List.mem_cons_self)
      obtain ⟨howed, hn⟩ := hh.fresh fun e he => hfresh e (List.mem_append_left _ he)
      have hreclaimed : t.reclaimed o f = none := by
        simp [Tally.reclaimed, hquiet]
      have howed' : (t.perform o k f).owed = none := by
        simp [Tally.perform, hreclaimed, howed]
      refine ⟨howed', ?_⟩
      have hsum := hcounts key
      have hbefore := ht.counts key
      rw [howed'] at hsum
      rw [howed] at hbefore
      simp only [Tally.perform, hreclaimed, reduceCtorEq, if_false, Nat.add_zero] at hsum hbefore ⊢
      omega
    · simp only [Tally.perform] at howed
      split at howed
      · cases howed
      · cases hreclaimed : t.reclaimed o f with
        | some key₀ =>
          rw [hreclaimed] at howed
          cases howed
          exact (hguard.1 _ (reclaimed_redispatches hreclaimed)).1
        | none =>
          rw [hreclaimed] at howed
          exact hh.owed key' howed
    · rintro ⟨e, he, hends⟩
      rcases List.mem_append.mp he with he | he
      · exact hattempts key (hh.ended ⟨e, he, hends⟩)
      · rw [List.mem_singleton.mp he] at hends
        exact recordsEnd_attempt hmet hends

/-- **That keeps the count.** A step that counts its reclaims leaves every reclaim counted. -/
theorem Balanced.perform (ht : Balanced limit t) (hp : t.thread = some (.perform o k))
    (hstep : StepCounts t o k f) : Balanced limit (t.perform o k f) := by
  cases hcount : o.counts with
  | none =>
    have hsame := meet_uncounting hcount f t.world
    refine ht.goes_on hp ⟨hsame.tallied ht.tallied, hsame.rows, hsame.attempts⟩ fun key' => ?_
    have hstore : (t.perform o k f).world.store.redispatches key' =
        t.world.store.redispatches key' := hsame.same key'
    have hdue : (t.reclaimed o f <|> t.owed).isSome → (t.rest o k f).isSome := by
      simpa only [StepCounts, hcount] using hstep
    rw [hstore]
    cases hreclaimed : t.reclaimed o f with
    | some key₀ =>
      rw [hreclaimed] at hdue
      have hrest : (t.rest o k f).isNone = false := by
        simpa using hdue rfl
      obtain ⟨n, key, h, hguard, -, hh⟩ := ht.next hp
      obtain ⟨rfl, -, hfresh⟩ := hguard.1 key₀ (reclaimed_redispatches hreclaimed)
      have hbefore := ht.counts key'
      rw [(hh.fresh hfresh).1] at hbefore
      simp only [reduceCtorEq, if_false, Nat.add_zero] at hbefore
      simp [Tally.perform, hreclaimed, hrest, hcount, hbefore]
    | none =>
      rw [hreclaimed] at hdue
      have howed : (t.perform o k f).owed = t.owed := by
        cases howed : t.owed with
        | none => simp [Tally.perform, hreclaimed, howed]
        | some key₀ =>
          rw [howed] at hdue
          have hrest : (t.rest o k f).isNone = false := by
            simpa using hdue rfl
          simp [Tally.perform, hreclaimed, howed, hrest, hcount]
      rw [howed]
      simpa [Tally.perform, hreclaimed] using ht.counts key'
  | some key =>
    have hreclaimed := reclaimed_of_counts (t := t) hcount f
    have howed : (t.perform o k f).owed = none := by simp [Tally.perform, hcount]
    have hreclaims : (t.perform o k f).reclaims = t.reclaims := by
      funext key'
      simp [Tally.perform, hreclaimed]
    unfold StepCounts at hstep
    rw [hcount] at hstep
    dsimp only at hstep
    by_cases hf : takesEffect f = true
    · rw [if_pos hf] at hstep
      obtain ⟨htallied, hsum, hrows, hattempts⟩ := ht.count (f := f) hp hcount hf
      refine ht.goes_on hp ⟨htallied, hrows, hattempts⟩ fun key' => ?_
      rw [howed, hreclaims, hsum, ht.counts key', hstep]
      simp only [ht.owed_iff hp hcount, reduceCtorEq, if_false, Nat.add_zero,
        Nat.add_left_cancel_iff]
      by_cases hkey : key' = key
      · simp [hkey]
      · have hother : t.owed ≠ some key' := fun h => by
          have := (ht.owed_iff hp hcount).mp (by rw [h]; rfl)
          exact hkey (Option.some.inj (h.symm.trans this))
        simp [hkey, hother]
    · have hworld : (t.perform o k f).world = t.world :=
        meet_none (Bool.eq_false_iff.mpr hf) o t.world
      rw [if_neg hf] at hstep
      refine ht.goes_on hp ?_ fun key' => ?_
      · rw [hworld]
        exact ⟨ht.tallied, fun _ => id, fun _ => id⟩
      · rw [hworld, howed, hreclaims, ht.counts key', hstep]

end Turn

/-! ## The law -/

theorem start_balanced (limit : Nat) (w : World) :
    Balanced limit { world := { w with store := {} } } where
  counts _ := rfl
  within _ := Nat.zero_le _
  tallied := ⟨List.nodup_nil, fun _ => rfl⟩
  idle _ := rfl
  thread _ hp := by cases hp

/-- Where every reclaim is counted, a step leaves the counts in agreement exactly when it counts
its reclaims, and then every reclaim is counted again. -/
theorem Balanced.step {cfg : Config} {t t' : Tally} {m : Move}
    (ht : Balanced cfg.workerRedispatchLimit t) (hm : redispatchStep cfg t m = some t') :
    (t'.Counted → CountsReclaims t m) ∧
      (CountsReclaims t m → Balanced cfg.workerRedispatchLimit t') := by
  cases m with
  | commit c =>
    simp only [redispatchStep] at hm
    split at hm
    · cases hm
    · next hcount =>
      cases hm
      refine ⟨fun _ => trivial, fun _ => ht.others ?_⟩
      exact exec_uncounting (by simpa using hcount) c.now t.world.store
  | drift hermes gitlab host now =>
    cases hm
    exact ⟨fun _ => trivial, fun _ => ht.others (.refl _)⟩
  | recover r =>
    simp only [redispatchStep] at hm
    split at hm
    · next hbegin =>
      cases hm
      exact ⟨fun _ => trivial, fun _ => ht.recover (by simpa using hbegin.1) hbegin.2⟩
    · cases hm
  | turn f =>
    simp only [redispatchStep] at hm
    split at hm
    · next o k hp =>
      cases hm
      simp only [CountsReclaims, hp]
      exact ⟨ht.counts_of_counted hp, ht.perform hp⟩
    · cases hm

/-- **The redispatch budget.** In the states of a run, with any interleaving of commits by other
threads, any moves of Hermes and any stops, the recorded counts are the reclaims and no card is
handed out again more often than the limit, if and only if every step counts its reclaims. -/
theorem budget_iff (cfg : Config) (w : World) (ms : List Move) :
    Along (redispatchStep cfg) (fun _ _ t' => t'.Counted ∧ t'.WithinBudget cfg)
        { world := { w with store := {} } } ms ↔
      Along (redispatchStep cfg) (fun t m _ => CountsReclaims t m)
        { world := { w with store := {} } } ms := by
  have hstart := start_balanced cfg.workerRedispatchLimit w
  constructor
  · exact fun h => h.imp (fun t m t' ht hm hq => (ht.step hm).2 ((ht.step hm).1 hq.1))
      (fun t m t' ht hm hq => (ht.step hm).1 hq.1) hstart
  · refine fun h => h.imp (fun t m t' ht hm hq => (ht.step hm).2 hq)
      (fun t m t' ht hm hq => ?_) hstart
    have ht' := (ht.step hm).2 hq
    exact ⟨ht'.counted, ht'.within⟩

/-! ## A card that is claimed at once -/

def writeCard : ManagedCard := sampleCard 5 4 .specWrite

/-- The claim of attempt 3, by process 40. -/
def polledClaim : RuntimeEvent where
  board := "app"
  cardId := ⟨5⟩
  kind := "claimed"
  createdAt := 20
  workerSessionId := some "kanban-run:3"
  workerPid := some 40
  leaseSeconds := 1800
  runId := some "app:3"

/-- A card is written by an attempt that was polled. -/
def lateCommits : List Move :=
  [.commit ⟨10, .saveRun (sampleRun "run-a" "ga" 1), trivial⟩,
   .commit ⟨10, .ensureRunControl "run-a", trivial⟩,
   .commit ⟨10, .addManagedCard writeCard, trivial⟩,
   .commit ⟨10, .registerCardAttempt
      { board := "app", cardId := ⟨5⟩, profile := "writer", dispatchKey := writeCard.idempotencyKey,
        worktree := "/wt", branch := "delivery-a" }, trivial⟩,
   .commit ⟨20, .recordCardRuntimeEvent polledClaim, trivial⟩]

/-- The task on the board, run by an attempt. -/
def writerTask (runId pid : Nat) : HermesTask where
  id := ⟨5⟩
  board := "app"
  body := .other ""
  assignee := some "writer"
  status := .running
  createdBy := some "hollysys-controller"
  createdAt := 10
  idempotencyKey := some writeCard.idempotencyKey
  tenant := some "run-a"
  skills := []
  parents := [⟨4⟩]
  currentRunId := some runId
  workerPid := some pid

def boardOf (task : HermesTask) : Hermes where
  tasks := [task]
  nextTask := 6
  nextRun := 5

def lateWorkspace : Host where
  workspace _ := { ok := true, branch := "delivery-a", headSha := "h0" }

theorem attemptRunId_three {row : CardRuntime} (h : row.workerSessionId = some "kanban-run:3") :
    row.attemptRunId = some 3 := by
  have hdigit : "3".toNat? = some 3 := by
    simp [String.toNat?, String.Slice.toNat?, String.Slice.isNat,
      String.Slice.forIn_eq_forIn_toList, String.Slice.foldl_eq_foldl_toList]
  have hsuffix : String.ofList ("kanban-run:3".toList.drop "kanban-run:".toList.length) = "3" := by
    decide
  have hprefix : "kanban-run:".toList.isPrefixOf "kanban-run:3".toList = true := by decide
  rw [CardRuntime.attemptRunId, h]
  simp only [Option.getD_some, hprefix, if_true, hsuffix, hdigit]
  rfl

/-- The row of an attempt that was registered and polled. -/
def lateRow : CardRuntime :=
  polledClaim.runtimeRow (some
    { profile := some "writer", dispatchKey := some writeCard.idempotencyKey,
      worktree := some "/wt", branch := some "delivery-a" })

theorem lateRow_identity : workerIdentity "app" ⟨5⟩ (some lateRow)
    (Hermes.snapshot (boardOf (writerTask 3 40)) (writerTask 3 40)) =
      some { board := "app", cardId := ⟨5⟩, runId := 3, workerPid := 40 } := by
  rw [workerIdentity, Option.bind_some, attemptRunId_three rfl]
  rfl

/-- The worker has been silent for hours. -/
def lateRecovery : Recovery where
  run := sampleRun "run-a" "ga" 1
  worker :=
    { runKey := "run-a"
      managed := writeCard
      row := lateRow
      heartbeatAge := 9000
      progressAge := 9000
      deadline := 1820 }
  task := Hermes.snapshot (boardOf (writerTask 3 40)) (writerTask 3 40)
  identity := { board := "app", cardId := ⟨5⟩, runId := 3, workerPid := 40 }
  head := "h0"
  mr := none
  onBoard := rfl
  identified := lateRow_identity

/-- Undisturbed turns take the recovery through a part that hands out and counts nothing. -/
theorem turns_quiet (cfg : Config) {α : Type} {p : Service α} {f : α → Service Unit} {t : Tally}
    {a : α} {w : World} (hp : p.Uses Op.Quiet) (howed : t.owed = none)
    (hthread : t.thread = underWay (p.bind f)) (heval : machine.eval p t.world = (.returned a, w)) :
    ∃ n, steps (redispatchStep cfg) t (List.replicate n (.turn .none)) =
      some { t with world := w, thread := underWay (f a) } := by
  induction p generalizing t with
  | pure a =>
    cases heval
    refine ⟨0, ?_⟩
    cases t
    cases hthread
    rfl
  | raise e => cases heval
  | perform o k ih =>
    let t₁ : Tally := { t with
      world := (machine.exec o t.world).2
      thread := underWay ((k (machine.exec o t.world).1).bind f) }
    have hstep : redispatchStep cfg t (.turn .none) = some t₁ := by
      have hreclaimed : t.reclaimed o .none = none := by simp [Tally.reclaimed, hp.1.1]
      have hthread : t.thread = some (.perform o fun r => (k r).bind f) := hthread
      simp only [redispatchStep, hthread, Tally.perform, hreclaimed, howed, t₁, reduceCtorEq,
        if_false, Nat.add_zero]
      congr 2
      simp
    obtain ⟨n, hn⟩ := ih _ (hp.2 _) (t := t₁) howed rfl heval
    exact ⟨n + 1, by rw [List.replicate_succ, steps, hstep]; exact hn⟩

/-- `_watchdog_target_is_current` finds the attempt of the row at work. -/
theorem watchdogTargetIsCurrent_eval {x : LateWorker} {w : World} {task : TaskRecord}
    {identity : WorkerIdentity}
    (hactive : (w.store.runControl x.runKey).any (·.state == .active) = true)
    (htask : w.hermes.task x.managed.board x.managed.cardId = some task)
    (hrunning : task.status = .running)
    (hrow : w.store.cardRuntime (x.managed.board, x.managed.cardId) = some x.row)
    (hidentity : workerIdentity x.managed.board x.managed.cardId (some x.row) task = some identity) :
    machine.eval (watchdogTargetIsCurrent x) w = (.returned true, w) := by
  have hread : machine.eval (hermes (.task x.managed.board x.managed.cardId)) w =
      (.returned (some task), w) := by
    rw [hermes, machine.eval_op]
    simp only [machine, Op.exec, HermesOp.exec, htask]
  have hstored : machine.eval (store (.cardRuntime x.managed.board x.managed.cardId)) w =
      (.returned (some x.row), w) := by
    rw [store, machine.eval_op]
    simp only [machine, Op.exec, StoreOp.exec, hrow]
  refine (machine.eval_bind_of (a := w.store.runControl x.runKey) rfl).trans ?_
  rw [hactive]
  refine (machine.eval_bind_of hread).trans ?_
  dsimp only
  rw [if_neg (by simp [hrunning])]
  refine (machine.eval_bind_of hstored).trans ?_
  simp [hidentity, sameAttempt, Prog.pure_def]

/-- Hermes takes the card from attempt 3 and gives it to attempt 4 before the recovery reads the
task again: the reclaim is carried out, and never counted. -/
theorem claimedAtOnce_uncounted : ¬ ∀ ms, Along (redispatchStep sampleConfig)
    (fun _ _ t' => t'.Counted ∧ t'.WithinBudget sampleConfig)
      { world := { gitlab := downGitLab } } ms := by
  intro h
  have p := passing_quiet
  obtain ⟨t₁, ht₁, hfacts⟩ : ∃ t, steps (redispatchStep sampleConfig)
      { world := { gitlab := downGitLab } } lateCommits = some t ∧
      (t.thread.isNone, t.owed, t.world.store.cardRuntime ("app", ⟨5⟩),
        (t.world.store.runControl "run-a").any (·.state == .active),
        (t.world.store.deliveryBinding "run-a").isNone) = (true, none, some lateRow, true, true) :=
    Option.map_eq_some_iff.mp (by decide +kernel)
  simp only [Prod.mk.injEq, Option.isNone_iff_eq_none] at hfacts
  obtain ⟨hidle, howed, hrow, hactive, hbinding⟩ := hfacts
  -- the recovery begins
  let w : World := { t₁.world with
    hermes := boardOf (writerTask 3 40), gitlab := downGitLab, host := lateWorkspace, now := 9020 }
  let t₂ : Tally := { t₁ with world := w }
  let t₃ : Tally := { t₂ with thread := underWay (lateRecovery.program sampleConfig) }
  have h₂ : redispatchStep sampleConfig t₁
      (.drift (boardOf (writerTask 3 40)) downGitLab lateWorkspace 9020) = some t₂ := rfl
  have h₃ : redispatchStep sampleConfig t₂ (.recover lateRecovery) = some t₃ := by
    refine if_pos ⟨by rw [show t₂.thread = t₁.thread from rfl, hidle]; rfl, ?_⟩
    rw [show t₂.world.store = t₁.world.store from rfl, show lateRecovery.key = ("app", ⟨5⟩) from rfl,
      hrow]
    rfl
  have hcurrent : machine.eval (watchdogTargetIsCurrent lateRecovery.worker) w =
      (.returned true, w) :=
    watchdogTargetIsCurrent_eval hactive rfl rfl hrow lateRow_identity
  have hmr : machine.eval (boundDeliveryMr .watchdogAfter lateRecovery.run) w =
      (.returned none, w) := by
    have hread : machine.eval (store (.deliveryBinding "run-a")) w = (.returned none, w) := by
      rw [store, machine.eval_op]
      simp only [machine, Op.exec, StoreOp.exec]
      rw [show w.store.deliveryBinding "run-a" = none from hbinding]
    exact machine.eval_bind_of hread
  have hgo : ∀ {α : Type} {q : Service α} {f : α → Service Unit} {a : α}, q.Uses Op.Quiet →
      machine.eval q w = (.returned a, w) → Reaches (redispatchStep sampleConfig)
        { t₂ with thread := underWay (q.bind f) } { t₂ with thread := underWay (f a) } :=
    fun hq heval => by
      obtain ⟨n, hn⟩ := turns_quiet sampleConfig hq (t := { t₂ with thread := underWay _ }) howed rfl
        heval
      exact ⟨_, hn⟩
  have hreach : Reaches (redispatchStep sampleConfig) t₃ { t₂ with
      thread := underWay (redispatchWorker sampleConfig lateRecovery.run writeCard lateRow
        lateRecovery.identity) } := by
    refine (hgo (p.watchdogTargetIsCurrent _) hcurrent).trans ?_
    refine (hgo (p.host (.exitConfirmed _)) rfl).trans ?_
    refine (hgo (p.watchdogTargetIsCurrent _) hcurrent).trans ?_
    refine (hgo (p.host (.workspace _)) rfl).trans ?_
    exact (hgo (p.reading.boundDeliveryMr _ _) hmr).trans (.refl _ _)
  -- the reclaim, the next claim, and the second read
  obtain ⟨t', ht', howed', hreclaims, hstore⟩ : ∃ t', steps (redispatchStep sampleConfig)
      { t₂ with thread := underWay (redispatchWorker sampleConfig lateRecovery.run writeCard
        lateRow lateRecovery.identity) }
      [.turn .none, .turn .none, .drift (boardOf (writerTask 4 41)) downGitLab lateWorkspace 9021,
        .turn .none] = some t' ∧ t'.owed = none ∧
      t'.reclaims ("app", ⟨5⟩) = t₁.reclaims ("app", ⟨5⟩) + 1 ∧
      t'.world.store = t₁.world.store := ⟨_, rfl, rfl, rfl, rfl⟩
  obtain ⟨ms, hms⟩ := (Reaches.trans ⟨_, ht₁⟩ ((Reaches.single h₂).trans (.single h₃))).trans
    (hreach.trans ⟨_, ht'⟩)
  have hstart := start_balanced sampleConfig.workerRedispatchLimit { gitlab := downGitLab }
  obtain ⟨hcounted, -⟩ := (h ms).final (P := fun t => t.Counted ∧ t.WithinBudget sampleConfig)
    ⟨hstart.counted, hstart.within⟩ hms
  have hrecorded := hcounted howed' ("app", ⟨5⟩)
  rw [hstore, hreclaims, Store.redispatches, hrow] at hrecorded
  cases hrecorded

end HollysysController
