import HollysysController.Traversal

/-! # Attempt identity under poll lag

Reconcile reads a completion from the board at once, but learns of a new
attempt only when the poll has recorded its start. `AttemptStep` interleaves
the two: Hermes appends events, the poll records them in order, and the other
writers of the Controller touch the row. Which session a row records then
depends on the polled part of the log alone. -/

namespace HollysysController

open Durable

/-! ## Sessions -/

/-- The session that the events of a Hermes run are recorded under. -/
def sessionOf (runId : Nat) : String := s!"kanban-run:{runId}"

theorem repr_inj {a b : Nat} (h : a.repr = b.repr) : a = b := by
  have hd := congrArg String.toList h
  rw [Nat.toList_repr, Nat.toList_repr] at hd
  rw [← Nat.ofDigitChars_ten_toDigits (n := a), hd, Nat.ofDigitChars_ten_toDigits]

theorem sessionOf_inj {a b : Nat} (h : sessionOf a = sessionOf b) : a = b :=
  repr_inj (by simpa [sessionOf, toString] using h)

theorem truthy_sessionOf (runId : Nat) : truthy (some (sessionOf runId)) = true := by
  simp only [truthy, Option.any_some, bne_iff_ne, ne_eq]
  intro h
  have := congrArg String.length h
  simp [sessionOf, toString] at this

/-! ## The log of a card -/

def EventRecord.starts (e : EventRecord) : Bool := startedKinds.contains e.kind

/-- The attempts that the log has started, in their order. -/
def startedRuns (log : List EventRecord) : List Nat :=
  log.filterMap fun e => if e.starts then e.runId else none

/-- The latest attempt of the log. -/
def latestRun (log : List EventRecord) : Option Nat := (startedRuns log).getLast?

/-- What Hermes guarantees of an event it appends to the log of a card: it names
its attempt by the run id, time does not go back, a start is about a new attempt
or about the latest one, and any other event is about an attempt that was started. -/
structure Appendable (log : List EventRecord) (e : EventRecord) : Prop where
  byRun : ∀ p, e.payload = some p → p.workerSessionId = none
  ordered : ∀ d ∈ log, d.createdAt ≤ e.createdAt
  start : e.starts = true → ∃ r, e.runId = some r ∧ (latestRun log = some r ∨ r ∉ startedRuns log)
  known : e.starts = false → ∀ r, e.runId = some r → r ∈ startedRuns log

theorem Appendable.session {log : List EventRecord} {e : EventRecord} (h : Appendable log e) :
    eventSession e = e.runId.map sessionOf := by
  have hp : e.payload.bind (·.workerSessionId) = none := by
    cases hpay : e.payload with
    | none => rfl
    | some p => exact h.byRun p hpay
  simp only [eventSession, hp, Option.filter_none]
  rfl

theorem startedRuns_append (log : List EventRecord) (e : EventRecord) :
    startedRuns (log ++ [e]) = startedRuns log ++ (if e.starts then e.runId else none).toList := by
  simp only [startedRuns, List.filterMap_append]
  cases h : (if e.starts = true then e.runId else none) <;> simp [h]

theorem latestRun_append_start {log : List EventRecord} {e : EventRecord} {r : Nat}
    (hs : e.starts = true) (hr : e.runId = some r) : latestRun (log ++ [e]) = some r := by
  simp [latestRun, startedRuns_append, hs, hr]

theorem latestRun_append_other {log : List EventRecord} {e : EventRecord}
    (hs : e.starts = false) : latestRun (log ++ [e]) = latestRun log := by
  simp [latestRun, startedRuns_append, hs]

/-- A log with a started attempt has a latest one. -/
theorem latestRun_isSome {log : List EventRecord} {r : Nat} (h : r ∈ startedRuns log) :
    ∃ r', latestRun log = some r' := by
  rcases hl : latestRun log with _ | r'
  · rw [latestRun, List.getLast?_eq_none_iff] at hl
    rw [hl] at h
    cases h
  · exact ⟨r', rfl⟩

/-! ## The interleaving -/

/-- The log of a card, how many of its events the poll has recorded, and the store. -/
structure AttemptState where
  log : List EventRecord
  polled : Nat
  store : Store

/-- The session and the start time that a row records. -/
def rowIdentity (managed : ManagedCard) (s : Store) : Option String × Option Nat :=
  let row := s.cardRuntime (managed.board, managed.cardId)
  (row.bind (·.workerSessionId), row.bind (·.workerStartedAt))

/-- One step of Hermes, of the poll, or of another writer of the Controller. -/
inductive AttemptStep (cfg : Config) (managed : ManagedCard) : AttemptState → AttemptState → Prop
  | append {a : AttemptState} {e : EventRecord} :
      Appendable a.log e → AttemptStep cfg managed a { a with log := a.log ++ [e] }
  | poll {a : AttemptState} {e : EventRecord} {s' : Store} :
      a.log[a.polled]? = some e →
      recordCardRuntimeEvent (lifecycleEvent cfg managed e) a.store = .ok ((), s') →
      AttemptStep cfg managed a { a with polled := a.polled + 1, store := s' }
  /-- The poll stopped between the record and the cursor, and records again. -/
  | again {a : AttemptState} {e : EventRecord} {s' : Store} {n : Nat} :
      a.polled = n + 1 → a.log[n]? = some e →
      recordCardRuntimeEvent (lifecycleEvent cfg managed e) a.store = .ok ((), s') →
      AttemptStep cfg managed a { a with store := s' }
  /-- The Controller records the end of an attempt itself. -/
  | attempt {a : AttemptState} {e : RuntimeEvent} {s' : Store} {r : Nat} :
      e.key = (managed.board, managed.cardId) → e.started = false →
      e.workerSessionId = some (sessionOf r) → r ∈ startedRuns (a.log.take a.polled) →
      recordCardRuntimeEvent e a.store = .ok ((), s') →
      AttemptStep cfg managed a { a with store := s' }
  /-- Registration, acceptance and watchdog leave the attempt of the row alone. -/
  | other {a : AttemptState} {s' : Store} :
      rowIdentity managed s' = rowIdentity managed a.store →
      AttemptStep cfg managed a { a with store := s' }

/-- Every store operation but the record of an event is a step of the `other` kind. -/
theorem rowIdentity_exec {managed : ManagedCard} {o : StoreOp} (now : Nat) (s : Store)
    (ho : ∀ e, o ≠ .recordCardRuntimeEvent e) :
    rowIdentity managed (o.exec now s).2 = rowIdentity managed s := by
  by_cases hc : Column.runtime ∈ o.writes
  · cases o <;> simp only [StoreOp.writes, List.mem_cons, List.not_mem_nil, reduceCtorEq,
      or_self, or_false, false_or] at hc
    case recordCardRuntimeEvent e => exact absurd rfl (ho e)
    case registerCardAttempt r =>
      simp only [StoreOp.exec, Txn.commit, HollysysController.registerCardAttempt, rowIdentity,
        Table.put_apply]
      split
      · rename_i h
        rw [h]
        cases s.cardRuntime (r.board, r.cardId) <;> simp
      · rfl
    case recordAttemptCompletion c =>
      simp only [StoreOp.exec, Txn.commit, HollysysController.recordAttemptCompletion, rowIdentity,
        Table.modify_apply]
      split
      · rename_i h
        rw [h]
        cases s.cardRuntime (c.board, c.cardId) <;> simp [AttemptCompletion.apply]
      · rfl
    case updateWorkerWatchdog u =>
      simp only [StoreOp.exec, HollysysController.updateWorkerWatchdog, rowIdentity]
      split <;> simp only [Table.modify_apply] <;> split
      · rename_i h
        rw [h]
        cases s.cardRuntime (u.board, u.cardId) <;> simp
      · rfl
      · rename_i h
        rw [h]
        cases s.cardRuntime (u.board, u.cardId) <;> simp
      · rfl
  · have hget : (o.exec now s).2.cardRuntime = s.cardRuntime := o.exec_get (c := .runtime) now s hc
    simp only [rowIdentity, hget]

/-- What every interleaving keeps: the row records the latest attempt of the
polled part of the log, and started no later than some polled event. -/
structure AttemptsTracked (managed : ManagedCard) (a : AttemptState) : Prop where
  log : ∀ n e, a.log[n]? = some e → Appendable (a.log.take n) e
  session : (rowIdentity managed a.store).1 = (latestRun (a.log.take a.polled)).map sessionOf
  start : ∀ t, (rowIdentity managed a.store).2 = some t →
    ∃ d ∈ a.log.take a.polled, t ≤ d.createdAt

/-! ## One recorded event -/

section Recorded

variable {managed : ManagedCard} {e : RuntimeEvent} {s s' : Store}

/-- The attempt of the row after an event of its card. -/
theorem record_identity (hk : e.key = (managed.board, managed.cardId))
    (h : recordCardRuntimeEvent e s = .ok ((), s')) :
    rowIdentity managed s' = rowIdentity managed s ∨
      (e.written (s.cardRuntime e.key) = true ∧
        (rowIdentity managed s').1 = (e.workerSessionId <|> (rowIdentity managed s).1) ∧
        ((rowIdentity managed s').2 = (rowIdentity managed s).2 ∨
          (e.started = true ∧ (rowIdentity managed s').2 = some e.createdAt))) := by
  have hrow := recordCardRuntimeEvent_row h
  rw [hk] at hrow
  cases hw : e.written (s.cardRuntime e.key) with
  | false =>
    left
    rw [hk] at hw
    simp [rowIdentity, hrow, hw]
  | true =>
    right
    rw [hk] at hw
    refine ⟨rfl, ?_, ?_⟩
    · simp only [rowIdentity, hrow, hw, if_true, Table.put_self, Option.bind_some,
        RuntimeEvent.runtimeRow]
      cases s.cardRuntime (managed.board, managed.cardId) <;> simp
    · simp only [rowIdentity, hrow, hw, if_true, Table.put_self, Option.bind_some,
        RuntimeEvent.runtimeRow, RuntimeEvent.timeIf]
      cases hs : e.started with
      | true =>
        cases s.cardRuntime (managed.board, managed.cardId) with
        | none => simp
        | some row =>
          cases e.newAttempt (some row) <;> cases hrs : row.workerStartedAt <;> simp [hrs]
      | false =>
        have hn : ∀ p, e.newAttempt p = false := by
          intro p
          simp [RuntimeEvent.newAttempt, RuntimeEvent.newSession, hs]
        cases s.cardRuntime (managed.board, managed.cardId) <;> simp [hn]

/-- An event without a session, or of the session the row records, keeps it. -/
theorem record_same_session (hk : e.key = (managed.board, managed.cardId))
    (h : recordCardRuntimeEvent e s = .ok ((), s'))
    (hs : e.workerSessionId = none ∨ e.workerSessionId = (rowIdentity managed s).1) :
    (rowIdentity managed s').1 = (rowIdentity managed s).1 := by
  rcases record_identity hk h with heq | ⟨-, hsession, -⟩
  · rw [heq]
  · rw [hsession]
    rcases hs with hs | hs
    · simp [hs]
    · rw [hs]
      cases (rowIdentity managed s).1 <;> rfl

/-- A late event of an older attempt does not reach the row. -/
theorem record_old_session {r r' : Nat} (hk : e.key = (managed.board, managed.cardId))
    (h : recordCardRuntimeEvent e s = .ok ((), s')) (hstart : e.started = false)
    (hs : e.workerSessionId = some (sessionOf r))
    (hrow : (rowIdentity managed s).1 = some (sessionOf r')) (hne : r ≠ r') :
    rowIdentity managed s' = rowIdentity managed s := by
  rcases record_identity hk h with heq | ⟨hw, -, -⟩
  · exact heq
  · exfalso
    have hold : e.fromOldSession (s.cardRuntime e.key) = true := by
      rw [hk]
      obtain ⟨row, hr, hses⟩ := Option.bind_eq_some_iff.mp hrow
      have hne' : some (sessionOf r) ≠ some (sessionOf r') := fun h =>
        hne (sessionOf_inj (Option.some.inj h))
      simp [RuntimeEvent.fromOldSession, hstart, hr, hses, hs, truthy_sessionOf,
        Option.some_inj.not.mp hne']
    simp [RuntimeEvent.written, hold] at hw

/-- The start of a new attempt always reaches the row, unless the row started later. -/
theorem record_new_session {r : Nat} (hk : e.key = (managed.board, managed.cardId))
    (h : recordCardRuntimeEvent e s = .ok ((), s')) (hstart : e.started = true)
    (hs : e.workerSessionId = some (sessionOf r))
    (hrow : (rowIdentity managed s).1 ≠ some (sessionOf r))
    (ht : ∀ t, (rowIdentity managed s).2 = some t → t ≤ e.createdAt) :
    (rowIdentity managed s').1 = some (sessionOf r) := by
  have hw : e.written (s.cardRuntime e.key) = true := by
    rw [hk]
    cases hr : s.cardRuntime (managed.board, managed.cardId) with
    | none =>
      simp [RuntimeEvent.written, RuntimeEvent.preservesFinished, RuntimeEvent.fromOldSession,
        RuntimeEvent.replayedStart]
    | some row =>
      have hses : row.workerSessionId ≠ some (sessionOf r) := by
        intro hrs
        exact hrow (by simp [rowIdentity, hr, hrs])
      have hnew : e.newSession (some row) = true := by
        simp [RuntimeEvent.newSession, hstart, hs, truthy_sessionOf, hses.symm]
      have htime : ∀ t, row.workerStartedAt = some t → t ≤ e.createdAt := fun t hrt =>
        ht t (by simp [rowIdentity, hr, hrt])
      have hreplay : e.replayedStart (some row) = false := by
        cases hrt : row.workerStartedAt with
        | none => simp [RuntimeEvent.replayedStart, hrt]
        | some t => simp [RuntimeEvent.replayedStart, hrt, htime t hrt]
      simp [RuntimeEvent.written, RuntimeEvent.preservesFinished, RuntimeEvent.fromOldSession,
        hnew, hstart, hreplay]
  rcases record_identity hk h with heq | ⟨-, hsession, -⟩
  · have hrow' := recordCardRuntimeEvent_row h
    rw [hw, if_pos rfl, hk] at hrow'
    simp [rowIdentity, hrow', RuntimeEvent.runtimeRow, hs]
  · simp [hsession, hs]

end Recorded

/-! ## One step -/

section Step

variable {cfg : Config} {managed : ManagedCard} {a b : AttemptState}

theorem lifecycle_started (e : EventRecord) :
    (lifecycleEvent cfg managed e).started = e.starts := rfl

theorem lifecycle_session {log : List EventRecord} {e : EventRecord} (h : Appendable log e) :
    (lifecycleEvent cfg managed e).workerSessionId = e.runId.map sessionOf := h.session

/-- The start time of a row is that of a polled event, also after `e`. -/
theorem tracked_start {e : RuntimeEvent} {s s' : Store} {events : List EventRecord}
    (hk : e.key = (managed.board, managed.cardId))
    (h : recordCardRuntimeEvent e s = .ok ((), s'))
    (hold : ∀ t, (rowIdentity managed s).2 = some t → ∃ d ∈ events, t ≤ d.createdAt)
    (hnew : e.started = true → ∃ d ∈ events, e.createdAt ≤ d.createdAt) :
    ∀ t, (rowIdentity managed s').2 = some t → ∃ d ∈ events, t ≤ d.createdAt := by
  intro t ht
  rcases record_identity hk h with heq | ⟨-, -, heq | ⟨hs, heq⟩⟩
  · exact hold t (heq ▸ ht)
  · exact hold t (heq ▸ ht)
  · rw [heq] at ht
    cases ht
    exact hnew hs

/-- The record of an event that is no start, about a started attempt. -/
theorem record_known {e : RuntimeEvent} {s s' : Store} {events : List EventRecord} {r : Nat}
    (hk : e.key = (managed.board, managed.cardId))
    (h : recordCardRuntimeEvent e s = .ok ((), s')) (hs : e.started = false)
    (hsession : e.workerSessionId = some (sessionOf r)) (hr : r ∈ startedRuns events)
    (hrow : (rowIdentity managed s).1 = (latestRun events).map sessionOf) :
    (rowIdentity managed s').1 = (latestRun events).map sessionOf := by
  obtain ⟨r', hr'⟩ := latestRun_isSome hr
  rw [hr'] at hrow ⊢
  by_cases hne : r = r'
  · subst hne
    rw [record_same_session hk h (.inr (hsession.trans hrow.symm)), hrow]
  · rw [record_old_session hk h hs hsession hrow hne, hrow]

/-- Recording the next event of the log, or the last recorded one again. -/
theorem record_polled {e : EventRecord} {s s' : Store} {events : List EventRecord}
    (he : Appendable events e)
    (h : recordCardRuntimeEvent (lifecycleEvent cfg managed e) s = .ok ((), s'))
    (hrow : (rowIdentity managed s).1 = (latestRun events).map sessionOf)
    (hstart : ∀ t, (rowIdentity managed s).2 = some t → ∃ d ∈ events, t ≤ d.createdAt) :
    (rowIdentity managed s').1 = (latestRun (events ++ [e])).map sessionOf := by
  have hk : (lifecycleEvent cfg managed e).key = (managed.board, managed.cardId) := rfl
  cases hs : e.starts with
  | true =>
    obtain ⟨r, hr, hlatest⟩ := he.start hs
    rw [latestRun_append_start hs hr, Option.map_some]
    have hsession : (lifecycleEvent cfg managed e).workerSessionId = some (sessionOf r) := by
      rw [lifecycle_session he, hr, Option.map_some]
    by_cases hsame : (rowIdentity managed s).1 = some (sessionOf r)
    · rw [record_same_session hk h (.inr (hsession.trans hsame.symm)), hsame]
    · refine record_new_session hk h (lifecycle_started e ▸ hs) hsession hsame fun t ht => ?_
      obtain ⟨d, hd, htd⟩ := hstart t ht
      exact htd.trans (he.ordered d hd)
  | false =>
    rw [latestRun_append_other hs]
    cases hr : e.runId with
    | none =>
      have hsession : (lifecycleEvent cfg managed e).workerSessionId = none := by
        rw [lifecycle_session he, hr, Option.map_none]
      rw [record_same_session hk h (.inl hsession), hrow]
    | some r =>
      have hsession : (lifecycleEvent cfg managed e).workerSessionId = some (sessionOf r) := by
        rw [lifecycle_session he, hr, Option.map_some]
      exact record_known hk h (lifecycle_started e ▸ hs) hsession (he.known hs r hr) hrow

theorem take_polled_succ {e : EventRecord} {n : Nat} (h : a.log[n]? = some e) :
    a.log.take (n + 1) = a.log.take n ++ [e] := by
  rw [List.take_add_one, h]
  rfl

/-- A second record of the last polled event. -/
theorem record_again {e : EventRecord} {s s' : Store} {events : List EventRecord}
    (he : Appendable events e)
    (h : recordCardRuntimeEvent (lifecycleEvent cfg managed e) s = .ok ((), s'))
    (hrow : (rowIdentity managed s).1 = (latestRun (events ++ [e])).map sessionOf) :
    (rowIdentity managed s').1 = (latestRun (events ++ [e])).map sessionOf := by
  have hk : (lifecycleEvent cfg managed e).key = (managed.board, managed.cardId) := rfl
  cases hs : e.starts with
  | true =>
    obtain ⟨r, hr, -⟩ := he.start hs
    have hsession : (lifecycleEvent cfg managed e).workerSessionId = some (sessionOf r) := by
      rw [lifecycle_session he, hr, Option.map_some]
    rw [latestRun_append_start hs hr] at hrow ⊢
    rw [record_same_session hk h (.inr (hsession.trans hrow.symm)), hrow]
  | false =>
    rw [latestRun_append_other hs] at hrow ⊢
    cases hr : e.runId with
    | none =>
      have hsession : (lifecycleEvent cfg managed e).workerSessionId = none := by
        rw [lifecycle_session he, hr, Option.map_none]
      rw [record_same_session hk h (.inl hsession), hrow]
    | some r =>
      have hsession : (lifecycleEvent cfg managed e).workerSessionId = some (sessionOf r) := by
        rw [lifecycle_session he, hr, Option.map_some]
      exact record_known hk h (lifecycle_started e ▸ hs) hsession (he.known hs r hr) hrow

theorem AttemptsTracked.step (ha : AttemptsTracked managed a)
    (h : AttemptStep cfg managed a b) (hb : a.polled ≤ a.log.length) :
    AttemptsTracked managed b ∧ b.polled ≤ b.log.length := by
  cases h with
  | @append e he =>
    have htake : (a.log ++ [e]).take a.polled = a.log.take a.polled :=
      List.take_append_of_le_length hb
    refine ⟨⟨fun n d hd => ?_, by simpa [htake] using ha.session, by simpa [htake] using ha.start⟩,
      by simp; omega⟩
    dsimp only at hd ⊢
    rcases lt_or_ge n a.log.length with hn | hn
    · rw [List.getElem?_append_left hn] at hd
      rw [List.take_append_of_le_length hn.le]
      exact ha.log n d hd
    · rw [List.getElem?_append_right hn] at hd
      obtain rfl : n = a.log.length := by
        by_contra hne
        rw [List.getElem?_eq_none (by simp; omega)] at hd
        cases hd
      simp only [Nat.sub_self, List.getElem?_cons_zero, Option.some.injEq] at hd
      subst hd
      simpa using he
  | @poll e s' he hs =>
    have hlog := ha.log _ _ he
    have hlt : a.polled < a.log.length := by
      by_contra hge
      rw [List.getElem?_eq_none (by omega)] at he
      cases he
    refine ⟨⟨ha.log, ?_, ?_⟩, hlt⟩
    · rw [take_polled_succ he]
      exact record_polled hlog hs ha.session ha.start
    · rw [take_polled_succ he]
      refine tracked_start (e := lifecycleEvent cfg managed e) rfl hs (fun t ht => ?_)
        fun _ => ⟨e, by simp, le_refl _⟩
      obtain ⟨d, hd, htd⟩ := ha.start t ht
      exact ⟨d, List.mem_append_left _ hd, htd⟩
  | @again e s' n hn he hs =>
    have hlog := ha.log _ _ he
    refine ⟨⟨ha.log, ?_, ?_⟩, hb⟩
    · have hsession := ha.session
      rw [hn, take_polled_succ he] at hsession
      dsimp only
      rw [hn, take_polled_succ he]
      exact record_again hlog hs hsession
    · dsimp only
      refine tracked_start (e := lifecycleEvent cfg managed e) rfl hs ha.start fun _ =>
        ⟨e, ?_, le_refl _⟩
      rw [hn, take_polled_succ he]
      simp
  | @attempt e s' r hk hstart hsession hr hs =>
    refine ⟨⟨ha.log, record_known hk hs hstart hsession hr ha.session, ?_⟩, hb⟩
    exact tracked_start hk hs ha.start fun h => by rw [hstart] at h; cases h
  | other hs =>
    refine ⟨⟨ha.log, ?_, ?_⟩, hb⟩
    · dsimp only
      rw [hs]
      exact ha.session
    · dsimp only
      rw [hs]
      exact ha.start

end Step

/-- A card whose log is empty and whose row records no attempt. -/
structure FreshAttempts (managed : ManagedCard) (a : AttemptState) : Prop where
  log : a.log = []
  polled : a.polled = 0
  row : rowIdentity managed a.store = (none, none)

/-- The row of a card records the latest attempt the poll has seen, in every
interleaving. -/
theorem attempts_tracked {cfg : Config} {managed : ManagedCard} {a₀ a : AttemptState}
    (h₀ : FreshAttempts managed a₀)
    (h : Relation.ReflTransGen (AttemptStep cfg managed) a₀ a) : AttemptsTracked managed a := by
  have hinv : AttemptsTracked managed a ∧ a.polled ≤ a.log.length := by
    induction h with
    | refl =>
      refine ⟨⟨fun n e he => ?_, ?_, ?_⟩, by simp [h₀.polled]⟩
      · simp [h₀.log] at he
      · simp [h₀.log, h₀.row, latestRun, startedRuns]
      · simp [h₀.row]
    | tail _ hstep ih => exact ih.1.step hstep ih.2
  exact hinv.1

/-! ## The completion of an attempt -/

/-- The completion names the latest attempt of the log. -/
def AnswersLatest (a : AttemptState) (i : HistoryItem) : Prop :=
  ∃ r, latestRun a.log = some r ∧
    completedSession i.task.latestMetadata = some (.text (sessionOf r))

/-- `_validate_worker_attempt` accepts the completion, and changes nothing. -/
def AcceptsAttempt (i : HistoryItem) (w : World) : Prop :=
  machine.eval (validateWorkerAttempt i) w = (.returned (), w)

/-- What the identity check needs: the latest attempt was polled, or no attempt
was and the completion is of the latest, or an older attempt was and the
completion is of neither of the two. -/
def AttemptSettled (a : AttemptState) (i : HistoryItem) : Prop :=
  match latestRun (a.log.take a.polled) with
  | none => AnswersLatest a i
  | some r => latestRun a.log = some r ∨
      (completedSession i.task.latestMetadata ≠ some (.text (sessionOf r)) ∧ ¬ AnswersLatest a i)

/-- The check reads the row and nothing else. -/
theorem acceptsAttempt_iff (i : HistoryItem) (w : World) :
    AcceptsAttempt i w ↔
      attemptMatches (w.store.cardRuntime (i.managed.board, i.managed.cardId))
        (completedSession i.task.latestMetadata) = true := by
  unfold AcceptsAttempt validateWorkerAttempt
  rw [Prog.bind_def, Machine.eval_bind, eval_store]
  simp only [StoreOp.exec]
  split <;> rename_i hm <;> simp [hm, raise]

theorem attemptMatches_identity {managed : ManagedCard} {s : Store}
    (session : Option SessionField) :
    attemptMatches (s.cardRuntime (managed.board, managed.cardId)) session =
      (!truthy (rowIdentity managed s).1 ||
        session == (rowIdentity managed s).1.map .text) := by
  simp only [attemptMatches, rowIdentity]
  cases s.cardRuntime (managed.board, managed.cardId) <;> simp [truthy]

/-- **The identity check is exact when the poll keeps up.** In every interleaving
a completion is accepted if and only if it answers the latest attempt, exactly
when its attempt is settled. -/
theorem acceptsAttempt_iff_settled {cfg : Config} {managed : ManagedCard} {a₀ a : AttemptState}
    (h₀ : FreshAttempts managed a₀) (h : Relation.ReflTransGen (AttemptStep cfg managed) a₀ a)
    {i : HistoryItem} (hi : i.managed = managed) {w : World} (hw : w.store = a.store) :
    (AcceptsAttempt i w ↔ AnswersLatest a i) ↔ AttemptSettled a i := by
  have hrow := (attempts_tracked h₀ h).session
  rw [acceptsAttempt_iff, hi, hw, attemptMatches_identity, hrow, AttemptSettled]
  cases hp : latestRun (a.log.take a.polled) with
  | none => simp [truthy]
  | some r =>
    simp only [Option.map_some, truthy_sessionOf, Bool.not_true, Bool.false_or, beq_iff_eq]
    constructor
    · intro hiff
      by_cases hacc : completedSession i.task.latestMetadata = some (.text (sessionOf r))
      · left
        obtain ⟨r', hr', hs⟩ := hiff.mp hacc
        rw [hacc, Option.some.injEq, SessionField.text.injEq] at hs
        rw [hr', sessionOf_inj hs]
      · exact .inr ⟨hacc, fun hl => hacc (hiff.mpr hl)⟩
    · rintro (hl | ⟨hacc, hans⟩)
      · constructor
        · exact fun hacc => ⟨r, hl, hacc⟩
        · rintro ⟨r', hr', hs⟩
          rw [hl, Option.some.injEq] at hr'
          rw [hs, hr']
      · exact iff_of_false hacc hans

/-! ## A redispatched attempt the poll has not seen -/

/-- An event of the log of card 5. -/
def attemptEvent (id runId : Nat) (kind : String) : EventRecord where
  id
  board := "app"
  taskId := ⟨5⟩
  runId := some runId
  kind
  createdAt := 10 * id

/-- Attempt 3 was reclaimed and attempt 4 is the latest. The poll has read the
claim of attempt 3. -/
def laggingAttempts : AttemptState where
  log := [attemptEvent 1 3 "claimed", attemptEvent 2 3 "reclaimed", attemptEvent 3 4 "claimed"]
  polled := 1
  store := ((recordCardRuntimeEvent (lifecycleEvent sampleConfig (sampleCard 5 4 .implement)
      (attemptEvent 1 3 "claimed"))).commit
    { runs := [sampleRun "run-a" "ga" 1], managedCards := [sampleCard 5 4 .implement] }).2

/-- Card 5 before its first attempt. -/
def freshAttempts : AttemptState where
  log := []
  polled := 0
  store := { runs := [sampleRun "run-a" "ga" 1], managedCards := [sampleCard 5 4 .implement] }

theorem freshAttempts_fresh : FreshAttempts (sampleCard 5 4 .implement) freshAttempts :=
  ⟨rfl, rfl, rfl⟩

theorem laggingAttempts_reached :
    Relation.ReflTransGen (AttemptStep sampleConfig (sampleCard 5 4 .implement)) freshAttempts
      laggingAttempts := by
  have hpoll : recordCardRuntimeEvent (lifecycleEvent sampleConfig (sampleCard 5 4 .implement)
      (attemptEvent 1 3 "claimed")) freshAttempts.store = .ok ((), laggingAttempts.store) := by
    unfold laggingAttempts freshAttempts Txn.commit
    rfl
  have h₁ : Appendable [] (attemptEvent 1 3 "claimed") :=
    ⟨fun p hp => (by cases hp), by simp, fun _ => ⟨3, rfl, .inr (by decide)⟩, by decide⟩
  have h₂ : Appendable [attemptEvent 1 3 "claimed"] (attemptEvent 2 3 "reclaimed") :=
    ⟨fun p hp => (by cases hp), by decide, fun h => absurd h (by decide),
      fun _ r hr => by cases hr; decide⟩
  have h₃ : Appendable [attemptEvent 1 3 "claimed", attemptEvent 2 3 "reclaimed"]
      (attemptEvent 3 4 "claimed") :=
    ⟨fun p hp => (by cases hp), by decide, fun _ => ⟨4, rfl, .inr (by decide)⟩, by decide⟩
  exact ((((Relation.ReflTransGen.refl.tail (.append h₁)).tail (.poll rfl hpoll)).tail
    (.append h₂)).tail (.append h₃))

/-- The completion that the worker of Hermes run `runId` wrote for card 5. -/
def attemptCompletion (runId : Nat) : HistoryItem where
  managed := sampleCard 5 4 .implement
  task :=
    { id := ⟨5⟩, body := .other "", assignee := some "coder", status := .done,
      createdBy := some "hollysys-controller", createdAt := 10, idempotencyKey := none,
      tenant := some "run-a", skills := [], currentRunId := none,
      latestMetadata := some
        { workerSessionId := some (.text (sessionOf runId)), payload := .error "" },
      latestOutcome := some "completed", parents := [⟨4⟩], comments := [], eventKinds := [],
      workerPid := none }

/-- The completion of the latest attempt is rejected, and the one of the reclaimed
attempt is accepted. -/
theorem laggingAttempts_misjudged :
    let w : World := { store := laggingAttempts.store, gitlab := downGitLab }
    Relation.ReflTransGen (AttemptStep sampleConfig (sampleCard 5 4 .implement)) freshAttempts
      laggingAttempts ∧
    (AnswersLatest laggingAttempts (attemptCompletion 4) ∧
      ¬ AcceptsAttempt (attemptCompletion 4) w) ∧
    (¬ AnswersLatest laggingAttempts (attemptCompletion 3) ∧
      AcceptsAttempt (attemptCompletion 3) w) := by
  refine ⟨laggingAttempts_reached, ⟨⟨4, by decide, rfl⟩, ?_⟩, ?_, ?_⟩
  · rw [acceptsAttempt_iff]
    decide +kernel
  · rintro ⟨r, hr, hs⟩
    obtain rfl : r = 4 := by simpa [show latestRun laggingAttempts.log = some 4 by decide] using hr.symm
    have := sessionOf_inj (SessionField.text.inj (Option.some.inj hs))
    cases this
  · rw [acceptsAttempt_iff]
    decide +kernel

/-- A completion of neither attempt is judged rightly in the same state. -/
theorem laggingAttempts_stranger :
    AcceptsAttempt (attemptCompletion 9) { store := laggingAttempts.store, gitlab := downGitLab } ↔
      AnswersLatest laggingAttempts (attemptCompletion 9) := by
  refine (acceptsAttempt_iff_settled freshAttempts_fresh laggingAttempts_reached rfl rfl).mpr ?_
  have hlatest : latestRun (laggingAttempts.log.take laggingAttempts.polled) = some 3 := by decide
  simp only [AttemptSettled, hlatest]
  refine .inr ⟨fun h => ?_, ?_⟩
  · have := sessionOf_inj (SessionField.text.inj (Option.some.inj h))
    cases this
  · rintro ⟨r, hr, hs⟩
    obtain rfl : r = 4 := by simpa [show latestRun laggingAttempts.log = some 4 by decide] using hr.symm
    have := sessionOf_inj (SessionField.text.inj (Option.some.inj hs))
    cases this

/-! ## The poll is made of steps -/

/-- The operations of the lifecycle record after its first one: of all events only
the `rate_limited` one of the quarantine is recorded. -/
def lifecycleOp (cfg : Config) (managed : ManagedCard) (event : EventRecord) : Op → Prop
  | .store (.recordCardRuntimeEvent e) =>
    ∃ r pid, event.runId = some r ∧ e = tempfailEvent cfg managed event.createdAt r pid
  | _ => True

section Lifecycle

variable {cfg : Config} {managed : ManagedCard} {event : EventRecord}

theorem lifecycleOp_plain :
    Plain (fun {α} (p : Service α) => p.Uses (lifecycleOp cfg managed event)) :=
  { closed_uses (lifecycleOp cfg managed event) with
    store := fun o ho => Prog.uses_op (by cases o <;> trivial)
    hermes := fun _ _ => Prog.uses_op trivial
    gitlab := fun _ => Prog.uses_op trivial
    host := fun _ => Prog.uses_op trivial }

/-- The others move Hermes and GitLab, not the store. -/
def storeAlone : Setting Op ControllerError World where
  others w w' := w'.store = w.store
  faults _ _ _ := True

/-- Whatever an operation of the lifecycle record does to the store is a step. -/
theorem lifecycle_step {a : AttemptState} {o : Op} {w : World}
    (ho : lifecycleOp cfg managed event o) (hw : a.store = w.store)
    (hr : ∀ r, event.runId = some r → r ∈ startedRuns (a.log.take a.polled)) :
    AttemptStep cfg managed a { a with store := (machine.exec o w).2.store } := by
  cases o with
  | store o =>
    rw [exec_store]
    by_cases he : ∃ e, o = .recordCardRuntimeEvent e
    · obtain ⟨e, rfl⟩ := he
      obtain ⟨r, pid, hrun, rfl⟩ := ho
      cases hc : ((recordCardRuntimeEvent
          (tempfailEvent cfg managed event.createdAt r pid)).commit w.store).1 with
      | ok u =>
        refine .attempt (e := tempfailEvent cfg managed event.createdAt r pid) rfl rfl rfl
          (hr r hrun) ?_
        rw [hw]
        exact commit_ok hc
      | error err =>
        refine .other ?_
        simp only [StoreOp.exec, commit_error hc, hw]
    · exact .other (by
        rw [hw]
        exact rowIdentity_exec _ _ fun e h => he ⟨e, h⟩)
  | hermes o => exact .other (by rw [hw]; rfl)
  | gitlab o => exact .other (by rw [hw]; rfl)
  | host o => exact .other (by rw [hw]; rfl)

/-- Every run of operations of the lifecycle record is made of steps. -/
theorem lifecycle_steps {α : Type} {p : Service α} {a : AttemptState} {w w' : World}
    {r : Durable.Outcome ControllerError α}
    (hp : p.Uses (lifecycleOp cfg managed event)) (hw : a.store = w.store)
    (hr : ∀ r, event.runId = some r → r ∈ startedRuns (a.log.take a.polled))
    (h : Runs machine storeAlone p w r w') :
    Relation.ReflTransGen (AttemptStep cfg managed) a { a with store := w'.store } := by
  refine h.sound (wp_invariant (I := fun w₁ => Relation.ReflTransGen (AttemptStep cfg managed) a
    { a with store := w₁.store }) ?_ ?_ hp ?_)
  · intro s s' hs ho
    rwa [show s'.store = s.store from ho]
  · intro o s ho hs
    exact hs.tail (lifecycle_step (a := { a with store := s.store }) ho rfl hr)
  · rw [← hw]

/-- The attempt of an event was started by the time the event is polled. -/
theorem Appendable.started {log : List EventRecord} {r : Nat} (h : Appendable log event)
    (hr : event.runId = some r) : r ∈ startedRuns (log ++ [event]) := by
  rw [startedRuns_append]
  cases hs : event.starts with
  | true => simp [hr]
  | false => exact List.mem_append_left _ (h.known hs r hr)

/-- The rest of `_record_agent_lifecycle_event` performs operations of the record. -/
theorem lifecycleRest_uses :
    (do
      match isTempfailExit event, eventPid event with
      | true, some pid => recordProviderTempfailExit cfg managed event pid
      | _, _ => pure ()
      match lifecycleVerdict cfg event.kind with
      | none => pure ()
      | some verdict => enqueueLifecycleNotice cfg managed verdict : Service Unit).Uses
      (lifecycleOp cfg managed event) := by
  have h : Plain (fun {α} (p : Service α) => p.Uses (lifecycleOp cfg managed event)) :=
    lifecycleOp_plain
  have hnotice : (match lifecycleVerdict cfg event.kind with
      | none => (Prog.pure () : Service Unit)
      | some verdict => enqueueLifecycleNotice cfg managed verdict).Uses
      (lifecycleOp cfg managed event) := by
    split
    · exact h.pure _
    · exact h.enqueueLifecycleNotice _ _ _
  dsimp only
  split
  · rename_i pid _ _
    refine h.bind (h.recordProviderTempfailExit _ _ _ pid (fun _ => Prog.uses_op trivial)
      fun r hr => Prog.uses_op ⟨r, pid, hr, rfl⟩) fun _ => hnotice
  · exact hnotice

/-- **The code takes the steps.** However a record of the next event of the log
ends, and wherever it stops, the store it leaves is reached by steps. -/
theorem recordAgentLifecycleEvent_steps {a : AttemptState} {w w' : World}
    {r : Durable.Outcome ControllerError Unit} (ha : AttemptsTracked managed a)
    (hw : a.store = w.store) (hnext : a.log[a.polled]? = some event)
    (h : Runs machine storeAlone (recordAgentLifecycleEvent cfg managed event) w r w') :
    ∃ n, (n = a.polled ∨ n = a.polled + 1) ∧
      Relation.ReflTransGen (AttemptStep cfg managed) a { a with polled := n, store := w'.store } := by
  have hlog := ha.log _ _ hnext
  unfold recordAgentLifecycleEvent at h
  split at h
  · cases h
    exact ⟨a.polled, .inl rfl, by rw [← hw]⟩
  obtain ⟨w₁, hothers, hend⟩ := h.first
  have hw₁ : w₁.store = a.store := hothers.trans hw.symm
  have hpoll : ∀ u : Unit, (machine.exec (.store (.recordCardRuntimeEvent
      (lifecycleEvent cfg managed event))) w₁).1 = .ok u →
      AttemptStep cfg managed a { a with
        polled := a.polled + 1
        store := (machine.exec (.store (.recordCardRuntimeEvent
          (lifecycleEvent cfg managed event))) w₁).2.store } := by
    intro u hok
    refine .poll hnext ?_
    rw [← hw₁]
    exact commit_ok hok
  rcases hend with rfl | rfl | ⟨u, hok, hrest⟩
  · exact ⟨a.polled, .inl rfl, by rw [hw₁]⟩
  · cases hx : (machine.exec (.store (.recordCardRuntimeEvent
        (lifecycleEvent cfg managed event))) w₁).1 with
    | ok u => exact ⟨_, .inr rfl, .single (hpoll u hx)⟩
    | error e =>
      refine ⟨a.polled, .inl rfl, ?_⟩
      have hstore : (machine.exec (.store (.recordCardRuntimeEvent
          (lifecycleEvent cfg managed event))) w₁).2.store = a.store :=
        (commit_error hx).trans hw₁
      rw [hstore]
  · refine ⟨a.polled + 1, .inr rfl, .head (hpoll u hok) ?_⟩
    refine lifecycle_steps lifecycleRest_uses rfl ?_ hrest
    intro r hr
    dsimp only
    rw [take_polled_succ hnext]
    exact hlog.started hr

end Lifecycle

end HollysysController
