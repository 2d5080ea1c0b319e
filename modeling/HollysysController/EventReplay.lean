import HollysysController.AttemptFacts
import HollysysController.Columns
import HollysysController.EventDecoding

/-! # Replayed events

The poll moves its cursor once an event is recorded, so a stop in between records the event a
second time. The second record changes no row. -/

namespace HollysysController

open Durable
open Python (Decimals)

/-! ## The row of the card -/

section Row

variable {e : RuntimeEvent} {previous : Option CardRuntime}

theorem orElse_absorbs {α : Type} (x y : Option α) : (x <|> x <|> y) = (x <|> y) := by
  cases x <;> rfl

theorem runtimeRow_session (h : truthy e.workerSessionId = true) :
    (e.runtimeRow previous).workerSessionId = e.workerSessionId := by
  cases hsession : e.workerSessionId with
  | none =>
    rw [hsession] at h
    cases h
  | some session => simp [RuntimeEvent.runtimeRow, hsession]

/-- The session of the event is the recorded one. -/
theorem runtimeRow_not_newSession (e : RuntimeEvent) (previous : Option CardRuntime) :
    e.newSession (some (e.runtimeRow previous)) = false := by
  unfold RuntimeEvent.newSession
  rw [Option.any_some]
  by_cases hnamed : truthy e.workerSessionId = true
  · rw [runtimeRow_session hnamed]
    simp
  · rw [Bool.not_eq_true] at hnamed
    simp [hnamed]

/-- The replayed event reaches the row. -/
theorem runtimeRow_written : e.written (some (e.runtimeRow previous)) = true := by
  have hnew := runtimeRow_not_newSession e previous
  have hpreserves : e.preservesFinished (some (e.runtimeRow previous)) = false := by
    unfold RuntimeEvent.preservesFinished
    rw [hnew, Option.any_some]
    cases hterminal : e.terminal <;>
      simp [RuntimeEvent.runtimeRow, RuntimeEvent.timeIf, hterminal]
  have hold : e.fromOldSession (some (e.runtimeRow previous)) = false := by
    unfold RuntimeEvent.fromOldSession
    rw [Option.any_some]
    by_cases hnamed : truthy e.workerSessionId = true
    · rw [runtimeRow_session hnamed]
      simp
    · rw [Bool.not_eq_true] at hnamed
      simp [hnamed]
  have hreplayed : e.replayedStart (some (e.runtimeRow previous)) = false := by
    rw [RuntimeEvent.replayedStart, hnew, Bool.false_and]
  rw [RuntimeEvent.written, hpreserves, hold, hreplayed]
  rfl

theorem newAttempt_started (h : e.newAttempt previous = true) : e.started = true := by
  simp only [RuntimeEvent.newAttempt, RuntimeEvent.newSession, Bool.and_eq_true] at h
  exact h.1.1

/-- The second event leaves the row of the first. -/
theorem runtimeRow_replay :
    e.runtimeRow (some (e.runtimeRow previous)) = e.runtimeRow previous := by
  have hattempt : e.newAttempt (some (e.runtimeRow previous)) = false := by
    rw [RuntimeEvent.newAttempt, runtimeRow_not_newSession, Bool.false_and]
  have hstarted : ((e.runtimeRow previous).workerStartedAt <|> e.timeIf e.started) =
      (e.runtimeRow previous).workerStartedAt := by
    unfold RuntimeEvent.runtimeRow
    dsimp only
    split
    · next hnew =>
      rw [newAttempt_started hnew]
      rfl
    · cases (previous.getD {}).workerStartedAt <;> cases e.timeIf e.started <;> rfl
  rw [RuntimeEvent.runtimeRow, hattempt]
  simp only [Option.getD_some, Bool.false_eq_true, if_false, hstarted, Nat.add_zero]
  simp only [RuntimeEvent.runtimeRow, orElse_absorbs]

end Row

/-! ## The attempt -/

section Attempt

variable {e : RuntimeEvent} {runId : String} {s t : Store}

theorem exit_not_terminal (h : e.kind = "worker_exited") : e.terminal = false := by
  rw [RuntimeEvent.terminal, h]
  decide

theorem nextAttemptStatus_replay (old : String) :
    e.nextAttemptStatus (e.nextAttemptStatus old) = e.nextAttemptStatus old := by
  have hexit := exit_not_terminal (e := e)
  unfold RuntimeEvent.nextAttemptStatus
  split_ifs <;> simp_all

theorem nextAttemptStatus_first : e.nextAttemptStatus e.attemptStatus = e.attemptStatus := by
  unfold RuntimeEvent.nextAttemptStatus RuntimeEvent.attemptStatus
  split_ifs <;> simp_all

/-- The attempt has what the event says. -/
def UpToDate (e : RuntimeEvent) (a : CardAttempt) : Prop := e.updateAttempt a = a

theorem orElse_absorbed {α : Type} (x y : Option α) : ((x <|> y) <|> y) = (x <|> y) := by
  cases x <;> cases y <;> rfl

theorem orElse_self {α : Type} (x : Option α) : (x <|> x) = x := by
  cases x <;> rfl

theorem updateAttempt_upToDate (a : CardAttempt) : UpToDate e (e.updateAttempt a) := by
  simp only [UpToDate, RuntimeEvent.updateAttempt, orElse_absorbs, orElse_absorbed,
    nextAttemptStatus_replay, CardAttempt.mk.injEq, true_and, and_true]
  split <;> rfl

theorem firstAttempt_upToDate (runKey : String) (attempt : Nat) :
    UpToDate e (e.firstAttempt runId runKey attempt) := by
  simp only [UpToDate, RuntimeEvent.updateAttempt, RuntimeEvent.firstAttempt, orElse_self,
    nextAttemptStatus_first, CardAttempt.mk.injEq, true_and, and_true]
  split <;> rfl

/-- The link to the run before is there when the event makes one. -/
def Linked (e : RuntimeEvent) (runId : String) (s : Store) (a : CardAttempt) : Prop :=
  e.started = true → (s.reclaimedBefore e runId).isSome → a.redispatchedFromRunId.isSome

/-- Rewriting the row of one run leaves the reclaimed rows of the others. -/
theorem reclaimedBefore_mapAttempt {f : CardAttempt → CardAttempt}
    (hf : ∀ a, (f a).runId = a.runId) :
    (s.mapAttempt runId f).reclaimedBefore e runId = s.reclaimedBefore e runId := by
  unfold Store.reclaimedBefore Store.mapAttempt
  congr 1
  induction s.cardAttempts with
  | nil => rfl
  | cons a l ih =>
    rw [List.map_cons]
    by_cases hid : a.runId = runId
    · rw [if_pos hid, List.filter_cons_of_neg (by simp [hf, hid]),
        List.filter_cons_of_neg (by simp [hid]), ih]
    · rw [if_neg hid, List.filter_cons, List.filter_cons, ih]

theorem mapAttempt_same {f : CardAttempt → CardAttempt}
    (h : ∀ a ∈ s.cardAttempts, a.runId = runId → f a = a) : s.mapAttempt runId f = s := by
  have hrows : (s.cardAttempts.map fun a => if a.runId = runId then f a else a) =
      s.cardAttempts := by
    refine (List.map_congr_left fun a ha => ?_).trans (List.map_id _)
    split
    · next hid => exact h a ha hid
    · rfl
  rw [Store.mapAttempt, hrows]

/-- The rows of the run say what the event says, and are linked. -/
structure Settled (e : RuntimeEvent) (runId : String) (s : Store) : Prop where
  upToDate : ∀ a ∈ s.cardAttempts, a.runId = runId → UpToDate e a
  linked : ∀ a ∈ s.cardAttempts, a.runId = runId → Linked e runId s a

/-- The link settles rows that are up to date. -/
theorem linkRedispatch_settles
    (h : ∀ a ∈ s.cardAttempts, a.runId = runId → UpToDate e a) :
    Settled e runId (linkRedispatch e runId s) := by
  unfold linkRedispatch
  split
  · next hstarted =>
    split
    · next reclaimed hreclaimed =>
      have hrow : ∀ a ∈ (s.mapAttempt runId fun a => { a with
          redispatchedFromRunId := a.redispatchedFromRunId <|> some reclaimed.runId }).cardAttempts,
          a.runId = runId → ∃ b ∈ s.cardAttempts, b.runId = runId ∧ a = { b with
            redispatchedFromRunId := b.redispatchedFromRunId <|> some reclaimed.runId } := by
        intro a ha hid
        obtain ⟨b, hb, rfl⟩ := List.mem_map.mp ha
        split at hid
        · next hb' =>
          rw [if_pos hb']
          exact ⟨b, hb, hb', rfl⟩
        · next hb' => exact absurd hid hb'
      refine ⟨fun a ha hid => ?_, fun a ha hid _ _ => ?_⟩
      · obtain ⟨b, hb, hid', rfl⟩ := hrow a ha hid
        have hdate := h b hb hid'
        unfold UpToDate at hdate ⊢
        rw [show e.updateAttempt { b with redispatchedFromRunId :=
            b.redispatchedFromRunId <|> some reclaimed.runId } = { e.updateAttempt b with
              redispatchedFromRunId := b.redispatchedFromRunId <|> some reclaimed.runId } from rfl,
          hdate]
      · obtain ⟨b, hb, hid', rfl⟩ := hrow a ha hid
        cases b.redispatchedFromRunId <;> rfl
    · next hnone =>
      refine ⟨h, fun a _ _ _ hsome => ?_⟩
      rw [hnone] at hsome
      cases hsome
  · next hstarted => exact ⟨h, fun a _ _ hs => absurd hs hstarted⟩

/-- The event changes nothing where its run is settled. -/
theorem Settled.link (h : Settled e runId s) :
    linkRedispatch e runId (s.mapAttempt runId e.updateAttempt) = s := by
  rw [mapAttempt_same h.upToDate]
  unfold linkRedispatch
  split
  · next hstarted =>
    split
    · next reclaimed hreclaimed =>
      refine mapAttempt_same fun a ha hid => ?_
      have hsome := h.linked a ha hid hstarted (by rw [hreclaimed]; rfl)
      obtain ⟨r, hr⟩ := Option.isSome_iff_exists.mp hsome
      obtain ⟨⟩ := a
      dsimp only at hr
      subst hr
      rfl
    · rfl
  · rfl

/-- The card, the run and the row that the event is about. -/
structure OwnRow (e : RuntimeEvent) (runId : String) (s : Store) (m : ManagedCard)
    (a : CardAttempt) : Prop where
  managed : s.managedCard e.board e.cardId = some m
  row : s.attempt runId = some a
  board : a.board = e.board
  card : a.cardId = e.cardId
  run : a.runKey = m.runKey

theorem OwnRow.link {m : ManagedCard} {a : CardAttempt} (h : OwnRow e runId s m a) :
    ∃ b, OwnRow e runId (linkRedispatch e runId s) m b := by
  unfold linkRedispatch
  split
  · split
    · next reclaimed _ =>
      refine ⟨{ a with redispatchedFromRunId := a.redispatchedFromRunId <|> some reclaimed.runId },
        h.managed, ?_, h.board, h.card, h.run⟩
      rw [mapAttempt_attempt (by intro b; rfl), h.row, Option.map_some,
        if_pos (attempt_runId h.row)]
    · exact ⟨a, h⟩
  · exact ⟨a, h⟩

theorem recordAttempt_ownRow {u : Unit} (h : recordAttempt e runId s = .ok (u, t)) :
    (∃ m a, OwnRow e runId t m a) ∧ Settled e runId t := by
  unfold recordAttempt at h
  split at h
  · cases h
  · next m hm =>
    split at h
    · next a ha =>
      split at h
      · cases h
      · next hsame =>
        simp only [not_or, ne_eq, Decidable.not_not] at hsame
        cases h
        have hfound : OwnRow e runId (s.mapAttempt runId e.updateAttempt) m (e.updateAttempt a) := by
          refine ⟨hm, ?_, hsame.1, hsame.2.1, hsame.2.2⟩
          rw [mapAttempt_attempt (updateAttempt_runId e), show s.attempt runId = some a from ha,
            Option.map_some, if_pos (attempt_runId ha)]
        refine ⟨⟨m, hfound.link⟩, linkRedispatch_settles fun a ha hid => ?_⟩
        obtain ⟨b, hb, rfl⟩ := List.mem_map.mp ha
        split at hid
        · next hb' =>
          rw [if_pos hb']
          exact updateAttempt_upToDate b
        · next hb' => exact absurd hid hb'
    · next hnone =>
      split at h
      · cases h
      · cases h
        set first := e.firstAttempt runId m.runKey (s.nextAttempt e.board e.cardId)
        have hfound : OwnRow e runId { s with cardAttempts := s.cardAttempts ++ [first] } m first := by
          refine ⟨hm, ?_, rfl, rfl, rfl⟩
          simp [Store.attempt, List.find?_append, hnone, first, RuntimeEvent.firstAttempt]
        refine ⟨⟨m, hfound.link⟩, linkRedispatch_settles fun a ha hid => ?_⟩
        rcases List.mem_append.mp ha with ha | ha
        · exact absurd (by simpa using hid) (List.find?_eq_none.mp hnone a ha)
        · rw [List.mem_singleton.mp ha]
          exact firstAttempt_upToDate _ _

/-- The second record about the run changes nothing. -/
theorem OwnRow.again {m : ManagedCard} {a : CardAttempt} (h : OwnRow e runId s m a)
    (hsettled : Settled e runId s) : recordAttempt e runId s = .ok ((), s) := by
  have hfind : s.cardAttempts.find? (·.runId == runId) = some a := h.row
  unfold recordAttempt
  simp only [h.managed, hfind]
  rw [if_neg (by simp [h.board, h.card, h.run]), hsettled.link]

end Attempt

/-! ## The tables -/

/-- The summary column of a metric: a reclaimed run, or the JSON of a progress summary. -/
inductive MetricSummary where
  | run (runId : String)
  | progress (summary : ProgressSummary)

/-- A row of `attempt_metrics` without the time of its last update. -/
structure MetricRow where
  duration : Int
  summary : Option MetricSummary

/-- The store with what an event writes and no part of the Controller reads back: the creation
times of `card_attempts` and the rows of `attempt_metrics`. -/
structure RuntimeTables where
  store : Store
  createdAt : Durable.Table String Nat
  metrics : Durable.Table (String × String) MetricRow

namespace RuntimeReport

variable (r : RuntimeReport)

/-- The metric of a start after a reclaimed run. A row that is there keeps its duration. -/
def linkMetric (runId : String) (s : Store) (metrics : Durable.Table (String × String) MetricRow) :
    Durable.Table (String × String) MetricRow :=
  if r.frame.started then
    match s.reclaimedBefore r.frame runId with
    | some reclaimed => metrics.put (runId, "redispatched_from_run_id") {
        duration := ((metrics (runId, "redispatched_from_run_id")).map (·.duration)).getD 0
        summary := some (.run reclaimed.runId) }
    | none => metrics
  else metrics

/-- The rows of the durations, one after the other. -/
def putMetrics (runId : String) (summary : ProgressSummary) (durations : List (String × Int))
    (metrics : Durable.Table (String × String) MetricRow) :
    Durable.Table (String × String) MetricRow :=
  metrics.putAll (durations.map fun d => ((runId, d.1), ⟨d.2, some (.progress summary)⟩))

def progressMetrics (D : Decimals) (runId : String)
    (metrics : Durable.Table (String × String) MetricRow) :
    Except EventError (Durable.Table (String × String) MetricRow) :=
  if r.kind = "progress" ∧ r.metrics ≠ [] then do
    let summary ← (r.summary D).mapError EventError.python
    let durations ← (durations r.metrics).mapError EventError.python
    .ok (putMetrics runId summary durations metrics)
  else .ok metrics

/-- The attempt part of the event, with every column. -/
def attemptTables (D : Decimals) (runId : String) (t : RuntimeTables) :
    Except EventError RuntimeTables := do
  let s ← r.recordAttempt D runId t.store
  let metrics ← r.progressMetrics D runId (r.linkMetric runId s t.metrics)
  .ok {
    store := s
    createdAt :=
      if (t.store.attempt runId).isSome then t.createdAt
      else t.createdAt.put runId r.createdAt
    metrics }

/-- `if run_id`. -/
def givenRun : Option String := r.runId.filter (· ≠ "")

/-- `record_card_runtime_event` over every table that it writes. -/
def recordTables (D : Decimals) (t : RuntimeTables) : Except EventError RuntimeTables :=
  let previous := t.store.cardRuntime r.frame.key
  if r.preservesFinished previous ∧ r.kind ≠ "worker_exited" then .ok t
  else match r.givenRun with
    | some runId => do
      let u ← r.attemptTables D runId t
      let s ← r.recordRow previous u.store
      .ok { u with store := s }
    | none => do
      let s ← r.recordRow previous t.store
      .ok { t with store := s }

/-- The tables after the transaction. An exception leaves them. -/
def commitTables (D : Decimals) (t : RuntimeTables) : RuntimeTables :=
  match r.recordTables D t with
  | .ok u => u
  | .error _ => t

end RuntimeReport

/-! ## The second record -/

section Again

variable {r : RuntimeReport} {D : Decimals} {runId : String} {s s' : Store} {t u : RuntimeTables}

/-- The store with another row for the card. -/
def Store.withRuntime (s : Store) (c : Durable.Table (String × CardId) CardRuntime) : Store :=
  { s with cardRuntime := c }

/-- The report leaves its run settled, and names a worker that fits. -/
theorem report_recordAttempt_settles (h : r.recordAttempt D runId s = .ok s') :
    ∃ e m a, r.bound = .ok e ∧ OwnRow e runId s' m a ∧ Settled e runId s' := by
  cases hbound : r.bound with
  | error err =>
    unfold RuntimeReport.recordAttempt at h
    rw [hbound] at h
    split at h
    · cases h
    · split at h <;> cases h
  | ok e =>
    obtain ⟨⟨m, a, hrow⟩, hsettled⟩ := recordAttempt_ownRow (recordAttempt_bound hbound h)
    exact ⟨e, m, a, rfl, hrow, hsettled⟩

/-- The numbers of a progress event are read. -/
theorem report_recordAttempt_numbers (h : r.recordAttempt D runId s = .ok s')
    (hkind : r.kind = "progress") (hmetrics : r.metrics ≠ []) :
    ∃ summary durations, r.summary D = .ok summary ∧
      RuntimeReport.durations r.metrics = .ok durations := by
  obtain ⟨e, m, a, hbound, -, -⟩ := report_recordAttempt_settles h
  unfold RuntimeReport.recordAttempt at h
  split at h
  · cases h
  · split at h
    · cases h
    · rw [hbound] at h
      cases hstore : recordAttempt e runId s with
      | error err => simp [hstore, bind, Except.bind, Except.mapError] at h
      | ok result =>
        cases hsummary : r.summary D with
        | error err => simp [hstore, hsummary, hkind, hmetrics, bind, Except.bind, Except.mapError] at h
        | ok summary =>
          cases hdurations : RuntimeReport.durations r.metrics with
          | error err =>
            simp [hstore, hsummary, hdurations, hkind, hmetrics, bind, Except.bind,
              Except.mapError] at h
          | ok durations => exact ⟨summary, durations, rfl, rfl⟩

theorem report_recordAttempt_again (h : r.recordAttempt D runId s = .ok s')
    (c : Durable.Table (String × CardId) CardRuntime) :
    r.recordAttempt D runId (s'.withRuntime c) = .ok (s'.withRuntime c) := by
  obtain ⟨e, m, a, hbound, hrow, hsettled⟩ := report_recordAttempt_settles h
  have hframe := RuntimeReport.bound_eq hbound
  have hboard : e.board = r.board := by rw [hframe]; rfl
  have hcard : e.cardId = r.cardId := by rw [hframe]; rfl
  have hown : OwnRow e runId (s'.withRuntime c) m a :=
    ⟨hrow.managed, hrow.row, hrow.board, hrow.card, hrow.run⟩
  have hmanaged := hown.managed
  rw [hboard, hcard] at hmanaged
  have hfind : (s'.withRuntime c).cardAttempts.find? (·.runId == runId) = some a := hown.row
  have hconflicts : r.conflicts (s'.withRuntime c) m runId = false := by
    rw [RuntimeReport.conflicts, hfind]
    simp [hrow.board, hrow.card, hrow.run, hboard, hcard]
  have hagain := hown.again ⟨hsettled.upToDate, hsettled.linked⟩
  unfold RuntimeReport.recordAttempt
  simp only [hmanaged, hconflicts, Bool.false_eq_true, if_false, hbound, hagain, Except.mapError,
    bind, Except.bind]
  split
  · next hprogress =>
    obtain ⟨summary, durations, hsummary, hdurations⟩ := report_recordAttempt_numbers h
      hprogress.1 hprogress.2
    rw [hsummary, hdurations]
  · rfl

/-- The row is left, or written by the event that SQLite takes. -/
theorem recordRow_cases {previous : Option CardRuntime} (h : r.recordRow previous s = .ok s') :
    (r.written previous = false ∧ s' = s) ∨
    ∃ e, r.bound = .ok e ∧ ¬ (e.progress = true ∧ sqliteLimit ≤ e.createdAt + e.leaseSeconds) ∧
      s' = s.withRuntime (s.cardRuntime.put e.key (e.runtimeRow previous)) := by
  unfold RuntimeReport.recordRow at h
  split at h
  · right
    cases hbound : r.bound with
    | error err =>
      rw [hbound] at h
      cases h
    | ok e =>
      rw [hbound] at h
      simp only [bind, Except.bind, Except.mapError] at h
      split at h
      · cases h
      · next hfits =>
        cases h
        exact ⟨e, rfl, hfits, rfl⟩
  · next hunwritten =>
    left
    cases h
    exact ⟨Bool.not_eq_true _ ▸ hunwritten, rfl⟩

/-- Beside the row of the card nothing is written. -/
theorem recordRow_withRuntime {previous : Option CardRuntime}
    (h : r.recordRow previous s = .ok s') : s' = s.withRuntime s'.cardRuntime := by
  obtain ⟨-, rfl⟩ | ⟨e, -, -, rfl⟩ := recordRow_cases h
  · rfl
  · rfl

/-- The row that an event wrote is open to it, and as it writes it. -/
theorem recordRow_again
    (hopen : ¬ (r.preservesFinished (s.cardRuntime r.frame.key) = true ∧ r.kind ≠ "worker_exited"))
    (h : r.recordRow (s.cardRuntime r.frame.key) s = .ok s') :
    ¬ (r.preservesFinished (s'.cardRuntime r.frame.key) = true ∧ r.kind ≠ "worker_exited") ∧
    r.recordRow (s'.cardRuntime r.frame.key) s' = .ok s' := by
  obtain ⟨-, rfl⟩ | ⟨e, hbound, hfits, rfl⟩ := recordRow_cases h
  · exact ⟨hopen, h⟩
  · obtain ⟨-, -, -, -, -, hkey⟩ := frame_bound hbound
    set row := e.runtimeRow (s.cardRuntime r.frame.key) 
    have hself : (s.withRuntime (s.cardRuntime.put e.key row)).cardRuntime r.frame.key =
        some row := by
      rw [hkey]
      exact Durable.Table.put_self _ _ _
    have hreaches : e.written (some row) = true := runtimeRow_written
    rw [hself]
    constructor
    · rintro ⟨hpreserves, -⟩
      rw [preservesFinished_bound hbound] at hpreserves
      rw [RuntimeEvent.written, hpreserves] at hreaches
      cases hreaches
    · rw [RuntimeReport.recordRow, written_bound hbound, hreaches, if_pos rfl, hbound]
      simp only [bind, Except.bind, Except.mapError]
      rw [if_neg hfits, show e.runtimeRow (some row) = row from runtimeRow_replay]
      have hput : (s.cardRuntime.put e.key row).put e.key row = s.cardRuntime.put e.key row :=
        Durable.Table.put_same (Durable.Table.put_self _ _ _)
      exact congrArg (fun c => Except.ok (s.withRuntime c)) hput

theorem linkMetric_again (metrics : Durable.Table (String × String) MetricRow) :
    r.linkMetric runId s (r.linkMetric runId s metrics) = r.linkMetric runId s metrics := by
  unfold RuntimeReport.linkMetric
  split
  · cases s.reclaimedBefore r.frame runId with
    | none => rfl
    | some reclaimed => exact Durable.Table.put_same (by simp)
  · rfl

theorem progressMetrics_again {metrics metrics' : Durable.Table (String × String) MetricRow}
    (h : r.progressMetrics D runId metrics = .ok metrics') :
    r.progressMetrics D runId metrics' = .ok metrics' := by
  unfold RuntimeReport.progressMetrics at h ⊢
  split at h
  · next hprogress =>
    cases hsummary : r.summary D with
    | error err =>
      rw [hsummary] at h
      cases h
    | ok summary =>
      cases hdurations : RuntimeReport.durations r.metrics with
      | error err =>
        rw [hsummary, hdurations] at h
        cases h
      | ok durations =>
        rw [hsummary, hdurations] at h
        cases h
        rw [if_pos hprogress]
        exact congrArg Except.ok (Durable.Table.putAll_again _ _)
  · next hprogress =>
    cases h
    exact if_neg hprogress

/-- The metrics of a report whose attempt is recorded are recorded. -/
theorem progressMetrics_ok (h : r.recordAttempt D runId s = .ok s')
    (metrics : Durable.Table (String × String) MetricRow) :
    ∃ metrics', r.progressMetrics D runId metrics = .ok metrics' := by
  unfold RuntimeReport.progressMetrics
  split
  · next hprogress =>
    obtain ⟨summary, durations, hsummary, hdurations⟩ :=
      report_recordAttempt_numbers h hprogress.1 hprogress.2
    rw [hsummary, hdurations]
    exact ⟨_, rfl⟩
  · exact ⟨_, rfl⟩

/-- An event that starts a worker reports no progress. -/
theorem started_not_progress (h : r.frame.started = true) : r.kind ≠ "progress" := by
  intro hkind
  have hframe : r.frame.kind = "progress" := hkind
  rw [RuntimeEvent.started, hframe] at h
  exact absurd h (by decide)

/-- The metrics that one event leaves are the ones that it finds the next time. -/
theorem metrics_again {metrics metrics' : Durable.Table (String × String) MetricRow}
    (h : r.progressMetrics D runId (r.linkMetric runId s metrics) = .ok metrics') :
    r.progressMetrics D runId (r.linkMetric runId s metrics') = .ok metrics' := by
  by_cases hstarted : r.frame.started = true
  · have hplain : ∀ m, r.progressMetrics D runId m = .ok m := fun m =>
      if_neg fun hprogress => started_not_progress hstarted hprogress.1
    rw [hplain] at h
    cases h
    rw [linkMetric_again, hplain]
  · have hplain : ∀ m, r.linkMetric runId s m = m := fun m => if_neg hstarted
    rw [hplain] at h ⊢
    exact progressMetrics_again h

/-- The tables with another row for the card. -/
def RuntimeTables.withRuntime (t : RuntimeTables)
    (c : Durable.Table (String × CardId) CardRuntime) : RuntimeTables :=
  { t with store := t.store.withRuntime c }

theorem attemptTables_ok (h : r.attemptTables D runId t = .ok u) :
    r.recordAttempt D runId t.store = .ok u.store ∧
    r.progressMetrics D runId (r.linkMetric runId u.store t.metrics) = .ok u.metrics := by
  unfold RuntimeReport.attemptTables at h
  cases hattempt : r.recordAttempt D runId t.store with
  | error err =>
    rw [hattempt] at h
    cases h
  | ok s =>
    rw [hattempt] at h
    cases hmetrics : r.progressMetrics D runId (r.linkMetric runId s t.metrics) with
    | error err =>
      simp only [hmetrics, bind, Except.bind] at h
      cases h
    | ok metrics =>
      simp only [hmetrics, bind, Except.bind] at h
      cases h
      exact ⟨rfl, hmetrics⟩

theorem attemptTables_again (h : r.attemptTables D runId t = .ok u)
    (c : Durable.Table (String × CardId) CardRuntime) :
    r.attemptTables D runId (u.withRuntime c) = .ok (u.withRuntime c) := by
  obtain ⟨hattempt, hmetrics⟩ := attemptTables_ok h
  obtain ⟨e, m, a, -, hrow, -⟩ := report_recordAttempt_settles hattempt
  have hfound : ((u.withRuntime c).store.attempt runId).isSome = true := by
    rw [show (u.withRuntime c).store.attempt runId = some a from hrow.row]
    rfl
  have hsame : r.recordAttempt D runId (u.withRuntime c).store = .ok (u.withRuntime c).store :=
    report_recordAttempt_again hattempt c
  have hkept : r.progressMetrics D runId
      (r.linkMetric runId (u.withRuntime c).store (u.withRuntime c).metrics) =
      .ok (u.withRuntime c).metrics := metrics_again hmetrics
  unfold RuntimeReport.attemptTables
  simp only [hsame, hkept, hfound, if_true, bind, Except.bind]

theorem recordAttempt_keepsRuntime (h : r.recordAttempt D runId s = .ok s') :
    s'.cardRuntime = s.cardRuntime := by
  obtain ⟨e, m, a, hbound, -, -⟩ := report_recordAttempt_settles h
  exact recordAttempt_runtime (recordAttempt_bound hbound h)

/-- **What an event recorded, it records again without an effect.** -/
theorem recordTables_again (h : r.recordTables D t = .ok u) : r.recordTables D u = .ok u := by
  by_cases hdropped : r.preservesFinished (t.store.cardRuntime r.frame.key) = true ∧
      r.kind ≠ "worker_exited"
  · have hsame : t = u := by
      unfold RuntimeReport.recordTables at h
      extract_lets previous at h
      rw [if_pos hdropped] at h
      exact Except.ok.inj h
    rw [← hsame] at h ⊢
    exact h
  unfold RuntimeReport.recordTables at h ⊢
  extract_lets previous at h
  extract_lets current
  rw [if_neg hdropped] at h
  cases hrun : r.givenRun with
  | none =>
    rw [hrun] at h
    cases hrow : r.recordRow previous t.store with
    | error err =>
      simp only [hrow, bind, Except.bind] at h
      cases h
    | ok s =>
      simp only [hrow, bind, Except.bind] at h
      cases h
      obtain ⟨hopen, hagain⟩ := recordRow_again hdropped hrow
      rw [if_neg hopen]
      replace hagain : r.recordRow current s = .ok s := hagain
      simp only [hagain, bind, Except.bind]
  | some runId =>
    rw [hrun] at h
    cases hattempt : r.attemptTables D runId t with
    | error err =>
      simp only [hattempt, bind, Except.bind] at h
      cases h
    | ok v =>
      have hruntime : v.store.cardRuntime = t.store.cardRuntime :=
        recordAttempt_keepsRuntime (attemptTables_ok hattempt).1
      have hprevious : previous = v.store.cardRuntime r.frame.key := by
        rw [hruntime]
      rw [← hruntime] at hdropped
      cases hrow : r.recordRow previous v.store with
      | error err =>
        simp only [hattempt, hrow, bind, Except.bind] at h
        cases h
      | ok s =>
        simp only [hattempt, hrow, bind, Except.bind] at h
        cases h
        have hstore := recordRow_withRuntime hrow
        rw [hprevious] at hrow
        obtain ⟨hopen, hagain⟩ := recordRow_again hdropped hrow
        have hagain' := attemptTables_again hattempt s.cardRuntime
        rw [RuntimeTables.withRuntime, ← hstore] at hagain'
        rw [if_neg hopen]
        replace hagain : r.recordRow current s = .ok s := hagain
        simp only [hagain', hagain, bind, Except.bind]

/-! ## What the Controller reads -/

/-- The store of the tables is the one that the report leaves. -/
theorem recordTables_store (hrun : r.runId ≠ some "") :
    (r.recordTables D t).map (·.store) = r.record D t.store := by
  have hgiven : r.givenRun = r.runId := by
    unfold RuntimeReport.givenRun
    cases hid : r.runId with
    | none => rfl
    | some runId =>
      rw [hid] at hrun
      simpa using hrun
  unfold RuntimeReport.recordTables RuntimeReport.record
  extract_lets previous
  split
  · rfl
  · rw [hgiven]
    cases hid : r.runId with
    | none =>
      dsimp only
      cases r.recordRow previous t.store with
      | error err => rfl
      | ok s => rfl
    | some runId =>
      dsimp only
      have htables : (r.attemptTables D runId t).map (·.store) =
          r.recordAttempt D runId t.store := by
        unfold RuntimeReport.attemptTables
        cases hattempt : r.recordAttempt D runId t.store with
        | error err => rfl
        | ok s =>
          obtain ⟨metrics, hmetrics⟩ := progressMetrics_ok hattempt
            (r.linkMetric runId s t.metrics)
          simp only [hmetrics, bind, Except.bind, Except.map]
      rw [← htables]
      cases r.attemptTables D runId t with
      | error err => rfl
      | ok u =>
        simp only [Except.map, bind, Except.bind]
        cases r.recordRow previous u.store with
        | error err => rfl
        | ok s => rfl

theorem report_record_again (hrun : r.runId ≠ some "") (h : r.record D s = .ok s') :
    r.record D s' = .ok s' := by
  have hstore := recordTables_store (D := D)
    (t := ⟨s, Durable.Table.empty, Durable.Table.empty⟩) hrun
  rw [h] at hstore
  cases htables : r.recordTables D ⟨s, Durable.Table.empty, Durable.Table.empty⟩ with
  | error err =>
    rw [htables] at hstore
    cases hstore
  | ok u =>
    rw [htables] at hstore
    have hsame : u.store = s' := Except.ok.inj hstore
    rw [← hsame, ← recordTables_store hrun, recordTables_again htables]
    rfl

theorem record_managedCards (h : r.record D s = .ok s') : s'.managedCards = s.managedCards := by
  unfold RuntimeReport.record at h
  extract_lets previous at h
  split at h
  · cases h
    rfl
  · split at h
    · next runId _ =>
      cases hattempt : r.recordAttempt D runId s with
      | error err =>
        rw [hattempt] at h
        cases h
      | ok v =>
        rw [hattempt] at h
        obtain ⟨e, m, a, hbound, -, -⟩ := report_recordAttempt_settles hattempt
        have hcards := recordAttempt_writes e runId s _ _ (recordAttempt_bound hbound hattempt)
          .cards (by decide)
        have hrow : s' = v.withRuntime s'.cardRuntime := recordRow_withRuntime h
        rw [hrow]
        exact hcards
    · rw [recordRow_withRuntime h]
      rfl

theorem report_runId {cfg : Config} {event : RawEvent} {managed : ManagedCard}
    (h : event.report cfg managed = .ok r) : r.runId ≠ some "" := by
  unfold RawEvent.report at h
  cases hmetrics : countedMetrics event.rawMetrics metricNames with
  | error err =>
    rw [hmetrics] at h
    cases h
  | ok metrics =>
    rw [hmetrics] at h
    cases h
    intro hempty
    obtain ⟨runId, -, hname⟩ := Option.map_eq_some_iff.mp hempty
    have hlist := congrArg String.toList hname
    simp [toString] at hlist

/-- The poll that stopped before it moved its cursor records the event again without an effect. -/
theorem recordRawEvent_again {cfg : Config} {event : RawEvent}
    (h : recordRawEvent D cfg event s = .ok s') : recordRawEvent D cfg event s' = .ok s' := by
  unfold recordRawEvent at h
  split at h
  · next hunmanaged =>
    cases h
    unfold recordRawEvent
    rw [hunmanaged]
  · next managed hmanaged =>
    split at h
    · next hpurpose =>
      cases h
      unfold recordRawEvent
      rw [hmanaged]
      exact if_pos hpurpose
    · next hpurpose =>
      cases hreport : event.report cfg managed with
      | error err =>
        rw [hreport] at h
        cases h
      | ok report =>
        rw [hreport] at h
        replace h : report.record D s = .ok s' := h
        have hmanaged' : s'.managedCard event.board event.taskId = some managed := by
          rw [← hmanaged]
          exact congrArg (fun cards => Store.managedCard { s with managedCards := cards } _ _)
            (record_managedCards h)
        have hagain := report_record_again (report_runId hreport) h
        unfold recordRawEvent
        rw [hmanaged']
        dsimp only
        rw [if_neg hpurpose, hreport]
        exact hagain

end Again

/-- **Recording an event twice leaves the tables as recording it once.** -/
theorem runtimeEvent_idempotent (D : Decimals) (r : RuntimeReport) (t : RuntimeTables) :
    r.commitTables D (r.commitTables D t) = r.commitTables D t := by
  unfold RuntimeReport.commitTables
  cases h : r.recordTables D t with
  | error err => simp only [h]
  | ok u => simp only [recordTables_again h]

end HollysysController
