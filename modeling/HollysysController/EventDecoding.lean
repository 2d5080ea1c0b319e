import Mathlib.Data.List.TakeWhile
import HollysysController.Poll
import HollysysController.Python.Values

/-! # What a polled event may hold

The payload of an event is JSON that a worker wrote. The conversions that
`_record_agent_lifecycle_event` and `record_card_runtime_event` apply to it, and the events for
which none of them fails. -/

namespace HollysysController

open Python (Value Text Double PyError Decimals codePoints codePoints_injective encode)

/-- An event with the payload that `json.loads` gives for it. -/
structure RawEvent where
  id : Nat
  board : String
  taskId : CardId
  runId : Option Nat := none
  kind : String
  payload : Value := .none
  createdAt : Nat
  /-- The column is an integer of SQLite. -/
  stored : createdAt < 2 ^ 63

inductive EventError where
  | controller (e : ControllerError)
  | python (e : PyError)
  deriving DecidableEq, Repr

/-! ## Decoding -/

/-- The arguments of `record_card_runtime_event`, with what is read of the payload. -/
structure RuntimeReport where
  board : String
  cardId : CardId
  kind : String
  createdAt : Nat
  leaseSeconds : Nat
  runId : Option String
  session : Option Text
  pid : Option Int
  metrics : List (String × Double)
  toolCategories : Value
  toolCount : Value
  elapsedSeconds : Value

/-- The metrics of a progress event, in the order in which they are recorded. -/
def metricNames : List String := ["model_wait", "tool_execution", "delegation_wait", "retry_wait"]

/-- The metrics among `names` that are numbers and not negative. -/
def countedMetrics (raw : List (Text × Value)) :
    List String → Except PyError (List (String × Double))
  | [] => .ok []
  | name :: names =>
    match (Value.get raw name).bind Value.counted with
    | none => countedMetrics raw names
    | some counted => do
      let x ← counted
      let rest ← countedMetrics raw names
      .ok ((name, x) :: rest)

namespace RawEvent

variable (event : RawEvent)

/-- `event.payload.get(key)`, when the payload is a dictionary. -/
def field (key : String) : Option Value := event.payload.asDict.bind (Value.get · key)

/-- The session that the payload names, when it is a text that is not blank. -/
def namedSession : Option Text :=
  match event.field "worker_session_id" with
  | some (.str t) => if t.all Python.CodePoint.isSpace then none else some t
  | _ => none

def session : Option Text :=
  match event.namedSession with
  | some t => some t
  | none => event.runId.map fun runId => codePoints s!"kanban-run:{runId}"

def pid : Option Int :=
  let candidate := match event.field "worker_pid" with
    | some v => some v
    | none => event.field "pid"
  (candidate.bind Value.asInt).filter (0 < ·)

/-- The metrics of the payload. Only those of a progress event are read. -/
def rawMetrics : List (Text × Value) :=
  if event.kind = "progress" then ((event.field "metrics").bind Value.asDict).getD [] else []

/-- What is passed to the store, with the metrics. -/
def reportOf (cfg : Config) (managed : ManagedCard) (metrics : List (String × Double)) :
    RuntimeReport where
  board := managed.board
  cardId := managed.cardId
  kind := event.kind
  createdAt := event.createdAt
  leaseSeconds := cfg.workerProgressLeaseSeconds
  runId := event.runId.map fun runId => s!"{managed.board}:{runId}"
  session := event.session
  pid := event.pid
  metrics
  toolCategories := (event.field "tool_categories").getD .none
  toolCount := (event.field "tool_count").getD (.int 0)
  elapsedSeconds := (event.field "elapsed_seconds").getD (.int 0)

def report (cfg : Config) (managed : ManagedCard) : Except PyError RuntimeReport :=
  (countedMetrics event.rawMetrics metricNames).map (event.reportOf cfg managed)

end RawEvent

/-! ## Recording -/

/-- The largest integer of SQLite is below this. -/
def sqliteLimit : Int := 2 ^ 63

structure ProgressSummary where
  toolCategories : List (Text × Int)
  toolCount : Int
  elapsedSeconds : Int

namespace RuntimeReport

variable (r : RuntimeReport)

/-- The event without what it says about the worker. -/
def frame : RuntimeEvent where
  board := r.board
  cardId := r.cardId
  kind := r.kind
  createdAt := r.createdAt
  workerSessionId := none
  leaseSeconds := r.leaseSeconds
  runId := r.runId

/-- The report names a session other than the one of the row. -/
def otherSession (p : CardRuntime) : Bool :=
  r.session.any (· ≠ []) && r.session != p.workerSessionId.map codePoints

def newSession (previous : Option CardRuntime) : Bool :=
  r.frame.started && previous.any r.otherSession

def preservesFinished (previous : Option CardRuntime) : Bool :=
  previous.any (·.finishedAt.isSome) && !r.frame.terminal && !r.newSession previous

def fromOldSession (previous : Option CardRuntime) : Bool :=
  !r.frame.started && previous.any fun p => truthy p.workerSessionId && r.otherSession p

def replayedStart (previous : Option CardRuntime) : Bool :=
  r.newSession previous && previous.any fun p =>
    p.workerStartedAt.any fun t => decide (r.createdAt < t)

/-- The report reaches the `card_runtime` row. -/
def written (previous : Option CardRuntime) : Bool :=
  !r.preservesFinished previous && !r.fromOldSession previous && !r.replayedStart previous

/-- The worker as SQLite takes it: a number of 64 bits and a text in UTF-8. -/
def bound : Except PyError RuntimeEvent :=
  if r.pid.any (sqliteLimit ≤ ·) then .error .overflow
  else match r.session with
    | none => .ok { r.frame with workerPid := r.pid.map Int.toNat }
    | some t => match encode t with
      | none => .error .unicodeEncode
      | some session => .ok { r.frame with
          workerPid := r.pid.map Int.toNat
          workerSessionId := some (String.ofList session) }

/-- The summary of a progress event. Its JSON is written in ASCII. -/
def summary (D : Decimals) : Except PyError ProgressSummary := do
  let toolCount ← r.toolCount.toInt D
  let elapsedSeconds ← r.elapsedSeconds.toInt D
  .ok {
    toolCategories := (r.toolCategories.asDict.getD []).filterMap fun (key, value) =>
      (value.asInt.filter (0 ≤ ·)).map (key.take 32, ·)
    toolCount := max 0 toolCount
    elapsedSeconds := max 0 elapsedSeconds }

/-- The duration of a metric in milliseconds, as SQLite takes it. -/
def duration (x : Double) : Except PyError Int :=
  match (x.mul (.fin 1000)).toInt with
  | .error e => .error e.raised
  | .ok n => if sqliteLimit ≤ max 0 n then .error .overflow else .ok (max 0 n)

def durations : List (String × Double) → Except PyError (List (String × Int))
  | [] => .ok []
  | (name, x) :: metrics => do
    let n ← duration x
    let rest ← durations metrics
    .ok ((name, n) :: rest)

/-- The attempt of another card, or of another run, has the run id already. -/
def conflicts (s : Store) (managed : ManagedCard) (runId : String) : Bool :=
  (s.cardAttempts.find? (·.runId == runId)).any fun a =>
    a.board ≠ r.board ∨ a.cardId ≠ r.cardId ∨ a.runKey ≠ managed.runKey

/-- The attempt part of `record_card_runtime_event`. -/
def recordAttempt (D : Decimals) (runId : String) (s : Store) : Except EventError Store :=
  match s.managedCard r.board r.cardId with
  | none => .error (.controller (.valueError s!"unknown_managed_card:{r.board}:{r.cardId.text}"))
  | some managed =>
    if r.conflicts s managed runId then
      .error (.controller (.fatal s!"attempt_run_id_conflict:{runId}"))
    else do
      let e ← r.bound.mapError .python
      let (_, s) ← (HollysysController.recordAttempt e runId s).mapError .controller
      if r.kind = "progress" ∧ r.metrics ≠ [] then
        let _ ← (r.summary D).mapError EventError.python
        let _ ← (durations r.metrics).mapError EventError.python
        .ok s
      else .ok s

/-- The row of the card over `previous`. -/
def recordRow (previous : Option CardRuntime) (s : Store) : Except EventError Store :=
  if r.written previous then do
    let e ← r.bound.mapError EventError.python
    if e.progress = true ∧ sqliteLimit ≤ e.createdAt + e.leaseSeconds then .error (.python .overflow)
    else .ok { s with cardRuntime := s.cardRuntime.put e.key (e.runtimeRow previous) }
  else .ok s

/-- `record_card_runtime_event`. An exception leaves the store as it is. -/
def record (D : Decimals) (s : Store) : Except EventError Store :=
  let previous := s.cardRuntime r.frame.key
  if r.preservesFinished previous ∧ r.kind ≠ "worker_exited" then .ok s
  else match r.runId with
    | some runId => r.recordAttempt D runId s >>= r.recordRow previous
    | none => r.recordRow previous s

end RuntimeReport

/-- What `poll_once` records of an event: `_record_agent_lifecycle_event` up to the store. -/
def recordRawEvent (D : Decimals) (cfg : Config) (event : RawEvent) (s : Store) :
    Except EventError Store :=
  match s.managedCard event.board event.taskId with
  | none => .ok s
  | some managed =>
    if managed.purpose ≠ .work then .ok s
    else do
      let report ← (event.report cfg managed).mapError .python
      report.record D s

/-! ## The law -/

/-- The exceptions that the poll is prepared for. -/
inductive EventError.Expected : EventError → Prop
  | dependency (kind text context) : Expected (.controller (.dependency kind text context))
  | conflict (runId : String) : Expected (.controller (.fatal s!"attempt_run_id_conflict:{runId}"))

/-- Recording the event raises nothing else. -/
def DecodesWell (D : Decimals) (cfg : Config) (event : RawEvent) (s : Store) : Prop :=
  ∀ e, recordRawEvent D cfg event s = .error e → e.Expected

/-! ## Single conversions -/

theorem mapError_ok_iff {α ε δ : Type} {x : Except ε α} {f : ε → δ} :
    (∃ a, x.mapError f = .ok a) ↔ ∃ a, x = .ok a := by
  cases x <;> simp [Except.mapError]

/-- A metric that is counted is a float that is not negative. -/
theorem counted_value {v : Value} {x : Double} (h : v.counted = some (.ok x)) :
    x = .inf false ∨ ∃ q, x = .fin q ∧ 0 ≤ q := by
  have hint : ∀ n : Int, (if 0 ≤ n then
      some ((Double.ofInt n).mapError Python.NumberError.raised) else none) = some (.ok x) →
      ∃ q, x = .fin q ∧ 0 ≤ q := by
    intro n hn
    split at hn
    next hnonneg =>
      have hq : (0 : Rat) ≤ n := by exact_mod_cast hnonneg
      delta Double.ofInt at hn
      split at hn
      next q hround =>
        cases hn
        exact ⟨q, rfl, (Double.round_fin hq hround).1⟩
      next => cases hn
    next => cases hn
  cases v with
  | none => cases h
  | str s => cases h
  | list items => cases h
  | dict entries => cases h
  | bool b => exact .inr (hint _ h)
  | int n => exact .inr (hint n h)
  | float y =>
    by_cases hcounted : y = .nan ∨ y.lt (.fin 0) = true
    · rw [Value.counted, if_pos hcounted] at h
      cases h
    · rw [Value.counted, if_neg hcounted] at h
      obtain rfl := Except.ok.inj (Option.some.inj h)
      rw [not_or] at hcounted
      cases y with
      | nan => exact absurd rfl hcounted.1
      | inf negative =>
        left
        cases negative with
        | false => rfl
        | true => exact absurd rfl hcounted.2
      | fin q =>
        right
        refine ⟨q, rfl, ?_⟩
        simpa [Double.lt] using hcounted.2

theorem counted_ok_iff {v : Value} :
    (∀ e, v.counted ≠ some (.error e)) ↔ ∀ n, v = .int n → n < Double.intLimit := by
  have hint : ∀ n : Int, (∀ e, (if 0 ≤ n then
      some ((Double.ofInt n).mapError Python.NumberError.raised) else none) ≠ some (.error e)) ↔
      n < Double.intLimit := by
    intro n
    split
    next hnonneg =>
      rw [← Double.ofInt_ok_iff hnonneg]
      cases Double.ofInt n with
      | error e => simp [Except.mapError]
      | ok x => simp [Except.mapError]
    next hneg =>
      have hlarge := Double.one_lt_intLimit
      constructor
      · intro _
        omega
      · intro _ e he
        cases he
  cases v with
  | none => simp [Value.counted, Value.asInt]
  | str s => simp [Value.counted, Value.asInt]
  | list items => simp [Value.counted, Value.asInt]
  | dict entries => simp [Value.counted, Value.asInt]
  | bool b =>
    have hsmall : (if b then 1 else 0 : Int) < Double.intLimit := by
      have hlarge := Double.one_lt_intLimit
      split <;> omega
    constructor
    · intro _ n hn
      cases hn
    · intro _
      exact (hint _).mpr hsmall
  | int n =>
    constructor
    · rintro h _ ⟨⟩
      exact (hint n).mp h
    · intro h
      exact (hint n).mpr (h n rfl)
  | float x =>
    constructor
    · intro _ n hn
      cases hn
    · intro _ e he
      by_cases hcounted : x = .nan ∨ x.lt (.fin 0) = true
      · rw [Value.counted, if_pos hcounted] at he
        cases he
      · rw [Value.counted, if_neg hcounted] at he
        cases he

theorem countedMetrics_ok_iff {raw : List (Text × Value)} {names : List String} :
    (∃ metrics, countedMetrics raw names = .ok metrics) ↔
      ∀ name ∈ names, ∀ n, Value.get raw name = some (.int n) → n < Double.intLimit := by
  induction names with
  | nil => simp [countedMetrics]
  | cons name names ih =>
    have hhead : (∀ e, (Value.get raw name).bind Value.counted ≠ some (.error e)) ↔
        ∀ n, Value.get raw name = some (.int n) → n < Double.intLimit := by
      cases Value.get raw name with
      | none => simp
      | some v => simpa using counted_ok_iff (v := v)
    rw [List.forall_mem_cons, ← ih, ← hhead, countedMetrics]
    cases (Value.get raw name).bind Value.counted with
    | none => simp
    | some counted =>
      cases counted with
      | error e => simp [bind, Except.bind]
      | ok x =>
        cases countedMetrics raw names with
        | error e => simp [bind, Except.bind]
        | ok metrics => simp [bind, Except.bind]

theorem mem_countedMetrics {raw : List (Text × Value)} {names : List String}
    {metrics : List (String × Double)} (h : countedMetrics raw names = .ok metrics)
    (name : String) (x : Double) :
    (name, x) ∈ metrics ↔ name ∈ names ∧ (Value.get raw name).bind Value.counted = some (.ok x) := by
  induction names generalizing metrics with
  | nil =>
    cases h
    simp
  | cons first names ih =>
    rw [countedMetrics] at h
    cases hfirst : (Value.get raw first).bind Value.counted with
    | none =>
      rw [hfirst] at h
      rw [ih h, List.mem_cons]
      constructor
      · rintro ⟨hmem, hx⟩
        exact ⟨.inr hmem, hx⟩
      · rintro ⟨rfl | hmem, hx⟩
        · rw [hfirst] at hx
          cases hx
        · exact ⟨hmem, hx⟩
    | some counted =>
      rw [hfirst] at h
      cases counted with
      | error e => simp [bind, Except.bind] at h
      | ok y =>
        cases hrest : countedMetrics raw names with
        | error e => simp [hrest, bind, Except.bind] at h
        | ok rest =>
          simp only [hrest, bind, Except.bind, Except.ok.injEq] at h
          rw [← h, List.mem_cons, List.mem_cons, ih hrest, Prod.mk.injEq]
          constructor
          · rintro (⟨rfl, rfl⟩ | ⟨hmem, hx⟩)
            · exact ⟨.inl rfl, hfirst⟩
            · exact ⟨.inr hmem, hx⟩
          · rintro ⟨rfl | hmem, hx⟩
            · rw [hfirst] at hx
              cases hx
              exact .inl ⟨rfl, rfl⟩
            · exact .inr ⟨hmem, hx⟩

/-- The worker fits SQLite. -/
def WorkerFits (pid : Option Int) (session : Option Text) : Prop :=
  (∀ n, pid = some n → n < sqliteLimit) ∧ ∀ t, session = some t → ∃ s : List Char, t = s.map .char

theorem bound_ok_iff {r : RuntimeReport} :
    (∃ e, r.bound = .ok e) ↔ WorkerFits r.pid r.session := by
  unfold RuntimeReport.bound WorkerFits
  by_cases hpid : r.pid.any (sqliteLimit ≤ ·) = true
  · rw [if_pos hpid]
    obtain ⟨n, hn, hlarge⟩ : ∃ n, r.pid = some n ∧ sqliteLimit ≤ n := by
      simpa [Option.any_eq_true] using hpid
    constructor
    · rintro ⟨e, he⟩
      cases he
    · intro h
      exact absurd (h.1 n hn) (by omega)
  · rw [if_neg hpid]
    have hsmall : ∀ n, r.pid = some n → n < sqliteLimit := by
      intro n hn
      rw [hn] at hpid
      simpa using hpid
    cases hsession : r.session with
    | none => exact ⟨fun _ => ⟨hsmall, nofun⟩, fun _ => ⟨_, rfl⟩⟩
    | some t =>
      cases ht : encode t with
      | none =>
        constructor
        · rintro ⟨e, he⟩
          simp [ht] at he
        · intro h
          obtain ⟨s, rfl⟩ := h.2 t rfl
          rw [Python.encode_map] at ht
          cases ht
      | some s =>
        simp only [ht]
        refine ⟨fun _ => ⟨hsmall, ?_⟩, fun _ => ⟨_, rfl⟩⟩
        rintro _ ⟨⟩
        exact ⟨s, Python.encode_eq_some.mp ht⟩

theorem summary_ok_iff {D : Decimals} {r : RuntimeReport} :
    (∃ summary, r.summary D = .ok summary) ↔ r.toolCount.Countable D ∧ r.elapsedSeconds.Countable D := by
  rw [← Value.toInt_ok_iff, ← Value.toInt_ok_iff, RuntimeReport.summary]
  cases r.toolCount.toInt D with
  | error e => simp [bind, Except.bind]
  | ok toolCount =>
    cases r.elapsedSeconds.toInt D with
    | error e => simp [bind, Except.bind]
    | ok elapsedSeconds => simp [bind, Except.bind]

/-- A duration of fewer than `2 ** 63` milliseconds, after rounding. -/
def DurationFits (x : Double) : Prop := ∃ q, x = .fin q ∧ q * 1000 < 2 ^ 63 - 2 ^ 9

theorem duration_ok_iff {x : Double} (h : x = .inf false ∨ ∃ q, x = .fin q ∧ 0 ≤ q) :
    (∃ n, RuntimeReport.duration x = .ok n) ↔ DurationFits x := by
  rcases h with rfl | ⟨q, rfl, hq⟩
  · simp [RuntimeReport.duration, DurationFits, Double.mul, Double.toInt]
  · have hfits : DurationFits (.fin q) ↔ q * 1000 < 2 ^ 63 - 2 ^ 9 := by
      simp [DurationFits]
    rw [hfits, ← Double.toInt_round_iff (by positivity)]
    show (∃ n, (match (Double.round (q * 1000)).toInt with
      | .error e => Except.error e.raised
      | .ok n => if sqliteLimit ≤ max 0 n then .error .overflow else .ok (max 0 n)) = .ok n) ↔ _
    cases hint : (Double.round (q * 1000)).toInt with
    | error e => simp
    | ok n =>
      by_cases hlarge : sqliteLimit ≤ max 0 n
      · have hn : 9223372036854775808 ≤ n := by
          unfold sqliteLimit at hlarge
          omega
        simpa [hlarge] using hn
      · have hn : n < 9223372036854775808 := by
          unfold sqliteLimit at hlarge
          omega
        simpa [hlarge] using hn

theorem durations_ok_iff {metrics : List (String × Double)}
    (h : ∀ name x, (name, x) ∈ metrics → x = .inf false ∨ ∃ q, x = .fin q ∧ 0 ≤ q) :
    (∃ ns, RuntimeReport.durations metrics = .ok ns) ↔
      ∀ name x, (name, x) ∈ metrics → DurationFits x := by
  induction metrics with
  | nil => simp [RuntimeReport.durations]
  | cons metric metrics ih =>
    obtain ⟨name, x⟩ := metric
    have hrest := ih fun name x hmem => h name x (by simp [hmem])
    have hfirst := duration_ok_iff (h name x (by simp))
    have hsplit : (∀ name' x', (name', x') ∈ (name, x) :: metrics → DurationFits x') ↔
        DurationFits x ∧ ∀ name' x', (name', x') ∈ metrics → DurationFits x' := by
      constructor
      · intro hall
        exact ⟨hall name x (by simp), fun name' x' hmem => hall name' x' (by simp [hmem])⟩
      · rintro ⟨hx, hall⟩ name' x' hmem
        rcases List.mem_cons.mp hmem with heq | hmem
        · obtain ⟨-, rfl⟩ := Prod.mk.inj heq
          exact hx
        · exact hall name' x' hmem
    rw [hsplit, ← hrest, ← hfirst, RuntimeReport.durations]
    cases RuntimeReport.duration x with
    | error e => simp [bind, Except.bind]
    | ok n =>
      cases RuntimeReport.durations metrics with
      | error e => simp [bind, Except.bind]
      | ok rest => simp [bind, Except.bind]

/-! ## The recording -/

/-- The result is no exception, or one that the poll is prepared for. -/
def Tolerated {α : Type} (x : Except EventError α) : Prop := ∀ e, x = .error e → e.Expected

theorem tolerated_ok {α : Type} (a : α) : Tolerated (.ok a : Except EventError α) := by
  intro e he
  cases he

theorem tolerated_error {α : Type} {e : EventError} :
    Tolerated (.error e : Except EventError α) ↔ e.Expected := by
  constructor
  · intro h
    exact h e rfl
  · rintro h _ ⟨⟩
    exact h

/-- An exception of Python is never expected. -/
theorem tolerated_python {α β : Type} {x : Except PyError α} {f : α → Except EventError β} :
    Tolerated (x.mapError .python >>= f) ↔ ∃ a, x = .ok a ∧ Tolerated (f a) := by
  cases x with
  | error e =>
    constructor
    · intro h
      cases h (.python e) rfl
    · rintro ⟨a, ha, -⟩
      cases ha
  | ok a =>
    constructor
    · intro h
      exact ⟨a, rfl, h⟩
    · rintro ⟨_, ⟨⟩, h⟩
      exact h

theorem databaseError_unexpected : ¬ (EventError.controller databaseError).Expected := by
  intro h
  obtain ⟨runId, htext⟩ : ∃ runId : String,
      "controller_store_database_error" = "attempt_run_id_conflict:" ++ runId := by
    generalize he : EventError.controller databaseError = e at h
    cases h with
    | dependency => cases he
    | conflict runId => exact ⟨runId, by injection he with he; injection he⟩
  have hhead := congrArg (fun text : String => text.toList.head?) htext
  simp [String.toList_append] at hhead

namespace RuntimeReport

variable {r : RuntimeReport} {e : RuntimeEvent}

/-- SQLite takes what the report says, as it is. -/
theorem bound_eq (h : r.bound = .ok e) : e = { r.frame with
    workerPid := e.workerPid, workerSessionId := e.workerSessionId } := by
  unfold bound at h
  split at h
  next => cases h
  next =>
    split at h
    next =>
      cases h
      rfl
    next =>
      split at h
      next => cases h
      next =>
        cases h
        rfl

variable {D : Decimals} {s : Store} {managed : ManagedCard} {runId : String}

/-- The attempt of the report has a row, or a run that the row can refer to. -/
def Registered (s : Store) (managed : ManagedCard) (runId : String) : Prop :=
  s.cardAttempts.find? (·.runId == runId) = none → (s.runRecord managed.runKey).isSome = true

theorem storeAttempt_cases (hmanaged : s.managedCard r.board r.cardId = some managed)
    (hfree : r.conflicts s managed runId = false) (hbound : r.bound = .ok e) :
    (Registered s managed runId ∧ ∃ s', HollysysController.recordAttempt e runId s = .ok ((), s')) ∨
      (¬ Registered s managed runId ∧
        HollysysController.recordAttempt e runId s = .error databaseError) := by
  obtain ⟨hboard, hcard⟩ : e.board = r.board ∧ e.cardId = r.cardId := by
    rw [bound_eq hbound]
    exact ⟨rfl, rfl⟩
  unfold HollysysController.recordAttempt Registered
  rw [hboard, hcard, hmanaged]
  cases hfind : s.cardAttempts.find? (·.runId == runId) with
  | none =>
    cases hrun : s.runRecord managed.runKey with
    | none => exact .inr ⟨by simp, by simp [hrun]⟩
    | some run =>
      refine .inl ⟨by simp, ?_⟩
      simp only [hrun, Option.isNone_some, Bool.false_eq_true, if_false]
      exact ⟨_, rfl⟩
  | some a =>
    have hown : ¬ (a.board ≠ r.board ∨ a.cardId ≠ r.cardId ∨ a.runKey ≠ managed.runKey) := by
      simpa [conflicts, hfind] using hfree
    refine .inl ⟨nofun, ?_⟩
    simp only [if_neg hown]
    exact ⟨_, rfl⟩

/-- What a recorded attempt needs of the report. -/
structure AttemptFits (D : Decimals) (s : Store) (managed : ManagedCard) (runId : String)
    (r : RuntimeReport) : Prop where
  worker : WorkerFits r.pid r.session
  registered : Registered s managed runId
  counts : r.kind = "progress" → r.metrics ≠ [] →
    r.toolCount.Countable D ∧ r.elapsedSeconds.Countable D
  durations : r.kind = "progress" → ∀ name x, (name, x) ∈ r.metrics → DurationFits x

theorem recordAttempt_conflict (hmanaged : s.managedCard r.board r.cardId = some managed)
    (h : r.conflicts s managed runId = true) : r.recordAttempt D runId s =
      .error (.controller (.fatal s!"attempt_run_id_conflict:{runId}")) := by
  unfold recordAttempt
  rw [hmanaged]
  exact if_pos h

/-- The metrics of the report are recorded exactly when their numbers fit. -/
theorem metrics_tolerated {f : Store → Except EventError Store} {P : Prop}
    (hcounted : ∀ name x, (name, x) ∈ r.metrics → x = .inf false ∨ ∃ q, x = .fin q ∧ 0 ≤ q)
    (hf : Tolerated (f s) ↔ P) :
    Tolerated ((if r.kind = "progress" ∧ r.metrics ≠ [] then do
        let _ ← (r.summary D).mapError EventError.python
        let _ ← (RuntimeReport.durations r.metrics).mapError EventError.python
        .ok s
      else .ok s) >>= f) ↔
      (r.kind = "progress" → r.metrics ≠ [] →
        r.toolCount.Countable D ∧ r.elapsedSeconds.Countable D) ∧
      (r.kind = "progress" → ∀ name x, (name, x) ∈ r.metrics → DurationFits x) ∧ P := by
  by_cases hprogress : r.kind = "progress" ∧ r.metrics ≠ []
  · rw [if_pos hprogress, bind_assoc, tolerated_python]
    simp only [bind_assoc, tolerated_python]
    constructor
    · rintro ⟨summary, hsummary, ns, hns, hpass⟩
      exact ⟨fun _ _ => summary_ok_iff.mp ⟨summary, hsummary⟩,
        fun _ => (durations_ok_iff hcounted).mp ⟨ns, hns⟩, hf.mp hpass⟩
    · rintro ⟨hcounts, hdurations, hP⟩
      obtain ⟨summary, hsummary⟩ := summary_ok_iff.mpr (hcounts hprogress.1 hprogress.2)
      obtain ⟨ns, hns⟩ := (durations_ok_iff hcounted).mpr (hdurations hprogress.1)
      exact ⟨summary, hsummary, ns, hns, hf.mpr hP⟩
  · rw [if_neg hprogress]
    have hnone : r.kind = "progress" → r.metrics = [] := by
      intro hkind
      by_contra hmetrics
      exact hprogress ⟨hkind, hmetrics⟩
    constructor
    · intro hpass
      refine ⟨fun hkind hmetrics => absurd (hnone hkind) hmetrics, ?_, hf.mp hpass⟩
      intro hkind name x hmem
      rw [hnone hkind] at hmem
      cases hmem
    · rintro ⟨-, -, hP⟩
      exact hf.mpr hP

/-- Without a conflict the attempt is recorded exactly when the report fits; else an exception
ends the poll. -/
theorem recordAttempt_tolerated {f : Store → Except EventError Store} {P : Prop}
    (hmanaged : s.managedCard r.board r.cardId = some managed)
    (hcounted : ∀ name x, (name, x) ∈ r.metrics → x = .inf false ∨ ∃ q, x = .fin q ∧ 0 ≤ q)
    (hfree : r.conflicts s managed runId = false) (hf : ∀ s', Tolerated (f s') ↔ P) :
    Tolerated (r.recordAttempt D runId s >>= f) ↔ AttemptFits D s managed runId r ∧ P := by
  unfold recordAttempt
  rw [hmanaged]
  simp only [hfree, Bool.false_eq_true, if_false, bind_assoc, tolerated_python]
  constructor
  · rintro ⟨e, hbound, hpass⟩
    rcases storeAttempt_cases hmanaged hfree hbound with ⟨hregistered, s', hs'⟩ | ⟨-, herror⟩
    · rw [hs'] at hpass
      obtain ⟨hcounts, hdurations, hP⟩ := (metrics_tolerated hcounted (hf s')).mp hpass
      exact ⟨⟨bound_ok_iff.mp ⟨e, hbound⟩, hregistered, hcounts, hdurations⟩, hP⟩
    · rw [herror] at hpass
      exact absurd (tolerated_error.mp hpass) databaseError_unexpected
  · rintro ⟨⟨hworker, hregistered, hcounts, hdurations⟩, hP⟩
    obtain ⟨e, hbound⟩ := bound_ok_iff.mpr hworker
    refine ⟨e, hbound, ?_⟩
    rcases storeAttempt_cases hmanaged hfree hbound with ⟨-, s', hs'⟩ | ⟨hnone, -⟩
    · rw [hs']
      exact (metrics_tolerated hcounted (hf s')).mpr ⟨hcounts, hdurations, hP⟩
    · exact absurd hregistered hnone

/-- What the `card_runtime` row needs of the report. -/
structure RowFits (r : RuntimeReport) : Prop where
  worker : WorkerFits r.pid r.session
  deadline : r.frame.progress = true → (r.createdAt + r.leaseSeconds : Int) < sqliteLimit

theorem row_tolerated (r : RuntimeReport) (previous : Option CardRuntime) (s : Store) :
    Tolerated (r.recordRow previous s) ↔ (r.written previous = true → RowFits r) := by
  unfold recordRow
  by_cases hwritten : r.written previous = true
  · rw [if_pos hwritten, tolerated_python]
    have hrow : ∀ e, r.bound = .ok e → e.progress = r.frame.progress ∧
        e.createdAt = r.createdAt ∧ e.leaseSeconds = r.leaseSeconds := fun e he => by
      rw [bound_eq he]
      exact ⟨rfl, rfl, rfl⟩
    constructor
    · rintro ⟨e, he, hpass⟩ -
      obtain ⟨hprogress, hcreated, hlease⟩ := hrow e he
      refine ⟨bound_ok_iff.mp ⟨e, he⟩, fun hp => ?_⟩
      by_contra hlate
      rw [hprogress, hcreated, hlease, if_pos ⟨hp, not_lt.mp hlate⟩] at hpass
      cases tolerated_error.mp hpass
    · intro h
      obtain ⟨e, he⟩ := bound_ok_iff.mpr (h hwritten).worker
      obtain ⟨hprogress, hcreated, hlease⟩ := hrow e he
      refine ⟨e, he, ?_⟩
      rw [if_neg]
      · exact tolerated_ok _
      · rintro ⟨hp, hlate⟩
        rw [hprogress] at hp
        rw [hcreated, hlease] at hlate
        exact absurd ((h hwritten).deadline hp) (not_lt.mpr hlate)
  · rw [if_neg hwritten]
    exact ⟨fun _ h => absurd h hwritten, fun _ => tolerated_ok _⟩

/-- The report is of a worker that the finished row no longer takes. -/
def Dropped (r : RuntimeReport) (s : Store) : Prop :=
  r.preservesFinished (s.cardRuntime r.frame.key) = true ∧ r.kind ≠ "worker_exited"

/-- The report is recorded, or its attempt belongs elsewhere. -/
def Recordable (D : Decimals) (managed : ManagedCard) (r : RuntimeReport) (s : Store) : Prop :=
  r.Dropped s ∨ (∃ runId, r.runId = some runId ∧ r.conflicts s managed runId = true) ∨
    (∀ runId, r.runId = some runId → AttemptFits D s managed runId r) ∧
      (r.written (s.cardRuntime r.frame.key) = true → RowFits r)

theorem record_tolerated (hmanaged : s.managedCard r.board r.cardId = some managed)
    (hcounted : ∀ name x, (name, x) ∈ r.metrics → x = .inf false ∨ ∃ q, x = .fin q ∧ 0 ≤ q) :
    Tolerated (r.record D s) ↔ Recordable D managed r s := by
  unfold record Recordable
  extract_lets previous
  by_cases hdropped : r.Dropped s
  · rw [if_pos (show r.preservesFinished previous = true ∧ r.kind ≠ "worker_exited" from hdropped)]
    exact ⟨fun _ => .inl hdropped, fun _ => tolerated_ok _⟩
  · rw [if_neg (show ¬ (r.preservesFinished previous = true ∧ r.kind ≠ "worker_exited") from hdropped)]
    cases hrun : r.runId with
    | none =>
      simp only [reduceCtorEq, false_and, exists_false, false_or, false_implies, implies_true,
        true_and, hdropped]
      exact row_tolerated r previous s
    | some runId =>
      cases hconflict : r.conflicts s managed runId with
      | true =>
        have herror := recordAttempt_conflict (D := D) hmanaged hconflict
        constructor
        · intro _
          exact .inr (.inl ⟨runId, rfl, hconflict⟩)
        · intro _
          simp only [herror]
          exact tolerated_error.mpr (.conflict runId)
      | false =>
        have hpasses := recordAttempt_tolerated (D := D) hmanaged hcounted hconflict
          (row_tolerated r previous)
        refine hpasses.trans ?_
        simp only [hdropped, hconflict, Option.some.injEq, exists_eq_left', Bool.false_eq_true,
          false_or, forall_eq']
        exact Iff.rfl

end RuntimeReport

/-! ## The events that are recorded -/

namespace RawEvent

variable (event : RawEvent)

/-- What `float` needs of the metrics: no integer that is rounded beyond the doubles. -/
def FloatsFit : Prop :=
  ∀ name ∈ metricNames, ∀ n, Value.get event.rawMetrics name = some (.int n) → n < Double.intLimit

/-- The event has a number, not negative, for the metric. -/
def Counted (name : String) (x : Double) : Prop :=
  name ∈ metricNames ∧ (Value.get event.rawMetrics name).bind Value.counted = some (.ok x)

variable (cfg : Config) (managed : ManagedCard) (s : Store)

/-- The finished row of the card no longer takes the event. -/
def Dropped : Prop := (event.reportOf cfg managed []).Dropped s

/-- The Hermes run of the event is an attempt of another card, or of another run. -/
def Conflicts : Prop :=
  ∃ runId, event.runId = some runId ∧
    (event.reportOf cfg managed []).conflicts s managed s!"{managed.board}:{runId}" = true

/-- The event reaches the row of the card. -/
def Written : Prop :=
  (event.reportOf cfg managed []).written (s.cardRuntime (managed.board, managed.cardId)) = true

/-- What an event that is recorded may hold. -/
structure Fits (D : Decimals) : Prop where
  worker : event.runId.isSome = true ∨ event.Written cfg managed s →
    WorkerFits event.pid event.session
  registered : ∀ runId, event.runId = some runId →
    RuntimeReport.Registered s managed s!"{managed.board}:{runId}"
  counts : event.runId.isSome = true → (∃ name x, event.Counted name x) →
    ∀ field ∈ ["tool_count", "elapsed_seconds"], ∀ v, event.field field = some v → v.Countable D
  durations : event.runId.isSome = true → ∀ name x, event.Counted name x → DurationFits x
  deadline : event.Written cfg managed s → (event.reportOf cfg managed []).frame.progress = true →
    (event.createdAt + cfg.workerProgressLeaseSeconds : Int) < sqliteLimit

end RawEvent

section Recorded

variable {D : Decimals} {cfg : Config} {managed : ManagedCard} {event : RawEvent} {s : Store}

theorem Counted.progress {name : String} {x : Double} (h : event.Counted name x) :
    event.kind = "progress" := by
  by_contra hkind
  have hnone := h.2
  rw [RawEvent.rawMetrics, if_neg hkind] at hnone
  cases hnone

theorem metrics_ne_nil_iff {metrics : List (String × Double)}
    (hmetrics : countedMetrics event.rawMetrics metricNames = .ok metrics) :
    metrics ≠ [] ↔ ∃ name x, event.Counted name x := by
  constructor
  · intro hne
    obtain ⟨⟨name, x⟩, hmem⟩ := List.exists_mem_of_ne_nil metrics hne
    exact ⟨name, x, (mem_countedMetrics hmetrics name x).mp hmem⟩
  · rintro ⟨name, x, hcounted⟩ rfl
    cases (mem_countedMetrics hmetrics name x).mpr hcounted

theorem countable_getD {field : Option Value} :
    (field.getD (.int 0)).Countable D ↔ ∀ v, field = some v → v.Countable D := by
  cases field with
  | none => simp [Value.Countable]
  | some v => simp

theorem recordable_iff {metrics : List (String × Double)}
    (hmetrics : countedMetrics event.rawMetrics metricNames = .ok metrics) :
    RuntimeReport.Recordable D managed (event.reportOf cfg managed metrics) s ↔
      event.Dropped cfg managed s ∨ event.Conflicts cfg managed s ∨ event.Fits cfg managed s D := by
  have hrun : (event.reportOf cfg managed metrics).runId =
      event.runId.map fun runId => s!"{managed.board}:{runId}" := rfl
  refine or_congr Iff.rfl (or_congr ?_ ?_)
  · rw [hrun]
    constructor
    · rintro ⟨_, heq, hconflict⟩
      obtain ⟨runId, hid, rfl⟩ := Option.map_eq_some_iff.mp heq
      exact ⟨runId, hid, hconflict⟩
    · rintro ⟨runId, hid, hconflict⟩
      exact ⟨_, Option.map_eq_some_iff.mpr ⟨runId, hid, rfl⟩, hconflict⟩
  · rw [hrun]
    constructor
    · rintro ⟨hattempt, hrow⟩
      have hnamed : ∀ runId, event.runId = some runId → RuntimeReport.AttemptFits D s managed
          s!"{managed.board}:{runId}" (event.reportOf cfg managed metrics) := fun runId hid =>
        hattempt _ (Option.map_eq_some_iff.mpr ⟨runId, hid, rfl⟩)
      refine ⟨?_, fun runId hid => (hnamed runId hid).registered, ?_, ?_,
        fun hwritten => (hrow hwritten).deadline⟩
      · rintro (hid | hwritten)
        · obtain ⟨runId, hid⟩ := Option.isSome_iff_exists.mp hid
          exact (hnamed runId hid).worker
        · exact (hrow hwritten).worker
      · rintro hid ⟨name, x, hcounted⟩ field hfield
        obtain ⟨runId, hid⟩ := Option.isSome_iff_exists.mp hid
        obtain ⟨htools, helapsed⟩ := (hnamed runId hid).counts (Counted.progress hcounted)
          ((metrics_ne_nil_iff hmetrics).mpr ⟨name, x, hcounted⟩)
        have hcases : field = "tool_count" ∨ field = "elapsed_seconds" := by simpa using hfield
        rcases hcases with rfl | rfl
        · exact countable_getD.mp htools
        · exact countable_getD.mp helapsed
      · intro hid name x hcounted
        obtain ⟨runId, hid⟩ := Option.isSome_iff_exists.mp hid
        exact (hnamed runId hid).durations (Counted.progress hcounted) name x
          ((mem_countedMetrics hmetrics name x).mpr hcounted)
    · intro h
      constructor
      · intro _ heq
        obtain ⟨runId, hid, rfl⟩ := Option.map_eq_some_iff.mp heq
        have hsome : event.runId.isSome = true := by rw [hid]; rfl
        refine ⟨h.worker (.inl hsome), h.registered runId hid, ?_, ?_⟩
        · intro _ hne
          have hcount := h.counts hsome ((metrics_ne_nil_iff hmetrics).mp hne)
          exact ⟨countable_getD.mpr (hcount _ (by simp)), countable_getD.mpr (hcount _ (by simp))⟩
        · intro _ name x hmem
          exact h.durations hsome name x ((mem_countedMetrics hmetrics name x).mp hmem)
      · intro hwritten
        exact ⟨h.worker (.inr hwritten), h.deadline hwritten⟩

end Recorded

section Bound

variable {D : Decimals} {r : RuntimeReport} {e : RuntimeEvent} {s s' : Store}

theorem bound_session (h : r.bound = .ok e) : r.session = e.workerSessionId.map codePoints := by
  unfold RuntimeReport.bound at h
  split at h
  next => cases h
  next =>
    split at h
    next hsession =>
      rw [hsession, ← Except.ok.inj h]
      rfl
    next t hsession =>
      split at h
      next => cases h
      next text ht =>
        rw [hsession, ← Except.ok.inj h, Python.encode_eq_some.mp ht]
        simp [codePoints]

/-- The report compares its session with the recorded one as its event does. -/
theorem otherSession_bound (h : r.bound = .ok e) (p : CardRuntime) : r.otherSession p =
    (truthy e.workerSessionId && e.workerSessionId != p.workerSessionId) := by
  unfold RuntimeReport.otherSession truthy
  rw [bound_session h]
  congr 1
  · cases e.workerSessionId with
    | none => rfl
    | some session =>
      have hempty : codePoints session = [] ↔ session = "" :=
        (show [] = codePoints "" from rfl) ▸ codePoints_injective.eq_iff
      rw [Option.map_some, Option.any_some, Option.any_some, Bool.eq_iff_iff, decide_eq_true_eq,
        bne_iff_ne, ne_eq, hempty]
  · rw [Bool.eq_iff_iff, bne_iff_ne, bne_iff_ne]
    exact (Option.map_injective codePoints_injective).ne_iff

theorem frame_bound (h : r.bound = .ok e) : r.frame.started = e.started ∧
    r.frame.terminal = e.terminal ∧ r.createdAt = e.createdAt ∧ r.kind = e.kind ∧
    r.runId = e.runId ∧ r.frame.key = e.key := by
  rw [RuntimeReport.bound_eq h]
  exact ⟨rfl, rfl, rfl, rfl, rfl, rfl⟩

theorem preservesFinished_bound (h : r.bound = .ok e) (previous : Option CardRuntime) :
    r.preservesFinished previous = e.preservesFinished previous := by
  obtain ⟨hstarted, hterminal, -⟩ := frame_bound h
  simp only [RuntimeReport.preservesFinished, RuntimeReport.newSession,
    RuntimeEvent.preservesFinished, RuntimeEvent.newSession, funext (otherSession_bound h), hstarted,
    hterminal]

theorem written_bound (h : r.bound = .ok e) (previous : Option CardRuntime) :
    r.written previous = e.written previous := by
  obtain ⟨hstarted, -, hcreated, -⟩ := frame_bound h
  have hold : r.fromOldSession previous = e.fromOldSession previous := by
    simp only [RuntimeReport.fromOldSession, RuntimeEvent.fromOldSession,
      funext (otherSession_bound h), hstarted, Bool.and_assoc]
  have hreplayed : r.replayedStart previous = e.replayedStart previous := by
    simp only [RuntimeReport.replayedStart, RuntimeReport.newSession, RuntimeEvent.replayedStart,
      RuntimeEvent.newSession, funext (otherSession_bound h), hstarted, hcreated]
  rw [RuntimeReport.written, RuntimeEvent.written, preservesFinished_bound h, hold, hreplayed]

theorem recordAttempt_bound {runId : String} (hbound : r.bound = .ok e)
    (h : r.recordAttempt D runId s = .ok s') : recordAttempt e runId s = .ok ((), s') := by
  unfold RuntimeReport.recordAttempt at h
  split at h
  next => cases h
  next found hfound =>
    split at h
    next => cases h
    next =>
      rw [hbound] at h
      cases hstore : recordAttempt e runId s with
      | error e => simp [hstore, bind, Except.bind, Except.mapError] at h
      | ok result =>
        simp only [hstore, bind, Except.bind, Except.mapError] at h
        have hsame : result.2 = s' := by
          split at h
          next =>
            split at h
            next => cases h
            next =>
              split at h
              next => cases h
              next => exact Except.ok.inj h
          next => exact Except.ok.inj h
        rw [← hsame]

theorem recordRow_bound {previous : Option CardRuntime} (hbound : r.bound = .ok e)
    (h : r.recordRow previous s = .ok s') :
    (if e.written previous then
      .ok ((), { s with cardRuntime := s.cardRuntime.put e.key (e.runtimeRow previous) })
    else .ok ((), s) : Except ControllerError (Unit × Store)) = .ok ((), s') := by
  unfold RuntimeReport.recordRow at h
  rw [written_bound hbound, hbound] at h
  split at h
  next hwritten =>
    rw [if_pos hwritten]
    simp only [bind, Except.bind, Except.mapError] at h
    split at h
    next => cases h
    next => rw [← Except.ok.inj h]
  next hwritten =>
    rw [if_neg hwritten, ← Except.ok.inj h]

/-- A report that is bound is recorded as its event. -/
theorem record_bound (hbound : r.bound = .ok e) (h : r.record D s = .ok s') :
    recordCardRuntimeEvent e s = .ok ((), s') := by
  obtain ⟨-, -, -, hkind, hrun, hkey⟩ := frame_bound hbound
  simp only [RuntimeReport.record, hkey, hkind, hrun, preservesFinished_bound hbound] at h
  unfold recordCardRuntimeEvent
  extract_lets previous
  split at h
  next hdropped =>
    rw [if_pos hdropped, ← Except.ok.inj h]
  next hdropped =>
    rw [if_neg hdropped]
    cases hid : e.runId with
    | none =>
      rw [hid] at h
      exact recordRow_bound hbound h
    | some runId =>
      rw [hid] at h
      replace h : r.recordAttempt D runId s >>= r.recordRow (s.cardRuntime e.key) = .ok s' := h
      cases hattempt : r.recordAttempt D runId s with
      | error err =>
        rw [hattempt] at h
        cases h
      | ok t =>
        rw [hattempt] at h
        simp only [recordAttempt_bound hbound hattempt]
        exact recordRow_bound hbound h

end Bound

/-! ## The decoded event -/

namespace RawEvent

variable (event : RawEvent)

def textField (key : String) : Option String :=
  match event.field key with
  | some (.str t) => (encode t).map String.ofList
  | _ => none

/-- `event.payload.get("exit_code")` as far as it is compared with a number. -/
def exitCode : Option Nat :=
  match event.field "exit_code" with
  | some (.int n) => if 0 ≤ n then some n.toNat else none
  | some (.float x) => if x = .fin 75 then some 75 else none
  | _ => none

/-- The event with the payload fields that the Controller reads. -/
def decoded : EventRecord where
  id := event.id
  board := event.board
  taskId := event.taskId
  runId := event.runId
  kind := event.kind
  payload := event.payload.asDict.map fun _ => {
    workerSessionId := (event.namedSession.bind encode).map String.ofList
    workerPid := event.pid.map Int.toNat
    exitKind := event.textField "exit_kind"
    exitCode := event.exitCode }
  createdAt := event.createdAt

end RawEvent

/-- A text that is not blank has something left when it is stripped. -/
theorem strip_ne_nil {text : List Char}
    (h : (text.map Python.CodePoint.char).all Python.CodePoint.isSpace = false) :
    strip (String.ofList text) ≠ [] := by
  intro hstrip
  have hblank : ∀ c ∈ text, c.isWhitespace = true := by
    rw [strip, String.toList_ofList, List.reverse_eq_nil_iff, List.dropWhile_eq_nil_iff] at hstrip
    rw [← List.dropWhile_eq_nil_iff]
    by_contra hne
    have hhead := List.head_dropWhile_not Char.isWhitespace hne
    rw [hstrip _ (List.mem_reverse.mpr (List.head_mem hne))] at hhead
    cases hhead
  have hspace : ∀ c : Char, c.isWhitespace = true → Python.isSpace c = true := by
    intro c hc
    simp only [Char.isWhitespace, Bool.or_eq_true, decide_eq_true_eq] at hc
    rcases hc with ((rfl | rfl) | rfl) | rfl <;> decide
  have hall : (text.map Python.CodePoint.char).all Python.CodePoint.isSpace = true := by
    rw [List.all_map, List.all_eq_true]
    exact fun c hc => hspace c (hblank c hc)
  rw [hall] at h
  cases h

section Decoded

variable {D : Decimals} {cfg : Config} {managed : ManagedCard} {event : RawEvent} {s s' : Store}
variable {metrics : List (String × Double)}

theorem asDict_of_field {key : String} {v : Value} (h : event.field key = some v) :
    ∃ entries, event.payload.asDict = some entries := by
  obtain ⟨entries, hentries, -⟩ := Option.bind_eq_some_iff.mp h
  exact ⟨entries, hentries⟩

theorem session_decoded (hworker : WorkerFits event.pid event.session) :
    event.session = (eventSession event.decoded).map codePoints := by
  cases hnamed : event.namedSession with
  | none =>
    have hdecoded : event.decoded.payload.bind (·.workerSessionId) = none := by
      simp only [RawEvent.decoded, hnamed]
      cases event.payload.asDict <;> rfl
    rw [RawEvent.session, hnamed, eventSession, hdecoded]
    simp only [Option.filter_none, Option.map_map]
    rfl
  | some t =>
    have hsession : event.session = some t := by rw [RawEvent.session, hnamed]
    obtain ⟨text, rfl⟩ := hworker.2 t hsession
    obtain ⟨hfield, hblank⟩ : event.field "worker_session_id" = some (.str (text.map .char)) ∧
        (text.map Python.CodePoint.char).all Python.CodePoint.isSpace = false := by
      unfold RawEvent.namedSession at hnamed
      split at hnamed
      next t hfield =>
        split at hnamed
        next => cases hnamed
        next hblank =>
          cases hnamed
          exact ⟨hfield, Bool.not_eq_true _ ▸ hblank⟩
      next => cases hnamed
    obtain ⟨entries, hentries⟩ := asDict_of_field hfield
    have hdecoded : event.decoded.payload.bind (·.workerSessionId) = some (String.ofList text) := by
      simp only [RawEvent.decoded, hnamed, hentries, Option.bind_some, Python.encode_map,
        Option.map_some]
    have hkept : (strip (String.ofList text) != []) = true := by
      simpa using strip_ne_nil hblank
    rw [hsession, eventSession, hdecoded, Option.filter_some, if_pos hkept]
    simp [codePoints]

theorem pid_decoded : event.pid.map Int.toNat = eventPid event.decoded := by
  cases hdict : event.payload.asDict with
  | none =>
    have hfield : ∀ key, event.field key = none := fun key => by rw [RawEvent.field, hdict]; rfl
    simp [RawEvent.pid, eventPid, RawEvent.decoded, hfield, hdict]
  | some entries =>
    cases hpid : event.pid with
    | none => simp [eventPid, RawEvent.decoded, hdict, hpid]
    | some n =>
      have hpositive : 0 < n := by
        have := (Option.filter_eq_some_iff.mp hpid).2
        simpa using this
      have hkept : decide (0 < n.toNat) = true := decide_eq_true (by omega)
      simp only [eventPid, RawEvent.decoded, hdict, hpid, Option.map_some, Option.bind_some,
        Option.filter_some, hkept, if_true]

/-- A worker that fits SQLite is bound as the decoded event has it. -/
theorem bound_decoded (hworker : WorkerFits event.pid event.session) :
    (event.reportOf cfg managed metrics).bound = .ok (lifecycleEvent cfg managed event.decoded) := by
  have hpid : (event.reportOf cfg managed metrics).pid.any (sqliteLimit ≤ ·) = false := by
    cases hpid : event.pid with
    | none => simp [RawEvent.reportOf, hpid]
    | some n =>
      have := hworker.1 n hpid
      simp [RawEvent.reportOf, hpid, this]
  have hsession : (event.reportOf cfg managed metrics).session =
      (eventSession event.decoded).map codePoints := session_decoded hworker
  have hworkerPid : (event.reportOf cfg managed metrics).pid.map Int.toNat =
      eventPid event.decoded := pid_decoded
  unfold RuntimeReport.bound
  rw [hpid, hsession, hworkerPid]
  cases hdecoded : eventSession event.decoded with
  | none =>
    simp only [Bool.false_eq_true, if_false, Option.map_none, lifecycleEvent, hdecoded]
    rfl
  | some session =>
    simp only [Bool.false_eq_true, if_false, Option.map_some, lifecycleEvent, hdecoded, codePoints,
      Python.encode_map, String.ofList_toList]
    rfl

/-- **What is recorded of an event is what the decoded event says.** -/
theorem recordRawEvent_decoded (hmanaged : s.managedCard event.board event.taskId = some managed)
    (hwork : managed.purpose = .work) (hworker : WorkerFits event.pid event.session)
    (h : recordRawEvent D cfg event s = .ok s') :
    recordCardRuntimeEvent (lifecycleEvent cfg managed event.decoded) s = .ok ((), s') := by
  unfold recordRawEvent at h
  rw [hmanaged] at h
  simp only [hwork, ne_eq, not_true_eq_false, if_false] at h
  unfold RawEvent.report at h
  cases hmetrics : countedMetrics event.rawMetrics metricNames with
  | error e =>
    rw [hmetrics] at h
    cases h
  | ok metrics =>
    rw [hmetrics] at h
    exact record_bound (bound_decoded hworker) h

end Decoded

/-! ## A number that is null -/

/-- The exception of a result. -/
def raised {α : Type} : Except EventError α → Option EventError
  | .error e => some e
  | .ok _ => none

theorem raised_eq_some {α : Type} {x : Except EventError α} {e : EventError} :
    raised x = some e ↔ x = .error e := by
  cases x <;> simp [raised]

/-- Digits of ASCII only. -/
def asciiDecimals : Decimals where
  digit c := if c.isDigit then some (Fin.ofNat 10 (c.toNat - 48)) else none
  ascii c _ := by
    by_cases hc : c.isDigit = true
    · rw [if_pos hc, hc]
      rfl
    · rw [if_neg hc]
      exact (Bool.not_eq_true _ ▸ hc).symm

/-- A progress event of card 5 whose number of tool calls is null. -/
def nullCountEvent : RawEvent where
  id := 7
  board := "app"
  taskId := ⟨5⟩
  runId := some 3
  kind := "progress"
  payload := .dict [
    (codePoints "metrics", .dict [(codePoints "model_wait", .int 2)]),
    (codePoints "tool_count", .none)]
  createdAt := 70
  stored := by decide

end HollysysController
