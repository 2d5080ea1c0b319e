import HollysysController.Python.Doubles
import HollysysController.Store

/-! # Outage rows

The tables of outages with all their columns: what a failure writes over the row of
its dependency, what a recovery closes and files away, and the retry times as Python
computes them. The store keeps of a row what the controller decides by. -/

namespace HollysysController

open Durable Python

/-- The seconds of a configured backoff, a float with `gt=0`. -/
structure Seconds where
  value : Double
  isDouble : value.IsDouble
  positive : value.Positive

/-- The arguments of `record_dependency_failure`. -/
structure FailureCall where
  dependency : String
  error : String
  initialBackoffSeconds : Seconds
  maximumBackoffSeconds : Seconds
  kind : DependencyKind := .transient
  endpoint : Option String := none
  retryAfterSeconds : Option Nat := none

inductive CircuitState where
  | opened | closed
  deriving DecidableEq, Repr

/-- A row of `dependency_outages`. -/
structure OutageRow where
  dependency : String
  outageId : Nat
  isOpen : Bool
  kind : DependencyKind
  errorSummary : String
  failures : Nat
  peakFailures : Nat
  startedAt : Nat
  lastFailureAt : Nat
  lastSuccessAt : Option Nat
  endpoint : Option String
  circuitState : CircuitState
  nextRetryAt : Nat
  recoveredAt : Option Nat
  deriving DecidableEq, Repr

/-- A row of `dependency_outage_history`. -/
structure OutageRecord where
  dependency : String
  outageId : Nat
  kind : DependencyKind
  errorSummary : String
  peakFailures : Nat
  startedAt : Nat
  recoveredAt : Nat
  durationSeconds : Nat
  endpoint : Option String
  deriving DecidableEq, Repr

structure OutageTables where
  rows : Table String OutageRow := .empty
  history : List OutageRecord := []
  nextOutage : Nat := 0

/-- The open outage of a dependency. -/
def OutageTables.openRow (t : OutageTables) (dependency : String) : Option OutageRow :=
  (t.rows dependency).filter (·.isOpen)

/-- The number of the next failure in its outage. -/
def OutageTables.nextCount (t : OutageTables) (dependency : String) : Nat :=
  ((t.openRow dependency).map (·.failures)).getD 0 + 1

/-- `max(delay, retry_after_seconds)`, then `int(delay)`. -/
def retrySeconds (delay : Double) (retryAfter : Option Nat) : Except NumberError Int :=
  match retryAfter with
  | some r => if delay.lt (.fin r) then .ok r else delay.toInt
  | none => delay.toInt

/-- The retry time after `failures` failures. SQLite refuses integers of more than 64 bits. -/
@[irreducible] def FailureCall.nextRetry (f : FailureCall) (failures now : Nat) : Except NumberError Nat := do
  let power ← Double.ofInt (2 ^ (failures - 1))
  let delay := Double.minOf f.maximumBackoffSeconds.value
    (f.initialBackoffSeconds.value.mul power)
  let seconds ← retrySeconds delay f.retryAfterSeconds
  let next := now + (max 1 seconds).toNat
  if next < 2 ^ 63 then .ok next else .error .overflow

/-- The row that a failure writes. -/
def FailureCall.outageRow (f : FailureCall) (now : Nat) (t : OutageTables) (nextRetryAt : Nat) :
    OutageRow :=
  let continuing := t.openRow f.dependency
  let failures := t.nextCount f.dependency
  let inserted : OutageRow :=
    { dependency := f.dependency
      outageId := (continuing.map (·.outageId)).getD t.nextOutage
      isOpen := true
      kind := f.kind
      errorSummary := clip 1000 f.error
      failures
      peakFailures := max ((continuing.map (·.peakFailures)).getD 0) failures
      startedAt := (continuing.map (·.startedAt)).getD now
      lastFailureAt := now
      lastSuccessAt := none
      endpoint := f.endpoint
      circuitState := .opened
      nextRetryAt
      recoveredAt := none }
  -- The row of a dependency is used again for its next outage.
  match t.rows f.dependency with
  | none => inserted
  | some old => { inserted with
      peakFailures := max old.peakFailures inserted.peakFailures
      lastSuccessAt := old.lastSuccessAt }

/-- `record_dependency_failure`: the row of the dependency afterwards. -/
def recordFailure (f : FailureCall) (now : Nat) (t : OutageTables) :
    Except NumberError (OutageRow × OutageTables) :=
  match f.nextRetry (t.nextCount f.dependency) now with
  | .error e => .error e
  | .ok nextRetryAt =>
    let row := f.outageRow now t nextRetryAt
    .ok (row, { t with rows := t.rows.put f.dependency row, nextOutage := t.nextOutage + 1 })

def OutageRow.record (row : OutageRow) (now : Nat) : OutageRecord where
  dependency := row.dependency
  outageId := row.outageId
  kind := row.kind
  errorSummary := row.errorSummary
  peakFailures := row.peakFailures
  startedAt := row.startedAt
  recoveredAt := now
  durationSeconds := now - row.startedAt
  endpoint := row.endpoint

/-- `recover_dependency`: the outage that was open is closed and filed. -/
def recoverOutage (dependency : String) (now : Nat) (t : OutageTables) :
    Option OutageRow × OutageTables :=
  match t.openRow dependency with
  | none => (none, t)
  | some row =>
    let closed := { row with
      isOpen := false, recoveredAt := some now, lastSuccessAt := some now, failures := 0
      circuitState := .closed }
    let filed := t.history.any fun h => h.dependency == dependency && h.outageId == row.outageId
    (some { row with recoveredAt := some now, lastSuccessAt := some now },
      { t with
        rows := t.rows.put dependency closed
        history := if filed then t.history else t.history ++ [row.record now] })

/-! ## What the two calls write -/

section Calls

variable {t t' : OutageTables} {f : FailureCall} {now : Nat} {row : OutageRow}

theorem openRow_some {d : String} (h : t.openRow d = some row) :
    t.rows d = some row ∧ row.isOpen = true := by
  rw [OutageTables.openRow, Option.filter_eq_some_iff] at h
  exact h

theorem recordFailure_ok (h : recordFailure f now t = .ok (row, t')) :
    ∃ next, f.nextRetry (t.nextCount f.dependency) now = .ok next ∧
      row = f.outageRow now t next ∧
      t' = { t with rows := t.rows.put f.dependency row, nextOutage := t.nextOutage + 1 } := by
  unfold recordFailure at h
  split at h
  · cases h
  · rename_i next hnext
    cases h
    exact ⟨next, hnext, rfl, rfl⟩

theorem recordFailure_isOk (h : (f.nextRetry (t.nextCount f.dependency) now).isOk = true) :
    ∃ row t', recordFailure f now t = .ok (row, t') := by
  unfold recordFailure
  split
  · rename_i hnext
    rw [hnext] at h
    cases h
  · exact ⟨_, _, rfl⟩

@[simp] theorem outageRow_isOpen (next : Nat) : (f.outageRow now t next).isOpen = true := by
  unfold FailureCall.outageRow
  split <;> rfl

@[simp] theorem outageRow_dependency (next : Nat) :
    (f.outageRow now t next).dependency = f.dependency := by
  unfold FailureCall.outageRow
  split <;> rfl

@[simp] theorem outageRow_failures (next : Nat) :
    (f.outageRow now t next).failures = t.nextCount f.dependency := by
  unfold FailureCall.outageRow
  split <;> rfl

@[simp] theorem outageRow_nextRetryAt (next : Nat) :
    (f.outageRow now t next).nextRetryAt = next := by
  unfold FailureCall.outageRow
  split <;> rfl

/-- A failure of an open outage goes on with its row. -/
theorem outageRow_continues {old : OutageRow} (hold : t.openRow f.dependency = some old)
    (next : Nat) : (f.outageRow now t next).outageId = old.outageId ∧
      (f.outageRow now t next).peakFailures = max old.peakFailures (old.failures + 1) := by
  obtain ⟨hrows, -⟩ := openRow_some hold
  simp [FailureCall.outageRow, hrows, hold, OutageTables.nextCount]

/-- A failure that opens an outage counts from one, but keeps the peak of the row. -/
theorem outageRow_opens (hclosed : t.openRow f.dependency = none) (next : Nat) :
    (f.outageRow now t next).outageId = t.nextOutage ∧
      (f.outageRow now t next).peakFailures =
        max (((t.rows f.dependency).map (·.peakFailures)).getD 0) 1 := by
  cases hrows : t.rows f.dependency <;>
    simp [FailureCall.outageRow, hrows, hclosed, OutageTables.nextCount]

end Calls

/-! ## Accounts of the failures -/

inductive OutageCall where
  | failure (f : FailureCall) (now : Nat)
  | recovery (dependency : String) (now : Nat)

/-- The tables, and of each recorded failure the dependency and the outage. All failures of an
outage follow each other, since a recovery ends it. -/
structure OutageLog where
  tables : OutageTables := {}
  recorded : List (String × Nat) := []

/-- One call. A failure that is not recorded changes nothing. -/
def OutageCall.apply (l : OutageLog) : OutageCall → OutageLog
  | failure f now =>
    match recordFailure f now l.tables with
    | .ok (row, t) => ⟨t, l.recorded ++ [(f.dependency, row.outageId)]⟩
    | .error _ => l
  | recovery dependency now => { l with tables := (recoverOutage dependency now l.tables).2 }

theorem apply_refused {f : FailureCall} {now : Nat} {l : OutageLog} {e : NumberError}
    (h : recordFailure f now l.tables = .error e) : (OutageCall.failure f now).apply l = l := by
  rw [OutageCall.apply, h]

theorem apply_recorded {f : FailureCall} {now : Nat} {l : OutageLog} {row : OutageRow}
    {t : OutageTables} (h : recordFailure f now l.tables = .ok (row, t)) :
    (OutageCall.failure f now).apply l = ⟨t, l.recorded ++ [(f.dependency, row.outageId)]⟩ := by
  rw [OutageCall.apply, h]

def runCalls (calls : List OutageCall) : OutageLog := calls.foldl OutageCall.apply {}

/-- The failures recorded in an outage. -/
def OutageLog.failuresIn (l : OutageLog) (dependency : String) (outageId : Nat) : Nat :=
  l.recorded.count (dependency, outageId)

/-- The stored peaks are those of their outages, and closed outages are filed. -/
structure PeaksRight (l : OutageLog) : Prop where
  rows : ∀ d row, l.tables.rows d = some row →
    row.peakFailures = l.failuresIn d row.outageId
  history : ∀ h ∈ l.tables.history, h.peakFailures = l.failuresIn h.dependency h.outageId
  filed : ∀ d row, l.tables.rows d = some row → row.isOpen = false →
    ∃ h ∈ l.tables.history, h.dependency = d ∧ h.outageId = row.outageId

/-- A failure is recorded that opens an outage, over the row of an outage of two or more. -/
def OutageCall.Reuses (t : OutageTables) : OutageCall → Prop
  | failure f now => t.openRow f.dependency = none ∧ (f.nextRetry 1 now).isOk = true ∧
      ∃ old, t.rows f.dependency = some old ∧ 2 ≤ old.peakFailures
  | recovery _ _ => False

/-- What every run keeps of the numbers of outages. -/
structure Numbered (l : OutageLog) : Prop where
  named : ∀ d row, l.tables.rows d = some row → row.dependency = d
  recorded : ∀ p ∈ l.recorded, p.2 < l.tables.nextOutage
  rows : ∀ d row, l.tables.rows d = some row → row.outageId < l.tables.nextOutage
  history : ∀ h ∈ l.tables.history, h.outageId < l.tables.nextOutage
  failures : ∀ d row, l.tables.openRow d = some row → row.failures = l.failuresIn d row.outageId
  unfiled : ∀ d row, l.tables.openRow d = some row → ∀ h ∈ l.tables.history,
    ¬ (h.dependency = d ∧ h.outageId = row.outageId)

/-! ## One call -/

section Step

variable {l : OutageLog} {f : FailureCall} {now : Nat} {row : OutageRow} {t : OutageTables}

theorem failuresIn_append (l : OutageLog) (t : OutageTables) (d d' : String) (id id' : Nat) :
    OutageLog.failuresIn ⟨t, l.recorded ++ [(d, id)]⟩ d' id' =
      l.failuresIn d' id' + if d' = d ∧ id' = id then 1 else 0 := by
  rw [OutageLog.failuresIn, List.count_append, List.count_singleton, OutageLog.failuresIn]
  congr 1
  by_cases h : d' = d ∧ id' = id
  · obtain ⟨rfl, rfl⟩ := h
    simp
  · rw [if_neg h, if_neg]
    rw [beq_iff_eq, Prod.mk.injEq]
    exact fun heq => h ⟨heq.1.symm, heq.2.symm⟩

/-- No failure is recorded yet in an outage that is to come. -/
theorem Numbered.fresh (h : Numbered l) (d : String) : l.failuresIn d l.tables.nextOutage = 0 := by
  rw [OutageLog.failuresIn, List.count_eq_zero]
  intro hmem
  exact absurd (h.recorded _ hmem) (lt_irrefl _)

/-- The outage of a recorded failure, and how many it has now. -/
theorem Numbered.counted (h : Numbered l) (hok : recordFailure f now l.tables = .ok (row, t)) :
    row.outageId ≤ l.tables.nextOutage ∧
      row.failures = l.failuresIn f.dependency row.outageId + 1 ∧
      (∀ hist ∈ l.tables.history,
        ¬ (hist.dependency = f.dependency ∧ hist.outageId = row.outageId)) := by
  obtain ⟨next, -, rfl, -⟩ := recordFailure_ok hok
  rw [outageRow_failures]
  cases hopen : l.tables.openRow f.dependency with
  | none =>
    rw [(outageRow_opens hopen next).1, h.fresh]
    refine ⟨le_refl _, by simp [OutageTables.nextCount, hopen], fun hist hmem heq => ?_⟩
    have hlt := h.history hist hmem
    rw [heq.2] at hlt
    exact lt_irrefl _ hlt
  | some old =>
    rw [(outageRow_continues hopen next).1, ← h.failures _ _ hopen]
    exact ⟨(h.rows _ _ (openRow_some hopen).1).le, by simp [OutageTables.nextCount, hopen],
      h.unfiled _ _ hopen⟩

theorem openRow_put (t : OutageTables) (d d' : String) (row : OutageRow) (history next) :
    OutageTables.openRow ⟨t.rows.put d row, history, next⟩ d' =
      if d' = d then (some row).filter (·.isOpen) else t.openRow d' := by
  simp only [OutageTables.openRow, Table.put_apply]
  split <;> rfl

theorem Numbered.failure (h : Numbered l) (hok : recordFailure f now l.tables = .ok (row, t)) :
    Numbered ⟨t, l.recorded ++ [(f.dependency, row.outageId)]⟩ := by
  obtain ⟨hle, hcount, hunfiled⟩ := h.counted hok
  obtain ⟨next, -, hrow, rfl⟩ := recordFailure_ok hok
  have hopen : row.isOpen = true := by simp [hrow]
  have hname : row.dependency = f.dependency := by simp [hrow]
  constructor
  · intro d r hr
    simp only [Table.put_apply] at hr
    split at hr
    · cases hr
      rename_i hd
      rw [hd, hname]
    · exact h.named d r hr
  · intro p hp
    rcases List.mem_append.mp hp with hp | hp
    · exact (h.recorded p hp).trans (Nat.lt_succ_self _)
    · rw [List.mem_singleton.mp hp]
      exact Nat.lt_succ_of_le hle
  · intro d r hr
    simp only [Table.put_apply] at hr
    split at hr
    · cases hr
      exact Nat.lt_succ_of_le hle
    · exact (h.rows d r hr).trans (Nat.lt_succ_self _)
  · exact fun hist hmem => (h.history hist hmem).trans (Nat.lt_succ_self _)
  · intro d r hr
    rw [openRow_put] at hr
    rw [failuresIn_append]
    split at hr
    · rename_i hd
      rw [Option.filter_some, if_pos hopen] at hr
      cases hr
      rw [hd, if_pos ⟨rfl, rfl⟩]
      exact hcount
    · rename_i hd
      rw [if_neg fun heq => hd heq.1]
      exact h.failures d r hr
  · intro d r hr hist hmem
    rw [openRow_put] at hr
    split at hr
    · rename_i hd
      rw [Option.filter_some, if_pos hopen] at hr
      cases hr
      rw [hd]
      exact hunfiled hist hmem
    · exact h.unfiled d r hr hist hmem

/-- What a recovery of an open outage leaves. -/
theorem recoverOutage_open {d : String} (hopen : l.tables.openRow d = some row)
    (h : Numbered l) : (recoverOutage d now l.tables).2 =
      { l.tables with
        rows := l.tables.rows.put d { row with
          isOpen := false, recoveredAt := some now, lastSuccessAt := some now, failures := 0
          circuitState := .closed }
        history := l.tables.history ++ [row.record now] } := by
  have hunfiled : (l.tables.history.any fun hist =>
      hist.dependency == d && hist.outageId == row.outageId) = false := by
    rw [List.any_eq_false]
    intro hist hmem heq
    simp only [Bool.and_eq_true, beq_iff_eq] at heq
    exact h.unfiled d row hopen hist hmem heq
  simp [recoverOutage, hopen, hunfiled]

theorem Numbered.recovery (h : Numbered l) (d : String) (now : Nat) :
    Numbered { l with tables := (recoverOutage d now l.tables).2 } := by
  cases hopen : l.tables.openRow d with
  | none =>
    have hsame : (recoverOutage d now l.tables).2 = l.tables := by simp [recoverOutage, hopen]
    rw [hsame]
    exact h
  | some row =>
    rw [recoverOutage_open hopen h]
    obtain ⟨hrows, -⟩ := openRow_some hopen
    constructor
    · intro d' r hr
      simp only [Table.put_apply] at hr
      split at hr
      · cases hr
        rename_i hd
        rw [hd]
        exact h.named d row hrows
      · exact h.named d' r hr
    · exact h.recorded
    · intro d' r hr
      simp only [Table.put_apply] at hr
      split at hr
      · cases hr
        exact h.rows d row hrows
      · exact h.rows d' r hr
    · intro hist hmem
      rcases List.mem_append.mp hmem with hmem | hmem
      · exact h.history hist hmem
      · rw [List.mem_singleton.mp hmem]
        exact h.rows d row hrows
    · intro d' r hr
      rw [openRow_put] at hr
      split at hr
      · rw [Option.filter_some, if_neg (by simp)] at hr
        cases hr
      · exact h.failures d' r hr
    · intro d' r hr hist hmem
      rw [openRow_put] at hr
      split at hr
      · rw [Option.filter_some, if_neg (by simp)] at hr
        cases hr
      · rename_i hd
        rcases List.mem_append.mp hmem with hmem | hmem
        · exact h.unfiled d' r hr hist hmem
        · rw [List.mem_singleton.mp hmem]
          intro heq
          exact hd (heq.1.symm.trans (h.named d row hrows))

theorem Numbered.apply (h : Numbered l) (c : OutageCall) : Numbered (c.apply l) := by
  cases c with
  | failure f now =>
    cases hok : recordFailure f now l.tables with
    | error e =>
      simp only [OutageCall.apply, hok]
      exact h
    | ok r =>
      simp only [OutageCall.apply, hok]
      exact h.failure hok
  | recovery d now => exact h.recovery d now

/-- A recorded failure keeps the peaks right, unless it opens an outage over a longer one. -/
theorem PeaksRight.failure (h : PeaksRight l) (hn : Numbered l)
    (hok : recordFailure f now l.tables = .ok (row, t))
    (hnot : ¬ (OutageCall.failure f now).Reuses l.tables) :
    PeaksRight ⟨t, l.recorded ++ [(f.dependency, row.outageId)]⟩ := by
  obtain ⟨-, -, hunfiled⟩ := hn.counted hok
  obtain ⟨next, hnext, hrow, rfl⟩ := recordFailure_ok hok
  have hpeak : row.peakFailures = l.failuresIn f.dependency row.outageId + 1 := by
    rw [hrow]
    cases hopen : l.tables.openRow f.dependency with
    | none =>
      obtain ⟨hid, hpeak⟩ := outageRow_opens hopen next
      rw [hid, hpeak, hn.fresh]
      have hsmall : ((l.tables.rows f.dependency).map (·.peakFailures)).getD 0 ≤ 1 := by
        cases hrows : l.tables.rows f.dependency with
        | none => simp
        | some old =>
          have hone : (f.nextRetry 1 now).isOk = true := by
            rw [OutageTables.nextCount, hopen] at hnext
            rw [show (1 : Nat) = (Option.map (·.failures) (none : Option OutageRow)).getD 0 + 1
              from rfl, hnext]
            rfl
          by_contra hlarge
          exact hnot ⟨hopen, hone, old, hrows, not_le.mp hlarge⟩
      omega
    | some old =>
      obtain ⟨hid, hpeak⟩ := outageRow_continues hopen next
      have hold := h.rows _ _ (openRow_some hopen).1
      rw [hid, hpeak, hn.failures _ _ hopen, hold]
      omega
  constructor
  · intro d r hr
    simp only [Table.put_apply] at hr
    rw [failuresIn_append]
    split at hr
    · cases hr
      rename_i hd
      rw [hd, if_pos ⟨rfl, rfl⟩]
      exact hpeak
    · rename_i hd
      rw [if_neg fun heq => hd heq.1]
      exact h.rows d r hr
  · intro hist hmem
    rw [failuresIn_append, if_neg (hunfiled hist hmem)]
    exact h.history hist hmem
  · intro d r hr hclosed
    simp only [Table.put_apply] at hr
    split at hr
    · cases hr
      simp [hrow] at hclosed
    · exact h.filed d r hr hclosed

theorem PeaksRight.recovery (h : PeaksRight l) (hn : Numbered l) (d : String) (now : Nat) :
    PeaksRight { l with tables := (recoverOutage d now l.tables).2 } := by
  cases hopen : l.tables.openRow d with
  | none =>
    have hsame : (recoverOutage d now l.tables).2 = l.tables := by simp [recoverOutage, hopen]
    rw [hsame]
    exact h
  | some row =>
    rw [recoverOutage_open hopen hn]
    obtain ⟨hrows, -⟩ := openRow_some hopen
    have hname := hn.named d row hrows
    constructor
    · intro d' r hr
      simp only [Table.put_apply] at hr
      split at hr
      · cases hr
        rename_i hd
        rw [hd]
        exact h.rows d row hrows
      · exact h.rows d' r hr
    · intro hist hmem
      rcases List.mem_append.mp hmem with hmem | hmem
      · exact h.history hist hmem
      · rw [List.mem_singleton.mp hmem]
        have hpeak := h.rows d row hrows
        rw [← hname] at hpeak
        exact hpeak
    · intro d' r hr hclosed
      simp only [Table.put_apply] at hr
      split at hr
      · cases hr
        rename_i hd
        exact ⟨row.record now, List.mem_append_right _ (List.mem_singleton.mpr rfl),
          hname.trans hd.symm, rfl⟩
      · obtain ⟨hist, hmem, hfiled⟩ := h.filed d' r hr hclosed
        exact ⟨hist, List.mem_append_left _ hmem, hfiled⟩

theorem PeaksRight.apply (h : PeaksRight l) (hn : Numbered l) {c : OutageCall}
    (hnot : ¬ c.Reuses l.tables) : PeaksRight (c.apply l) := by
  cases c with
  | failure f now =>
    cases hok : recordFailure f now l.tables with
    | error e =>
      simp only [OutageCall.apply, hok]
      exact h
    | ok r =>
      simp only [OutageCall.apply, hok]
      exact h.failure hn hok hnot
  | recovery d now => exact h.recovery hn d now

/-- A failure that opens an outage over a longer one stores the longer one's peak. -/
theorem reuses_wrong {c : OutageCall} (hn : Numbered l) (h : c.Reuses l.tables) :
    ¬ PeaksRight (c.apply l) := by
  cases c with
  | recovery d now => exact h.elim
  | failure f now =>
    obtain ⟨hopen, hretry, old, hrows, hpeak⟩ := h
    have hcount : l.tables.nextCount f.dependency = 1 := by
      simp [OutageTables.nextCount, hopen]
    obtain ⟨row, t, hok⟩ := recordFailure_isOk (t := l.tables) (f := f)
      (by rw [hcount]; exact hretry)
    obtain ⟨next, -, hrow, ht⟩ := recordFailure_ok hok
    obtain ⟨hid, hstored⟩ := outageRow_opens hopen next
    intro hright
    simp only [OutageCall.apply, hok] at hright
    have hwrong := hright.rows f.dependency row (by rw [ht]; exact Table.put_self _ _ _)
    rw [failuresIn_append, if_pos ⟨rfl, rfl⟩, hrow, hid, hstored, hn.fresh, hrows] at hwrong
    simp only [Option.map_some, Option.getD_some] at hwrong
    omega

end Step

/-! ## Runs -/

theorem numbered_run (calls : List OutageCall) : Numbered (runCalls calls) := by
  induction calls using List.reverseRecOn with
  | nil => constructor <;> simp [runCalls, OutageTables.openRow]
  | append_singleton calls c ih =>
    rw [runCalls, List.foldl_append]
    exact Numbered.apply ih c

/-- **Exactly when the outage accounts are right.** Every peak that is stored is the number of
failures in its outage as long as no failure opens an outage over the row of one that had two or
more. -/
theorem outage_accounts_iff (calls : List OutageCall) :
    (∀ pre post, calls = pre ++ post → PeaksRight (runCalls pre)) ↔
      ∀ pre c post, calls = pre ++ c :: post → ¬ c.Reuses (runCalls pre).tables := by
  constructor
  · intro hright pre c post heq hreuses
    have hstep := hright (pre ++ [c]) post (by simp [heq])
    rw [runCalls, List.foldl_append] at hstep
    exact reuses_wrong (numbered_run pre) hreuses hstep
  · intro hnot pre
    induction pre using List.reverseRecOn with
    | nil => intro _ _; constructor <;> simp [runCalls]
    | append_singleton pre c ih =>
      intro post heq
      have heq' : calls = pre ++ c :: post := by simp [heq]
      rw [runCalls, List.foldl_append]
      exact (ih (c :: post) heq').apply (numbered_run pre) (hnot pre c post heq')

/-- A whole number of seconds, of at most 53 bits. -/
def wholeSeconds (n : Nat) (hpos : 0 < n) (hlt : n < 2 ^ 53) : Seconds where
  value := .fin n
  isDouble := by
    have habs : |(n : Rat)| = n := abs_of_nonneg (Nat.cast_nonneg n)
    refine ⟨⟨n, 0, ?_, by omega, by simp⟩, ?_⟩
    · rw [abs_of_nonneg (Int.natCast_nonneg n)]
      exact_mod_cast hlt
    · rw [habs]
      exact_mod_cast hlt.trans (Nat.pow_lt_pow_right (by decide) (by decide))
  positive := by
    change (0 : Rat) < n
    exact_mod_cast hpos

/-- A failure of GitLab. -/
def gitlabFailure : FailureCall where
  dependency := "gitlab"
  error := "503 unavailable"
  initialBackoffSeconds := wholeSeconds 5 (by decide) (by decide)
  maximumBackoffSeconds := wholeSeconds 300 (by decide) (by decide)

/-- An outage of two failures, and one of a single failure after it. -/
def shorterOutage : List OutageCall :=
  [.failure gitlabFailure 100, .failure gitlabFailure 110, .recovery "gitlab" 120,
    .failure gitlabFailure 200]

/-- The second outage is stored with the peak of the first. -/
theorem shorterOutage_wrong : ¬ PeaksRight (runCalls shorterOutage) := by
  have hstored : ((runCalls shorterOutage).tables.rows "gitlab").map
      (fun row => (row.outageId, row.peakFailures)) = some (2, 2) ∧
      (runCalls shorterOutage).failuresIn "gitlab" 2 = 1 := by
    decide +kernel
  intro hright
  obtain ⟨row, hrow, hfacts⟩ := Option.map_eq_some_iff.mp hstored.1
  rw [Prod.mk.injEq] at hfacts
  have hpeak := hright.rows "gitlab" row hrow
  rw [hfacts.1, hfacts.2, hstored.2] at hpeak
  cases hpeak

end HollysysController
