import HollysysController.Errors
import Mathlib.Data.List.Sort

/-! # Reconcile intents

The rows of `reconcile_intents`, at most one a run, and the SQL statements on
them. The lease columns are part of the status: they are set exactly while the
intent is leased. -/

namespace HollysysController

structure Lease where
  leaseOwner : String
  leaseUntil : Nat
  leasedRevision : Nat
  currentStep : String
  deriving DecidableEq, Repr

inductive IntentStatus where
  | pending
  | leased (lease : Lease)
  | done
  deriving DecidableEq, Repr

structure ReconcileIntent where
  intentId : String
  runKey : String
  reason : String
  status : IntentStatus := .pending
  eventId : Option Nat := none
  attempts : Nat := 0
  revision : Nat := 1
  lastError : Option String := none
  createdAt : Nat
  updatedAt : Nat
  deriving DecidableEq, Repr

namespace ReconcileIntent

def leasedTo (r : ReconcileIntent) (owner : String) : Bool :=
  match r.status with
  | .leased l => l.leaseOwner == owner
  | _ => false

/-- The `WHERE` clause of `claim_reconcile`. -/
def claimable (now : Nat) (r : ReconcileIntent) : Bool :=
  match r.status with
  | .pending => true
  | .leased l => decide (l.leaseUntil < now)
  | .done => false

/-- The row that `enqueue_reconcile` writes over one there is. -/
def enqueued (r : ReconcileIntent) (reason : String) (eventId : Option Nat) (now : Nat) :
    ReconcileIntent :=
  { r with
    reason := clip 1000 reason
    eventId := some (max (r.eventId.getD 0) (eventId.getD 0))
    status := match r.status with
      | .leased l => .leased l
      | _ => .pending
    revision := r.revision + 1
    updatedAt := now }

def claimed (r : ReconcileIntent) (owner : String) (leaseSeconds now : Nat) : ReconcileIntent :=
  { r with
    status := .leased ⟨owner, now + leaseSeconds, r.revision, "claimed"⟩
    attempts := r.attempts + 1
    updatedAt := now }

/-- The row that `update_reconcile_step` writes over a leased one. -/
def stepped (r : ReconcileIntent) (step : String) (leaseSeconds now : Nat) : ReconcileIntent :=
  { r with
    status := match r.status with
      | .leased l => .leased { l with
          leaseUntil := now + leaseSeconds
          currentStep := clip 200 step }
      | status => status
    updatedAt := now }

def finished (r : ReconcileIntent) (rerun : Bool) (error : Option String) (now : Nat) :
    ReconcileIntent :=
  { r with
    status := if rerun || truthy error then .pending else .done
    lastError := (error.filter (· != "")).map (clip 1000)
    updatedAt := now }

end ReconcileIntent

/-- `UPDATE reconcile_intents SET .. WHERE ..`. -/
def updateIntents (p : ReconcileIntent → Bool) (f : ReconcileIntent → ReconcileIntent)
    (rows : List ReconcileIntent) : List ReconcileIntent :=
  rows.map fun r => if p r then f r else r

/-- The `INSERT` of `enqueue_reconcile`: the conflict target is the run, and the
drawn id has to be a new one. -/
def upsertIntent (runKey reason : String) (eventId : Option Nat) (intentId : String) (now : Nat)
    (rows : List ReconcileIntent) : Option (List ReconcileIntent) :=
  if rows.any (·.runKey == runKey) then
    some (updateIntents (·.runKey == runKey) (·.enqueued reason eventId now) rows)
  else if rows.any (·.intentId == intentId) then none
  else some (rows ++ [{ intentId, runKey, reason := clip 1000 reason, eventId,
                        createdAt := now, updatedAt := now }])

/-- The `SELECT` of `claim_reconcile`, `ORDER BY created_at, intent_id LIMIT 1`. -/
def nextClaimable (now : Nat) (rows : List ReconcileIntent) : Option ReconcileIntent :=
  ((rows.filter (·.claimable now)).insertionSort fun a b =>
    a.createdAt < b.createdAt ∨ a.createdAt = b.createdAt ∧ a.intentId ≤ b.intentId).head?

/-! ## What an enqueue writes -/

section Upsert

variable {runKey reason intentId : String} {eventId : Option Nat} {now : Nat}
  {rows rows' : List ReconcileIntent}

/-- Rows of other runs are not written. -/
theorem upsertIntent_origin (hu : upsertIntent runKey reason eventId intentId now rows = some rows')
    {r : ReconcileIntent} (hr : r ∈ rows') : r.runKey = runKey ∨ r ∈ rows := by
  unfold upsertIntent at hu
  split at hu
  · cases hu
    obtain ⟨r₀, hr₀, rfl⟩ := List.mem_map.mp hr
    dsimp only
    split
    · next hk => exact .inl (beq_iff_eq.mp hk)
    · exact .inr hr₀
  · split at hu
    · cases hu
    · cases hu
      rcases List.mem_append.mp hr with hr | hr
      · exact .inr hr
      · exact .inl (by rw [List.mem_singleton.mp hr])

/-- Every row is still there, for the same event or a later one. -/
theorem upsertIntent_kept (hu : upsertIntent runKey reason eventId intentId now rows = some rows')
    {r : ReconcileIntent} (hr : r ∈ rows) :
    ∃ r' ∈ rows', r'.runKey = r.runKey ∧ r.eventId.getD 0 ≤ r'.eventId.getD 0 := by
  unfold upsertIntent at hu
  split at hu
  · cases hu
    refine ⟨_, List.mem_map_of_mem hr, ?_⟩
    split
    · exact ⟨rfl, by simp [ReconcileIntent.enqueued]⟩
    · exact ⟨rfl, le_rfl⟩
  · split at hu
    · cases hu
    · cases hu
      exact ⟨r, List.mem_append_left _ hr, rfl, le_rfl⟩

/-- The row of the run reaches the event. -/
theorem upsertIntent_reaches
    (hu : upsertIntent runKey reason eventId intentId now rows = some rows') :
    ∃ r ∈ rows', r.runKey = runKey ∧ eventId.getD 0 ≤ r.eventId.getD 0 := by
  unfold upsertIntent at hu
  split at hu
  · next hany =>
    cases hu
    obtain ⟨r, hr, hk⟩ := List.any_eq_true.mp hany
    refine ⟨_, List.mem_map_of_mem hr, ?_⟩
    rw [if_pos hk]
    exact ⟨beq_iff_eq.mp hk, by simp [ReconcileIntent.enqueued]⟩
  · split at hu
    · cases hu
    · cases hu
      exact ⟨_, List.mem_append_right _ (List.mem_singleton_self _), rfl, le_rfl⟩

end Upsert

/-! ## Updates keep the keys -/

section Keys

variable {p : ReconcileIntent → Bool} {f : ReconcileIntent → ReconcileIntent}
  {rows rows' : List ReconcileIntent}

theorem updateIntents_map {κ : Type} {key : ReconcileIntent → κ} (hf : ∀ r, key (f r) = key r) :
    (updateIntents p f rows).map key = rows.map key := by
  simp only [updateIntents, List.map_map]
  refine List.map_congr_left fun r _ => ?_
  simp only [Function.comp]
  split
  · exact hf r
  · rfl

theorem mem_updateIntents {r' : ReconcileIntent} :
    r' ∈ updateIntents p f rows ↔ ∃ r ∈ rows, r' = if p r then f r else r := by
  simp only [updateIntents, List.mem_map, eq_comm]

theorem nextClaimable_spec {now : Nat} {r : ReconcileIntent} (h : nextClaimable now rows = some r) :
    r ∈ rows ∧ r.claimable now = true := by
  have hr := List.mem_of_mem_head? (Option.mem_def.mpr h)
  rw [List.mem_insertionSort] at hr
  exact List.mem_filter.mp hr

/-- The keys of the table: `intent_id` is primary and `run_key` is unique. -/
structure IntentKeys (rows : List ReconcileIntent) : Prop where
  ids : (rows.map (·.intentId)).Nodup
  runs : (rows.map (·.runKey)).Nodup

namespace IntentKeys

theorem update (h : IntentKeys rows) (hid : ∀ r, (f r).intentId = r.intentId)
    (hrun : ∀ r, (f r).runKey = r.runKey) : IntentKeys (updateIntents p f rows) where
  ids := by rw [updateIntents_map hid]; exact h.ids
  runs := by rw [updateIntents_map hrun]; exact h.runs

theorem upsert {runKey reason intentId : String} {eventId : Option Nat} {now : Nat}
    (h : IntentKeys rows)
    (hu : upsertIntent runKey reason eventId intentId now rows = some rows') :
    IntentKeys rows' := by
  unfold upsertIntent at hu
  split at hu
  · cases hu
    exact h.update (fun _ => rfl) fun _ => rfl
  · next hrun =>
    split at hu
    · cases hu
    · next hid =>
      cases hu
      simp only [List.any_eq_true, beq_iff_eq, not_exists, not_and] at hrun hid
      constructor
      · simp only [List.map_append, List.map_cons, List.map_nil]
        refine List.nodup_append.mpr ⟨h.ids, List.nodup_singleton _, ?_⟩
        rintro i hi j hj rfl
        obtain ⟨r, hr, rfl⟩ := List.mem_map.mp hi
        exact hid r hr (by simpa using hj)
      · simp only [List.map_append, List.map_cons, List.map_nil]
        refine List.nodup_append.mpr ⟨h.runs, List.nodup_singleton _, ?_⟩
        rintro i hi j hj rfl
        obtain ⟨r, hr, rfl⟩ := List.mem_map.mp hi
        exact hrun r hr (by simpa using hj)

theorem eq_of_id (h : IntentKeys rows) {a b : ReconcileIntent} (ha : a ∈ rows) (hb : b ∈ rows)
    (hab : a.intentId = b.intentId) : a = b :=
  List.inj_on_of_nodup_map h.ids ha hb hab

theorem eq_of_run (h : IntentKeys rows) {a b : ReconcileIntent} (ha : a ∈ rows) (hb : b ∈ rows)
    (hab : a.runKey = b.runKey) : a = b :=
  List.inj_on_of_nodup_map h.runs ha hb hab

end IntentKeys

end Keys

end HollysysController
