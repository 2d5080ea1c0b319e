import HollysysController.Delivery
import HollysysController.Durable.Sql
import HollysysController.Durable.Steps

/-! # The reconcile leases

`enqueue_reconcile`, `claim_reconcile`, `update_reconcile_step` and
`finish_reconcile`, statement by statement, for any number of workers. -/

namespace HollysysController

open Durable

/-- A call on the reconcile intents. The id of an enqueue is the drawn `uuid4`. -/
inductive IntentCall where
  | enqueue (runKey reason : String) (eventId : Option Nat) (intentId : String)
  | claim (leaseSeconds : Nat)
  | update (intentId step : String) (leaseSeconds : Nat)
  | finish (intentId : String) (error : Option String)
  deriving DecidableEq, Repr

/-- What a call returns: the row an enqueue or a claim read last, or nothing. -/
inductive IntentAnswer where
  | row (intent : Option ReconcileIntent)
  | unit
  deriving DecidableEq, Repr

/-- Where a worker stands in a call. -/
inductive IntentPlace where
  | called (c : IntentCall)
  | known (c : IntentCall)
  | timed (c : IntentCall) (now : Nat)
  | inserted (runKey : String)
  | claimSelect (leaseSeconds now : Nat)
  | claimUpdate (intentId : String) (leaseSeconds now : Nat)
  | claimRead (intentId : String)
  | finishUpdate (intentId : String) (revision leasedRevision : Nat) (error : Option String)
      (now : Nat)
  | closing (answer : Except ControllerError IntentAnswer)
  | answer (answer : Except ControllerError IntentAnswer)
  deriving DecidableEq

def leaseLost (intentId : String) : ControllerError :=
  .valueError s!"reconcile_lease_lost:{intentId}"

/-- `UPDATE reconcile_intents`. -/
def Store.updateIntents (s : Store) (p : ReconcileIntent → Bool)
    (f : ReconcileIntent → ReconcileIntent) : Store :=
  { s with intents := HollysysController.updateIntents p f s.intents }

/-- `SELECT revision, leased_revision` of an intent that the worker has leased. -/
def Store.leasedRevisions (s : Store) (worker intentId : String) : Option (Nat × Nat) :=
  s.intents.findSome? fun r =>
    match r.status with
    | .leased l =>
      if r.intentId = intentId ∧ l.leaseOwner = worker then some (r.revision, l.leasedRevision)
      else none
    | _ => none

/-- The statement at each place. The name of a worker is its `lease_owner`. -/
def intentStmt (worker : String) : IntentPlace → Stmt IntentPlace Store
  | .called (.enqueue runKey reason eventId intentId) => .select fun s =>
    if (s.runRecord runKey).isSome then .known (.enqueue runKey reason eventId intentId)
    else .answer (.error (.valueError s!"unknown_run:{runKey}"))
  | .called c => .now (.timed c)
  | .known c => .now (.timed c)
  | .timed (.enqueue runKey reason eventId intentId) now => .write fun s =>
    match upsertIntent runKey reason eventId intentId now s.intents with
    | some rows => ({ s with intents := rows }, .inserted runKey)
    | none => (s, .answer (.error databaseError))
  | .inserted runKey => .select fun s =>
    .closing (.ok (.row (s.intents.find? (·.runKey == runKey))))
  | .timed (.claim leaseSeconds) now => .begin (.claimSelect leaseSeconds now)
  | .claimSelect leaseSeconds now => .select fun s =>
    match nextClaimable now s.intents with
    | none => .closing (.ok (.row none))
    | some r => .claimUpdate r.intentId leaseSeconds now
  | .claimUpdate intentId leaseSeconds now => .write fun s =>
    let p := fun r : ReconcileIntent => r.intentId == intentId && r.claimable now
    (s.updateIntents p (·.claimed worker leaseSeconds now),
      if s.intents.countP p = 1 then .claimRead intentId else .closing (.ok (.row none)))
  | .claimRead intentId => .select fun s =>
    .closing (.ok (.row (s.intents.find? (·.intentId == intentId))))
  | .timed (.update intentId step leaseSeconds) now => .write fun s =>
    let p := fun r : ReconcileIntent => r.intentId == intentId && r.leasedTo worker
    (s.updateIntents p (·.stepped step leaseSeconds now),
      .closing (if s.intents.countP p = 1 then .ok .unit else .error (leaseLost intentId)))
  | .timed (.finish intentId error) now => .select fun s =>
    match s.leasedRevisions worker intentId with
    | none => .answer (.error (leaseLost intentId))
    | some (revision, leasedRevision) => .finishUpdate intentId revision leasedRevision error now
  | .finishUpdate intentId revision leasedRevision error now => .write fun s =>
    -- the statement asks for the id only, not for the lease
    (s.updateIntents (·.intentId == intentId)
        (·.finished (revision != leasedRevision) error now),
      .closing (.ok .unit))
  | .closing answer => .commit (.answer answer)
  | .answer _ => .leave

/-- The places between the first write of a call and its commit. -/
def IntentPlace.inside : IntentPlace → Bool
  | .inserted _ | .claimSelect _ _ | .claimUpdate _ _ _ | .claimRead _ | .closing _ => true
  | _ => false

def intentCalls : Protocol String IntentCall IntentPlace Store where
  entry := .called
  stmt := intentStmt
  inside p := p.inside
  entry_outside _ := by simp [IntentPlace.inside]
  outside worker p hp := by
    rcases p with (_ | _ | _ | _) | _ | ⟨_ | _ | _ | _, now⟩ | _ | _ | _ | _ | _ | _ | _
    case called.enqueue | timed.finish =>
      intro s
      dsimp only
      split <;> exact Bool.false_ne_true
    case inserted | claimSelect | claimRead => exact absurd rfl hp
    all_goals first | trivial | exact fun _ => Bool.false_ne_true
  commit_outside worker p k hs := by
    rcases p with (_ | _ | _ | _) | _ | ⟨_ | _ | _ | _, now⟩ | _ | _ | _ | _ | _ | _ | _ <;>
      cases hs
    simp [IntentPlace.inside]

/-- The database with the workers on it. -/
abbrev LeaseDb := Db String IntentPlace Store

/-! ## The transactions -/

/-- The transaction that the worker opened at a place: the tables before and after
it, and what the call answers. -/
inductive Transacts (worker : String) :
    IntentPlace → Store → Store → Except ControllerError IntentAnswer → Prop
  | enqueue {runKey reason eventId intentId now s rows} :
      upsertIntent runKey reason eventId intentId now s.intents = some rows →
      Transacts worker (.timed (.enqueue runKey reason eventId intentId) now) s
        { s with intents := rows } (.ok (.row (rows.find? (·.runKey == runKey))))
  | idle {leaseSeconds now s} : nextClaimable now s.intents = none →
      Transacts worker (.timed (.claim leaseSeconds) now) s s (.ok (.row none))
  | claim {leaseSeconds now s r answer} : nextClaimable now s.intents = some r →
      Transacts worker (.timed (.claim leaseSeconds) now) s
        (s.updateIntents (fun q => q.intentId == r.intentId && q.claimable now)
          (·.claimed worker leaseSeconds now)) answer
  | update {intentId step leaseSeconds now s} :
      Transacts worker (.timed (.update intentId step leaseSeconds) now) s
        (s.updateIntents (fun q => q.intentId == intentId && q.leasedTo worker)
          (·.stepped step leaseSeconds now))
        (if s.intents.countP (fun q => q.intentId == intentId && q.leasedTo worker) = 1
          then .ok .unit else .error (leaseLost intentId))
  | finish {intentId revision leasedRevision error now s} :
      Transacts worker (.finishUpdate intentId revision leasedRevision error now) s
        (s.updateIntents (·.intentId == intentId)
          (·.finished (revision != leasedRevision) error now)) (.ok .unit)

/-- What an open transaction has done when it stands at a place. -/
def Inside (worker : String) (p₀ : IntentPlace) (s : Store) : IntentPlace → Store → Prop
  | .inserted runKey, t => ∃ reason eventId intentId now rows,
      p₀ = .timed (.enqueue runKey reason eventId intentId) now ∧
      upsertIntent runKey reason eventId intentId now s.intents = some rows ∧
      t = { s with intents := rows }
  | .claimSelect leaseSeconds now, t => p₀ = .timed (.claim leaseSeconds) now ∧ t = s
  | .claimUpdate intentId leaseSeconds now, t => p₀ = .timed (.claim leaseSeconds) now ∧ t = s ∧
      ∃ r, nextClaimable now s.intents = some r ∧ r.intentId = intentId
  | .claimRead _, t => ∀ answer, Transacts worker p₀ s t answer
  | .closing answer, t => Transacts worker p₀ s t answer
  | .answer _, _ => True
  | _, _ => False

theorem block_inside {worker : String} {p₀ p : IntentPlace} {s t : Store}
    (h₀ : p₀.inside = false) (h : Block intentCalls worker p₀ s p t) : Inside worker p₀ s p t := by
  induction h with
  | @begin k hs =>
    rcases p₀ with (_ | _ | _ | _) | _ | ⟨_ | _ | _ | _, now⟩ | _ | _ | _ | _ | _ | _ | _ <;>
      cases hs
    exact ⟨rfl, rfl⟩
  | @first f hs =>
    rcases p₀ with (_ | _ | _ | _) | _ | ⟨_ | _ | _ | _, now⟩ | _ | _ | _ | _ | _ | _ | _ <;>
      cases hs
    · dsimp only
      split
      · next rows hu => exact ⟨_, _, _, _, _, rfl, hu, rfl⟩
      · trivial
    · exact .update
    · cases h₀
    · exact .finish
  | @now p t k n _ hs ih =>
    rcases p with (_ | _ | _ | _) | _ | ⟨_ | _ | _ | _, now⟩ | _ | _ | _ | _ | _ | _ | _ <;>
      cases hs <;> cases ih
  | @select p t k _ hs ih =>
    rcases p with (_ | _ | _ | _) | _ | ⟨_ | _ | _ | _, now⟩ | _ | _ | _ | _ | _ | _ | _ <;>
      cases hs
    · cases ih
    · cases ih
    · obtain ⟨_, _, _, _, _, rfl, hu, rfl⟩ := ih
      exact .enqueue hu
    · obtain ⟨rfl, rfl⟩ := ih
      dsimp only
      split
      · next hn => exact .idle hn
      · next r hn => exact ⟨rfl, rfl, r, hn, rfl⟩
    · exact ih _
  | @write p t f _ hs ih =>
    rcases p with (_ | _ | _ | _) | _ | ⟨_ | _ | _ | _, now⟩ | _ | _ | _ | _ | _ | _ | _ <;>
      cases hs
    · cases ih
    · cases ih
    · obtain ⟨rfl, rfl, r, hn, rfl⟩ := ih
      dsimp only
      split
      · exact fun _ => .claim hn
      · exact .claim hn
    · cases ih

/-- A commit is one of the transactions. -/
theorem commits_transacts {s s' : LeaseDb} {a : Act String IntentCall} {worker : String}
    {p₀ k : IntentPlace} (h : Db.Commits intentCalls s a s' worker p₀ k) :
    ∃ answer, k = .answer answer ∧ Transacts worker p₀ s.tables s'.tables answer := by
  obtain ⟨p, hp, hb⟩ := h.block
  have hin := block_inside (Bool.eq_false_iff.mpr h.outside) hb
  rcases p with (_ | _ | _ | _) | _ | ⟨_ | _ | _ | _, now⟩ | _ | _ | _ | _ | _ | _ | _ <;>
    cases hp
  exact ⟨_, rfl, hin⟩

/-! ## The laws of the leases -/

/-- The worker holds the unexpired lease of the run's intent. -/
def Holds (s : LeaseDb) (worker runKey : String) : Prop :=
  ∃ r ∈ s.tables.intents, r.runKey = runKey ∧
    ∃ l, r.status = .leased l ∧ l.leaseOwner = worker ∧ s.clock ≤ l.leaseUntil

/-- The worker has the intent leased, expired or not. -/
def Store.HasLease (s : Store) (worker intentId : String) : Prop :=
  ∃ r ∈ s.intents, r.intentId = intentId ∧ r.leasedTo worker = true

/-- The transaction updates or finishes an intent that its worker has leased. -/
def IntentPlace.leaseOf : IntentPlace → Option String
  | .timed (.update intentId _ _) _ => some intentId
  | .finishUpdate intentId _ _ _ _ => some intentId
  | _ => none

/-- What the protocol promises of a step. -/
structure LeaseLaw (s : LeaseDb) (a : Act String IntentCall) (s' : LeaseDb) : Prop where
  oneHolder : ∀ v v' runKey, Holds s' v runKey → Holds s' v' runKey → v = v'
  /-- Nobody but its holder ends an unexpired lease. -/
  kept : ∀ v runKey, Holds s v runKey →
    (∃ n, a = .tick n) ∨ a = .stmt v ∨ Holds s' v runKey
  /-- Done is written by the lease owner, at the revision it leased. -/
  done : ∀ r ∈ s.tables.intents, ∀ r' ∈ s'.tables.intents, r'.intentId = r.intentId →
    r.status ≠ .done → r'.status = .done →
    ∃ l, r.status = .leased l ∧ a = .stmt l.leaseOwner ∧ l.leasedRevision = r.revision
  /-- A finish at another revision than the leased one makes the intent pending. -/
  rerun : ∀ worker revision leasedRevision error now k, ∀ r ∈ s.tables.intents, ∀ l,
    Db.Commits intentCalls s a s' worker
      (.finishUpdate r.intentId revision leasedRevision error now) k →
    r.status = .leased l → l.leaseOwner = worker → l.leasedRevision ≠ r.revision →
    ∀ r' ∈ s'.tables.intents, r'.intentId = r.intentId → r'.status = .pending
  /-- Who lost the lease gets an error and writes nothing. -/
  lost : ∀ worker p₀ k intentId, Db.Commits intentCalls s a s' worker p₀ k →
    p₀.leaseOf = some intentId → ¬ s.tables.HasLease worker intentId →
    s'.tables = s.tables ∧ k = .answer (.error (leaseLost intentId))
  refused : ∀ worker intentId error now,
    a = .stmt worker → s.place worker = some (.timed (.finish intentId error) now) →
    ¬ s.tables.HasLease worker intentId →
    s'.place worker = some (.answer (.error (leaseLost intentId)))
  eventId : ∀ r ∈ s.tables.intents, ∃ r' ∈ s'.tables.intents,
    r'.intentId = r.intentId ∧ r'.runKey = r.runKey ∧ r.eventId.getD 0 ≤ r'.eventId.getD 0

/-- Since the `SELECT` of a finish that commits, nobody has taken its intent over,
and nobody has enqueued it again when the finish is about to write done. -/
def FinishUndisturbed (s : LeaseDb) (a : Act String IntentCall) (s' : LeaseDb) : Prop :=
  ∀ worker intentId revision leasedRevision error now k,
    Db.Commits intentCalls s a s' worker
      (.finishUpdate intentId revision leasedRevision error now) k →
    ∃ r ∈ s.tables.intents, r.intentId = intentId ∧ r.leasedTo worker = true ∧
      (revision = leasedRevision → truthy error = false → r.revision = revision)

/-! ## What a transaction does to a row -/

/-- What becomes of a row in a transaction of the worker. -/
inductive RowChange (worker : String) (p₀ : IntentPlace) (r : ReconcileIntent) :
    ReconcileIntent → Prop
  | same : RowChange worker p₀ r r
  | enqueued (reason eventId now) : RowChange worker p₀ r (r.enqueued reason eventId now)
  | claimed {leaseSeconds now} : p₀ = .timed (.claim leaseSeconds) now →
      r.claimable now = true → RowChange worker p₀ r (r.claimed worker leaseSeconds now)
  | stepped (step leaseSeconds now) : r.leasedTo worker = true →
      RowChange worker p₀ r (r.stepped step leaseSeconds now)
  | finished {revision leasedRevision error now} :
      p₀ = .finishUpdate r.intentId revision leasedRevision error now →
      RowChange worker p₀ r (r.finished (revision != leasedRevision) error now)

section Rows

variable {worker : String} {p₀ : IntentPlace} {s t : Store} {r r' : ReconcileIntent}
  {answer : Except ControllerError IntentAnswer}

theorem RowChange.keys (h : RowChange worker p₀ r r') :
    r'.intentId = r.intentId ∧ r'.runKey = r.runKey := by
  cases h <;> exact ⟨rfl, rfl⟩

theorem RowChange.eventId (h : RowChange worker p₀ r r') :
    r.eventId.getD 0 ≤ r'.eventId.getD 0 := by
  cases h with
  | enqueued => exact Nat.le_max_left _ _
  | _ => exact Nat.le_refl _

theorem updated_rows {p : ReconcileIntent → Bool} {f : ReconcileIntent → ReconcileIntent}
    (hf : ∀ r ∈ s.intents, p r = true → RowChange worker p₀ r (f r)) :
    (∀ r ∈ s.intents, ∃ r' ∈ (s.updateIntents p f).intents, RowChange worker p₀ r r') ∧
    ∀ r' ∈ (s.updateIntents p f).intents, ∃ r ∈ s.intents, RowChange worker p₀ r r' := by
  have hchange : ∀ r ∈ s.intents, RowChange worker p₀ r (if p r then f r else r) := by
    intro r hr
    split
    · exact hf r hr ‹_›
    · exact .same
  constructor
  · exact fun r hr => ⟨_, mem_updateIntents.mpr ⟨r, hr, rfl⟩, hchange r hr⟩
  · intro r' hr'
    obtain ⟨r, hr, rfl⟩ := mem_updateIntents.mp hr'
    exact ⟨r, hr, hchange r hr⟩

/-- Every row is kept with a change, and what comes new is pending. -/
theorem transacts_rows (h : Transacts worker p₀ s t answer) :
    (∀ r ∈ s.intents, ∃ r' ∈ t.intents, RowChange worker p₀ r r') ∧
    ∀ r' ∈ t.intents, (∃ r ∈ s.intents, RowChange worker p₀ r r') ∨ r'.status = .pending := by
  have weaken : (∀ r ∈ s.intents, ∃ r' ∈ t.intents, RowChange worker p₀ r r') ∧
      (∀ r' ∈ t.intents, ∃ r ∈ s.intents, RowChange worker p₀ r r') →
      (∀ r ∈ s.intents, ∃ r' ∈ t.intents, RowChange worker p₀ r r') ∧
      ∀ r' ∈ t.intents, (∃ r ∈ s.intents, RowChange worker p₀ r r') ∨ r'.status = .pending :=
    fun h => ⟨h.1, fun r' hr' => .inl (h.2 r' hr')⟩
  cases h with
  | @enqueue runKey reason eventId intentId now _ rows hu =>
    unfold upsertIntent at hu
    split at hu
    · cases hu
      exact weaken (updated_rows (s := s) (p := (·.runKey == runKey))
        (f := (·.enqueued reason eventId now)) fun r _ _ => .enqueued _ _ _)
    · split at hu <;> cases hu
      refine ⟨fun r hr => ⟨r, List.mem_append_left _ hr, .same⟩, fun r' hr' => ?_⟩
      rcases List.mem_append.mp hr' with hr' | hr'
      · exact .inl ⟨r', hr', .same⟩
      · cases List.mem_singleton.mp hr'
        exact .inr rfl
  | idle => exact ⟨fun r hr => ⟨r, hr, .same⟩, fun r hr => .inl ⟨r, hr, .same⟩⟩
  | claim =>
    refine weaken (updated_rows fun r _ hp => .claimed rfl ?_)
    exact (Bool.and_eq_true_iff.mp hp).2
  | update =>
    refine weaken (updated_rows fun r _ hp => .stepped _ _ _ ?_)
    exact (Bool.and_eq_true_iff.mp hp).2
  | finish =>
    refine weaken (updated_rows fun r _ hp => .finished ?_)
    rw [eq_of_beq hp]

theorem transacts_keys (h : Transacts worker p₀ s t answer) (hk : IntentKeys s.intents) :
    IntentKeys t.intents := by
  cases h with
  | enqueue hu => exact hk.upsert hu
  | idle => exact hk
  | claim | update | finish => exact hk.update (fun _ => rfl) fun _ => rfl

theorem leasedTo_iff : r.leasedTo worker = true ↔
    ∃ l, r.status = .leased l ∧ l.leaseOwner = worker := by
  unfold ReconcileIntent.leasedTo
  cases r.status <;> simp

end Rows

/-! ## The invariant -/

/-- The time a call has read at a place. -/
def IntentPlace.time : IntentPlace → Nat
  | .timed _ now | .claimSelect _ now | .claimUpdate _ _ now | .finishUpdate _ _ _ _ now => now
  | _ => 0

structure LeaseInv (s : LeaseDb) : Prop where
  sound : s.Sound intentCalls
  keys : IntentKeys s.tables.intents
  time : ∀ worker p, s.place worker = some p → p.time ≤ s.clock
  sinceTime : ∀ x, s.writing = some x → x.since.time ≤ s.clock
  /-- A finish that still has its lease saw the revision that is leased. -/
  finishing : ∀ worker intentId revision leasedRevision error now,
    (s.place worker = some (.finishUpdate intentId revision leasedRevision error now) ∨
      s.writing.map (fun x => (x.worker, x.since)) =
        some (worker, .finishUpdate intentId revision leasedRevision error now)) →
    ∀ r ∈ s.tables.intents, r.intentId = intentId → ∀ l, r.status = .leased l →
      l.leaseOwner = worker → l.leasedRevision = leasedRevision

theorem goes_time {s : LeaseDb} {worker : String} {p q : IntentPlace}
    (hg : Db.Goes intentCalls s worker p q) (hp : p.time ≤ s.clock) : q.time ≤ s.clock := by
  cases hg with
  | now hs =>
    rcases p with (_ | _ | _ | _) | _ | ⟨_ | _ | _ | _, now⟩ | _ | _ | _ | _ | _ | _ | _ <;>
      cases hs <;> exact Nat.le_refl _
  | select hs =>
    rcases p with (_ | _ | _ | _) | _ | ⟨_ | _ | _ | _, now⟩ | _ | _ | _ | _ | _ | _ | _ <;>
      cases hs <;> dsimp only <;> try split
    all_goals first | exact hp | exact Nat.zero_le _
  | begin hs =>
    rcases p with (_ | _ | _ | _) | _ | ⟨_ | _ | _ | _, now⟩ | _ | _ | _ | _ | _ | _ | _ <;>
      cases hs
    exact hp
  | write hs =>
    rcases p with (_ | _ | _ | _) | _ | ⟨_ | _ | _ | _, now⟩ | _ | _ | _ | _ | _ | _ | _ <;>
      cases hs <;> dsimp only <;> try split
    all_goals exact Nat.zero_le _
  | commit hs =>
    rcases p with (_ | _ | _ | _) | _ | ⟨_ | _ | _ | _, now⟩ | _ | _ | _ | _ | _ | _ | _ <;>
      cases hs
    exact Nat.zero_le _

/-- Before the `SELECT` of its finish a worker has no transaction. -/
theorem visible_finish {s : LeaseDb} {worker intentId : String} {error : Option String}
    {now : Nat} (h : s.Sound intentCalls)
    (hp : s.place worker = some (.timed (.finish intentId error) now)) :
    s.visible worker = s.tables := by
  unfold Db.visible
  split
  · next x hx =>
    split
    · next hw =>
      obtain ⟨hout, p, hp', hb⟩ := h.block x hx
      rw [hw, hp] at hp'
      cases hp'
      exact (block_inside (Bool.eq_false_iff.mpr hout) hb).elim
    · rfl
  · rfl

theorem leasedRevisions_eq_some {s : Store} {worker intentId : String} {revisions : Nat × Nat}
    (h : s.leasedRevisions worker intentId = some revisions) :
    ∃ r ∈ s.intents, ∃ l, r.status = .leased l ∧ r.intentId = intentId ∧
      l.leaseOwner = worker ∧ revisions = (r.revision, l.leasedRevision) := by
  obtain ⟨r, hr, hf⟩ := List.exists_of_findSome?_eq_some h
  split at hf
  · next l hl =>
    split at hf
    · next hc => exact ⟨r, hr, l, hl, hc.1, hc.2, (Option.some.inj hf).symm⟩
    · cases hf
  · cases hf

theorem leasedRevisions_none {s : Store} {worker intentId : String}
    (h : ¬ s.HasLease worker intentId) : s.leasedRevisions worker intentId = none := by
  cases hl : s.leasedRevisions worker intentId with
  | none => rfl
  | some revisions =>
    obtain ⟨r, hr, l, hl, hid, ho, _⟩ := leasedRevisions_eq_some hl
    exact absurd ⟨r, hr, hid, leasedTo_iff.mpr ⟨l, hl, ho⟩⟩ h

/-- Only the `SELECT` of a finish leads to its update. -/
theorem goes_finishUpdate {s : LeaseDb} {worker intentId : String} {p : IntentPlace}
    {revision leasedRevision now : Nat} {error : Option String}
    (hg : Db.Goes intentCalls s worker p
      (.finishUpdate intentId revision leasedRevision error now)) :
    p = .timed (.finish intentId error) now ∧
      (s.visible worker).leasedRevisions worker intentId = some (revision, leasedRevision) := by
  generalize hq : IntentPlace.finishUpdate intentId revision leasedRevision error now = q at hg
  cases hg with
  | select hs =>
    rcases p with (_ | _ | _ | _) | _ | ⟨_ | _ | _ | _, now⟩ | _ | _ | _ | _ | _ | _ | _ <;>
      cases hs <;> dsimp only at hq <;> try split at hq
    all_goals cases hq
    exact ⟨rfl, ‹_›⟩
  | write hs =>
    rcases p with (_ | _ | _ | _) | _ | ⟨_ | _ | _ | _, now⟩ | _ | _ | _ | _ | _ | _ | _ <;>
      cases hs <;> dsimp only at hq <;> try split at hq
    all_goals cases hq
  | now hs | begin hs | commit hs =>
    rcases p with (_ | _ | _ | _) | _ | ⟨_ | _ | _ | _, now⟩ | _ | _ | _ | _ | _ | _ | _ <;>
      cases hs <;> cases hq

section Step

variable {s s' : LeaseDb} {a : Act String IntentCall}

theorem LeaseInv.keys_act (h : LeaseInv s) (ha : s.act intentCalls a = some s') :
    IntentKeys s'.tables.intents := by
  obtain ht | ⟨w, p₀, k, hc⟩ := Db.act_tables h.sound ha
  · rw [ht]
    exact h.keys
  · obtain ⟨answer, _, ht⟩ := commits_transacts hc
    exact transacts_keys ht h.keys

/-- A lease that a committed row has was there before, or its owner has just
committed its claim. -/
theorem LeaseInv.lease_act (h : LeaseInv s) (ha : s.act intentCalls a = some s')
    {r' : ReconcileIntent} (hr' : r' ∈ s'.tables.intents) {l' : Lease}
    (hl' : r'.status = .leased l') :
    (∃ r ∈ s.tables.intents, r.intentId = r'.intentId ∧
      ∃ l, r.status = .leased l ∧ l.leaseOwner = l'.leaseOwner ∧
        l.leasedRevision = l'.leasedRevision) ∨
    ∃ p₀ k, Db.Commits intentCalls s a s' l'.leaseOwner p₀ k := by
  obtain ht | ⟨w, p₀, k, hc⟩ := Db.act_tables h.sound ha
  · rw [ht] at hr'
    exact .inl ⟨r', hr', rfl, l', hl', rfl, rfl⟩
  · obtain ⟨answer, _, ht⟩ := commits_transacts hc
    obtain ⟨r, hr, hchange⟩ | hpending := (transacts_rows ht).2 r' hr'
    · refine (em (w = l'.leaseOwner)).elim (fun hw => .inr ⟨p₀, k, hw ▸ hc⟩) fun hw => .inl ?_
      refine ⟨r, hr, hchange.keys.1.symm, ?_⟩
      cases hchange with
      | same => exact ⟨l', hl', rfl, rfl⟩
      | enqueued =>
        simp only [ReconcileIntent.enqueued] at hl'
        split at hl' <;> cases hl'
        exact ⟨l', ‹_›, rfl, rfl⟩
      | claimed =>
        cases hl'
        exact absurd rfl hw
      | stepped =>
        simp only [ReconcileIntent.stepped] at hl'
        split at hl'
        · next l hl =>
          cases hl'
          exact ⟨l, hl, rfl, rfl⟩
        · exact ⟨l', hl', rfl, rfl⟩
      | finished =>
        simp only [ReconcileIntent.finished] at hl'
        split at hl' <;> cases hl'
    · rw [hpending] at hl'
      cases hl'

theorem LeaseInv.act (h : LeaseInv s) (ha : s.act intentCalls a = some s') : LeaseInv s' where
  sound := h.sound.act ha
  keys := h.keys_act ha
  time worker q hq := by
    obtain hq | ⟨c, rfl⟩ | ⟨p, _, hp, hg⟩ := Db.act_place ha hq
    · exact (h.time worker q hq).trans (Db.act_clock_le ha)
    · exact Nat.zero_le _
    · exact (goes_time hg (h.time worker p hp)).trans (Db.act_clock_le ha)
  sinceTime x hx := by
    obtain ⟨y, hy, _, hs⟩ | ⟨_, hp⟩ := Db.act_writing ha hx
    · exact hs ▸ (h.sinceTime y hy).trans (Db.act_clock_le ha)
    · exact (h.time _ _ hp).trans (Db.act_clock_le ha)
  finishing worker intentId revision leasedRevision error now hp r' hr' hid l' hl' hown := by
    subst hown
    obtain ⟨r, hr, hrid, l, hl, ho, hrev⟩ | ⟨p₀, k, hc⟩ := h.lease_act ha hr' hl'
    · rw [← hrev]
      rw [← hrid] at hid
      have before := fun hb => h.finishing l'.leaseOwner intentId revision leasedRevision error now hb
        r hr hid l hl ho
      rcases hp with hp | hp
      · obtain hq | ⟨c, hc⟩ | ⟨p, _, hpl, hg⟩ := Db.act_place ha hp
        · exact before (.inl hq)
        · cases hc
        · -- the worker has just read the revisions
          obtain ⟨rfl, hread⟩ := goes_finishUpdate hg
          rw [visible_finish h.sound hpl] at hread
          obtain ⟨r₂, hr₂, l₂, hl₂, hid₂, ho₂, heq⟩ := leasedRevisions_eq_some hread
          cases h.keys.eq_of_id hr hr₂ (hid.trans hid₂.symm)
          cases hl.symm.trans hl₂
          exact (Prod.mk.inj heq).2.symm
      · obtain ⟨x, hx, hxe⟩ := Option.map_eq_some_iff.mp hp
        obtain ⟨y, hy, hyw, hys⟩ | ⟨_, hpl⟩ := Db.act_writing ha hx
        · refine before (.inr ?_)
          rw [hy, Option.map_some, hyw, hys, hxe]
        · rw [(Prod.mk.inj hxe).1, (Prod.mk.inj hxe).2] at hpl
          exact before (.inl hpl)
    · -- a worker that has just committed does not stand at a finish
      rcases hp with hp | hp
      · obtain ⟨answer, rfl, _⟩ := commits_transacts hc
        rw [hc.place] at hp
        simp at hp
      · rw [hc.closed] at hp
        cases hp

end Step

/-! ## The protocol -/

section Law

variable {s s' : LeaseDb} {a : Act String IntentCall}

/-- A finish whose lease is in order. -/
theorem FinishUndisturbed.row (hf : FinishUndisturbed s a s') (h : LeaseInv s) {worker : String}
    {revision leasedRevision now : Nat} {error : Option String} {k : IntentPlace}
    {r : ReconcileIntent} (hr : r ∈ s.tables.intents)
    (hc : Db.Commits intentCalls s a s' worker
      (.finishUpdate r.intentId revision leasedRevision error now) k) :
    ∃ l, r.status = .leased l ∧ l.leaseOwner = worker ∧ l.leasedRevision = leasedRevision ∧
      (revision = leasedRevision → truthy error = false → r.revision = revision) := by
  obtain ⟨r₂, hr₂, hid, hlease, hrev⟩ := hf _ _ _ _ _ _ _ hc
  cases h.keys.eq_of_id hr₂ hr hid
  obtain ⟨l, hl, ho⟩ := leasedTo_iff.mp hlease
  exact ⟨l, hl, ho, h.finishing _ _ _ _ _ _ (.inr hc.opened) _ hr rfl l hl ho, hrev⟩

theorem LeaseInv.oneHolder (h : LeaseInv s) (v v' runKey : String) (hv : Holds s v runKey)
    (hv' : Holds s v' runKey) : v = v' := by
  obtain ⟨r, hr, hk, l, hl, rfl, _⟩ := hv
  obtain ⟨r', hr', hk', l', hl', rfl, _⟩ := hv'
  cases h.keys.eq_of_run hr hr' (hk.trans hk'.symm)
  cases hl.symm.trans hl'
  rfl

theorem lease_kept (h : LeaseInv s) (ha : s.act intentCalls a = some s')
    (hf : FinishUndisturbed s a s') (v runKey : String) (hv : Holds s v runKey) :
    (∃ n, a = .tick n) ∨ a = .stmt v ∨ Holds s' v runKey := by
  obtain hclock | ⟨n, hn, _⟩ := Db.act_clock ha
  · obtain ⟨r, hr, hk, l, hl, ho, huntil⟩ := hv
    obtain ht | ⟨w, p₀, k, hc⟩ := Db.act_tables h.sound ha
    · exact .inr (.inr ⟨r, ht ▸ hr, hk, l, hl, ho, hclock ▸ huntil⟩)
    · by_cases hw : w = v
      · exact .inr (.inl (hw ▸ hc.act))
      · obtain ⟨answer, _, ht⟩ := commits_transacts hc
        obtain ⟨r', hr', hchange⟩ := (transacts_rows ht).1 r hr
        refine .inr (.inr ⟨r', hr', hchange.keys.2.trans hk, ?_⟩)
        rw [hclock]
        cases hchange with
        | same => exact ⟨l, hl, ho, huntil⟩
        | enqueued => exact ⟨l, by simp [ReconcileIntent.enqueued, hl], ho, huntil⟩
        | @claimed leaseSeconds now hp hclaim =>
          -- the lease would have had to expire by the time the claim read
          obtain ⟨x, hx, hxe⟩ := Option.map_eq_some_iff.mp hc.opened
          have htime := h.sinceTime x hx
          rw [(Prod.mk.inj hxe).2, hp] at htime
          simp only [ReconcileIntent.claimable, hl, decide_eq_true_eq] at hclaim
          simp only [IntentPlace.time] at htime
          omega
        | stepped _ _ _ hlease =>
          obtain ⟨l₂, hl₂, ho₂⟩ := leasedTo_iff.mp hlease
          cases hl.symm.trans hl₂
          exact absurd (ho₂.symm.trans ho) hw
        | finished hp =>
          subst hp
          obtain ⟨l₂, hl₂, ho₂, _⟩ := hf.row h hr hc
          cases hl.symm.trans hl₂
          exact absurd (ho₂.symm.trans ho) hw
  · exact .inl ⟨n, hn⟩

theorem lease_done (h : LeaseInv s) (ha : s.act intentCalls a = some s')
    (hf : FinishUndisturbed s a s') {r r' : ReconcileIntent} (hr : r ∈ s.tables.intents)
    (hr' : r' ∈ s'.tables.intents) (hid : r'.intentId = r.intentId) (hbefore : r.status ≠ .done)
    (hdone : r'.status = .done) :
    ∃ l, r.status = .leased l ∧ a = .stmt l.leaseOwner ∧ l.leasedRevision = r.revision := by
  obtain ht | ⟨w, p₀, k, hc⟩ := Db.act_tables h.sound ha
  · rw [ht] at hr'
    cases h.keys.eq_of_id hr' hr hid
    exact absurd hdone hbefore
  · obtain ⟨answer, _, ht⟩ := commits_transacts hc
    obtain ⟨r₂, hr₂, hchange⟩ | hpending := (transacts_rows ht).2 r' hr'
    · cases h.keys.eq_of_id hr₂ hr (hchange.keys.1.symm.trans hid)
      cases hchange with
      | same => exact absurd hdone hbefore
      | enqueued =>
        simp only [ReconcileIntent.enqueued] at hdone
        split at hdone <;> cases hdone
      | claimed => cases hdone
      | stepped _ _ _ hlease =>
        obtain ⟨l, hl, _⟩ := leasedTo_iff.mp hlease
        simp [ReconcileIntent.stepped, hl] at hdone
      | @finished revision leasedRevision error now hp =>
        subst hp
        obtain ⟨l, hl, ho, hleased, hrev⟩ := hf.row h hr hc
        simp only [ReconcileIntent.finished] at hdone
        split at hdone
        · cases hdone
        · next hrerun =>
          simp only [bne_iff_ne, ne_eq, Bool.or_eq_true, not_or, Classical.not_not,
            Bool.not_eq_true] at hrerun
          refine ⟨l, hl, ho ▸ hc.act, ?_⟩
          rw [hleased, hrev hrerun.1 hrerun.2, hrerun.1]
    · rw [hpending] at hdone
      cases hdone

theorem lease_rerun (h : LeaseInv s) (hf : FinishUndisturbed s a s') {worker : String}
    {revision leasedRevision now : Nat} {error : Option String} {k : IntentPlace}
    {r r' : ReconcileIntent} {l : Lease} (hr : r ∈ s.tables.intents)
    (hc : Db.Commits intentCalls s a s' worker
      (.finishUpdate r.intentId revision leasedRevision error now) k)
    (hl : r.status = .leased l) (hne : l.leasedRevision ≠ r.revision)
    (hr' : r' ∈ s'.tables.intents) (hid : r'.intentId = r.intentId) : r'.status = .pending := by
  obtain ⟨l₂, hl₂, _, hleased, hrev⟩ := hf.row h hr hc
  cases hl.symm.trans hl₂
  obtain ⟨answer, _, ht⟩ := commits_transacts hc
  generalize s'.tables = t at ht hr'
  cases ht with
  | finish =>
    obtain ⟨r₂, hr₂, rfl⟩ := mem_updateIntents.mp hr'
    have hid₂ : r₂.intentId = r.intentId := by
      rw [← hid]
      split <;> rfl
    cases h.keys.eq_of_id hr₂ hr hid₂
    simp only [beq_self_eq_true, if_true, ReconcileIntent.finished]
    split
    · rfl
    · next hrerun =>
      simp only [bne_iff_ne, ne_eq, Bool.or_eq_true, not_or, Classical.not_not,
        Bool.not_eq_true] at hrerun
      rw [hrev hrerun.1 hrerun.2, hrerun.1, hleased] at hne
      exact absurd rfl hne

theorem lease_lost (hf : FinishUndisturbed s a s') {worker intentId : String}
    {p₀ k : IntentPlace} (hc : Db.Commits intentCalls s a s' worker p₀ k)
    (hp : p₀.leaseOf = some intentId) (hlost : ¬ s.tables.HasLease worker intentId) :
    s'.tables = s.tables ∧ k = .answer (.error (leaseLost intentId)) := by
  obtain ⟨answer, rfl, ht⟩ := commits_transacts hc
  have hno : ∀ r ∈ s.tables.intents, (r.intentId == intentId && r.leasedTo worker) = false := by
    intro r hr
    by_contra hb
    have hb := Bool.and_eq_true_iff.mp (Bool.not_eq_false _ ▸ hb)
    exact hlost ⟨r, hr, eq_of_beq hb.1, hb.2⟩
  generalize s'.tables = t at ht
  cases ht with
  | enqueue | idle | claim => cases hp
  | update =>
    cases hp
    have hcount : s.tables.intents.countP (fun q => q.intentId == intentId && q.leasedTo worker)
        = 0 := by
      rw [List.countP_eq_zero]
      exact fun r hr => by simp [hno r hr]
    constructor
    · have hsame : ∀ rows : List ReconcileIntent, rows = s.tables.intents →
          ∀ f, updateIntents (fun q => q.intentId == intentId && q.leasedTo worker) f rows
            = rows := by
        rintro _ rfl f
        exact (List.map_congr_left fun r hr => by simp [hno r hr]).trans (List.map_id' _)
      simp [Store.updateIntents, hsame _ rfl]
    · simp [hcount]
  | finish =>
    cases hp
    obtain ⟨r, hr, hid, hlease, _⟩ := hf _ _ _ _ _ _ _ hc
    exact absurd ⟨r, hr, hid, hlease⟩ hlost

theorem lease_refused (h : LeaseInv s) (ha : s.act intentCalls a = some s') {worker : String}
    {intentId : String} {error : Option String} {now : Nat} (hstmt : a = .stmt worker)
    (hp : s.place worker = some (.timed (.finish intentId error) now))
    (hlost : ¬ s.tables.HasLease worker intentId) :
    s'.place worker = some (.answer (.error (leaseLost intentId))) := by
  subst hstmt
  simp only [Db.act, hp, Option.bind_some] at ha
  simp only [intentCalls, intentStmt, Db.exec, visible_finish h.sound hp,
    leasedRevisions_none hlost, Option.some.injEq] at ha
  rw [← ha]
  simp

theorem lease_eventId (h : LeaseInv s) (ha : s.act intentCalls a = some s') (r : ReconcileIntent)
    (hr : r ∈ s.tables.intents) : ∃ r' ∈ s'.tables.intents, r'.intentId = r.intentId ∧
      r'.runKey = r.runKey ∧ r.eventId.getD 0 ≤ r'.eventId.getD 0 := by
  obtain ht | ⟨w, p₀, k, hc⟩ := Db.act_tables h.sound ha
  · exact ⟨r, ht ▸ hr, rfl, rfl, Nat.le_refl _⟩
  · obtain ⟨answer, _, ht⟩ := commits_transacts hc
    obtain ⟨r', hr', hchange⟩ := (transacts_rows ht).1 r hr
    exact ⟨r', hr', hchange.keys.1, hchange.keys.2, hchange.eventId⟩

/-- A step keeps the promises exactly when no finish is disturbed in it. -/
theorem leaseLaw_iff (h : LeaseInv s) (ha : s.act intentCalls a = some s') :
    LeaseLaw s a s' ↔ FinishUndisturbed s a s' := by
  constructor
  · intro law worker intentId revision leasedRevision error now k hc
    by_cases hlease : s.tables.HasLease worker intentId
    · obtain ⟨r, hr, rfl, hleased⟩ := hlease
      refine ⟨r, hr, rfl, hleased, fun hrev herror => ?_⟩
      obtain ⟨l, hl, ho⟩ := leasedTo_iff.mp hleased
      obtain ⟨answer, _, ht⟩ := commits_transacts hc
      have hdone : ∃ r' ∈ s'.tables.intents, r'.intentId = r.intentId ∧ r'.status = .done := by
        generalize s'.tables = t at ht
        cases ht
        refine ⟨_, mem_updateIntents.mpr ⟨r, hr, rfl⟩, ?_⟩
        simp [ReconcileIntent.finished, hrev, herror]
      obtain ⟨r', hr', hid, hstatus⟩ := hdone
      obtain ⟨l₂, hl₂, _, hleasedRev⟩ := law.done r hr r' hr' hid (by simp [hl]) hstatus
      cases hl.symm.trans hl₂
      have := h.finishing _ _ _ _ _ _ (.inr hc.opened) r hr rfl l hl ho
      omega
    · obtain ⟨_, hk⟩ := law.lost _ _ _ _ hc rfl hlease
      obtain ⟨answer, rfl, ht⟩ := commits_transacts hc
      cases hk
      generalize s'.tables = t at ht
      cases ht
  · intro hf
    exact
      { oneHolder := (h.act ha).oneHolder
        kept := lease_kept h ha hf
        done := fun r hr r' hr' hid => lease_done h ha hf hr hr' hid
        rerun := fun _ _ _ _ _ _ r hr l hc hl _ hne r' hr' hid =>
          lease_rerun h hf hr hc hl hne hr' hid
        lost := fun _ _ _ _ hc => lease_lost hf hc
        refused := fun _ _ _ _ => lease_refused h ha
        eventId := lease_eventId h ha }

end Law

/-- A database without intents, and nobody at work on it. -/
def leaseDb (s : Store) (clock : Nat) : LeaseDb where
  clock
  tables := { s with intents := [] }
  writing := none
  place _ := none

theorem leaseInv_leaseDb (s : Store) (clock : Nat) : LeaseInv (leaseDb s clock) where
  sound := { block := (fun _ h => nomatch h), inside := (fun _ _ h => nomatch h) }
  keys := ⟨List.nodup_nil, List.nodup_nil⟩
  time _ _ h := nomatch h
  sinceTime _ h := nomatch h
  finishing _ _ _ _ _ _ h := by rcases h with h | h <;> cases h

/-- **The lease protocol.** Along a run every step keeps the promises exactly when no
finish is disturbed between its `SELECT` and its `UPDATE`. -/
theorem leases_iff (s : Store) (clock : Nat) (as : List (Act String IntentCall)) :
    Along (Db.act intentCalls) LeaseLaw (leaseDb s clock) as ↔
      Along (Db.act intentCalls) FinishUndisturbed (leaseDb s clock) as :=
  along_iff (I := LeaseInv) (fun _ _ _ h ha => h.act ha) (fun _ _ _ h ha => leaseLaw_iff h ha)
    (leaseInv_leaseDb s clock)

/-! ## An enqueue between the statements of a finish -/

def statements (worker : String) (n : Nat) : List (Act String IntentCall) :=
  List.replicate n (.stmt worker)

/-- A worker claims the intent and is about to finish it when the run is enqueued
once more. -/
def lateEnqueueRun : List (Act String IntentCall) :=
  .enter "worker-a" (.enqueue "run-a" "event" (some 10) "intent-1") :: statements "worker-a" 6 ++
  .enter "worker-a" (.claim 60) :: statements "worker-a" 7 ++
  .enter "worker-a" (.finish "intent-1" none) :: statements "worker-a" 2 ++
  .enter "worker-b" (.enqueue "run-a" "newer-event" (some 12) "intent-2") ::
    statements "worker-b" 6 ++
  statements "worker-a" 1

def lateEnqueueDb : LeaseDb := leaseDb { runs := [sampleRun "run-a" "g1" 1] } 100

/-- The intent when the finish is about to write. -/
def lateEnqueueIntent : ReconcileIntent where
  intentId := "intent-1"
  runKey := "run-a"
  reason := "newer-event"
  status := .leased ⟨"worker-a", 160, 1, "claimed"⟩
  eventId := some 12
  attempts := 1
  revision := 2
  createdAt := 100
  updatedAt := 100

/-- The finish writes done over an intent that was enqueued after its `SELECT`. -/
theorem lateEnqueue_done :
    ¬ Along (Db.act intentCalls) LeaseLaw lateEnqueueDb (lateEnqueueRun ++ [.stmt "worker-a"]) := by
  intro h
  have hrows : ((steps (Db.act intentCalls) lateEnqueueDb lateEnqueueRun).bind fun t =>
      (t.act intentCalls (.stmt "worker-a")).map fun t' =>
        (t.tables.intents, t'.tables.intents)) =
      some ([lateEnqueueIntent], [{ lateEnqueueIntent with status := .done }]) := by
    decide +kernel
  obtain ⟨t, ht, hrows⟩ := Option.bind_eq_some_iff.mp hrows
  obtain ⟨t', ht', hrows⟩ := Option.map_eq_some_iff.mp hrows
  have law := h.last ht ht'
  have hr : lateEnqueueIntent ∈ t.tables.intents := by simp [(Prod.mk.inj hrows).1]
  obtain ⟨l, hl, _, hrevision⟩ := law.done _ hr { lateEnqueueIntent with status := .done }
    (by simp [(Prod.mk.inj hrows).2]) rfl (by decide) rfl
  cases hl
  exact absurd hrevision (by decide)

end HollysysController
