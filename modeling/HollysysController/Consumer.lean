import HollysysController.Leases

/-! # Consumers of the reconcile intents

The threads of the Controller around the in-flight guard: `consume_reconcile_once`
with the policy and `reconcile_run` under it, other passes over a run, and
whoever else claims a run for a while. Each transaction on the intents is one
step; a finish reads and writes in two. -/

namespace HollysysController

open Durable

/-- A claimed intent in the hands of a consumer, with the revision it leased. -/
structure Claim where
  intentId : String
  runKey : String
  revision : Nat
  deriving DecidableEq, Repr

/-- A pass over a run, for a claimed intent or for another reason. -/
inductive Pass where
  | claimed (c : Claim)
  | direct (runKey : String)
  deriving DecidableEq, Repr

def Pass.runKey : Pass → String
  | .claimed c => c.runKey
  | .direct runKey => runKey

def Pass.claim : Pass → Option Claim
  | .claimed c => some c
  | .direct _ => none

/-- How a step of code that is not embedded here ends. -/
abbrev Ending := Except ControllerError Unit

/-- Where a thread stands. -/
inductive ThreadPlace where
  | enqueue (runKey reason : String) (eventId : Option Nat) (intentId : String)
  | claim (leaseSeconds : Nat)
  | firstStep (c : Claim) (leaseSeconds : Nat)
  | circuit (x : Pass)
  | guard (x : Pass)
  | body (x : Pass)
  | running (x : Pass) (revision : Nat)
  | discard (x : Pass) (ending : Ending)
  | recovering (x : Pass)
  | settling (x : Pass) (e : ControllerError) (complete : Bool)
  | passed (x : Pass) (ending : Ending)
  | lastStep (c : Claim)
  | finish (c : Claim) (error : Option String)
  | finishUpdate (c : Claim) (revision leasedRevision : Nat) (error : Option String)
  | hold (runKey : String)
  | holding (runKey : String)
  deriving DecidableEq

structure Threads where
  clock : Nat
  store : Store
  /-- `_reconciling_runs`. -/
  reconciling : List String := []
  /-- A ghost: the complete passes, each with its run and the revision its intent
  had when the body started. -/
  bodies : List (String × Nat) := []
  place : String → Option ThreadPlace := fun _ => none

/-- What a thread may be asked to do. -/
inductive ThreadCall where
  | enqueue (runKey reason : String) (eventId : Option Nat) (intentId : String)
  | consume (leaseSeconds : Nat)
  | reconcileWithPolicy (runKey : String)
  | reconcile (runKey : String)
  /-- A start, a resolve, a recovery or a watchdog, with the run to itself. -/
  | hold (runKey : String)
  deriving DecidableEq, Repr

def ThreadCall.entry : ThreadCall → ThreadPlace
  | enqueue runKey reason eventId intentId => .enqueue runKey reason eventId intentId
  | consume leaseSeconds => .claim leaseSeconds
  | reconcileWithPolicy runKey => .circuit (.direct runKey)
  | reconcile runKey => .guard (.direct runKey)
  | hold runKey => .hold runKey

inductive ThreadAct where
  | enter (thread : String) (c : ThreadCall)
  /-- The thread goes on; the answer ends the code that is not embedded here, or is
  the error of its database statement. -/
  | go (thread : String) (answer : Ending)
  /-- Another transaction, which leaves the intents alone. -/
  | other (f : Store → Store)
  | tick (seconds : Nat)
  | crash

/-- The revision of a run's intent. -/
def Store.intentRevision (s : Store) (runKey : String) : Nat :=
  ((s.intents.find? (·.runKey == runKey)).map (·.revision)).getD 0

/-- The end of a pass whose error went through the policy; the answer is that of
`_record_run_exception` or `_handle_dependency_error`. -/
def policyEnding (runKey : String) (answer : Ending) : ControllerError → Ending
  | .fatal text => .error (.fatal text)
  | .runtimeError text | .permissionError text | .superseded text =>
    .error (.fatal s!"run_reconcile_failed:{runKey}:{text}")
  | _ => answer

/-- `except Exception` of `consume_reconcile_once`; an error of the finish there ends
the call. -/
def consumerFailed (c : Claim) (e : ControllerError) : Option String → Option ThreadPlace
  | none => some (.finish c (some e.text))
  | some _ => none

namespace Threads

def updateIntents (s : Threads) (p : ReconcileIntent → Bool)
    (f : ReconcileIntent → ReconcileIntent) : Threads :=
  { s with store := s.store.updateIntents p f }

/-- A statement of a thread, and where it goes from there. -/
def next (s : Threads) (thread : String) : ThreadPlace → Ending → Threads × Option ThreadPlace
  | .enqueue _ _ _ _, .error _ => (s, none)
  | .enqueue runKey reason eventId intentId, .ok _ =>
    if (s.store.runRecord runKey).isSome then
      match upsertIntent runKey reason eventId intentId s.clock s.store.intents with
      | some rows => ({ s with store := { s.store with intents := rows } }, none)
      | none => (s, none)
    else (s, none)
  | .claim _, .error _ => (s, none)
  | .claim leaseSeconds, .ok _ =>
    match nextClaimable s.clock s.store.intents with
    | none => (s, none)
    | some r =>
      (s.updateIntents (fun q => q.intentId == r.intentId && q.claimable s.clock)
          (·.claimed thread leaseSeconds s.clock),
        some (.firstStep ⟨r.intentId, r.runKey, r.revision⟩ leaseSeconds))
  | .firstStep c _, .error e => (s, consumerFailed c e none)
  | .firstStep c leaseSeconds, .ok _ =>
    let p := fun q : ReconcileIntent => q.intentId == c.intentId && q.leasedTo thread
    (s.updateIntents p (·.stepped "recompute-kanban-gitlab" leaseSeconds s.clock),
      if s.store.intents.countP p = 1 then some (.circuit (.claimed c))
      else consumerFailed c (leaseLost c.intentId) none)
  | .circuit x, .error e => (s, some (.passed x (.error e)))
  | .circuit x, .ok _ =>
    (s, some (if s.store.retryBlocked "gitlab" s.clock then .passed x (.ok ()) else .guard x))
  | .guard x, _ =>
    if s.reconciling.contains x.runKey then (s, some (.passed x (.ok ())))
    else ({ s with reconciling := x.runKey :: s.reconciling }, some (.body x))
  | .body x, _ => (s, some (.running x (s.store.intentRevision x.runKey)))
  | .running x revision, .ok _ =>
    ({ s with bodies := (x.runKey, revision) :: s.bodies }, some (.discard x (.ok ())))
  | .running x _, .error e => (s, some (.discard x (.error e)))
  | .discard x ending, _ =>
    ({ s with reconciling := s.reconciling.filter (· != x.runKey) },
      some (match ending with
        | .ok _ => .recovering x
        | .error (.superseded _) => .passed x (.ok ())
        | .error e => .settling x e false))
  | .recovering x, .ok _ => (s, some (.passed x (.ok ())))
  | .recovering x, .error e => (s, some (.settling x e true))
  | .settling x e _, answer => (s, some (.passed x (policyEnding x.runKey answer e)))
  | .passed (.direct _) _, _ => (s, none)
  | .passed (.claimed c) (.ok _), _ => (s, some (.lastStep c))
  | .passed (.claimed c) (.error e), _ => (s, consumerFailed c e none)
  | .lastStep c, .error e => (s, consumerFailed c e none)
  | .lastStep c, .ok _ =>
    -- the text also names the duration
    let p := fun q : ReconcileIntent => q.intentId == c.intentId && q.leasedTo thread
    (s.updateIntents p (·.stepped "completed" 60 s.clock),
      if s.store.intents.countP p = 1 then some (.finish c none)
      else consumerFailed c (leaseLost c.intentId) none)
  | .finish c error, .error e => (s, consumerFailed c e error)
  | .finish c error, .ok _ =>
    (s, match s.store.leasedRevisions thread c.intentId with
      | none => consumerFailed c (leaseLost c.intentId) error
      | some (revision, leasedRevision) => some (.finishUpdate c revision leasedRevision error))
  | .finishUpdate c _ _ error, .error e => (s, consumerFailed c e error)
  | .finishUpdate c revision leasedRevision error, .ok _ =>
    (s.updateIntents (·.intentId == c.intentId)
      (·.finished (revision != leasedRevision) error s.clock), none)
  | .hold runKey, _ =>
    if s.reconciling.contains runKey then (s, none)
    else ({ s with reconciling := runKey :: s.reconciling }, some (.holding runKey))
  | .holding runKey, _ =>
    ({ s with reconciling := s.reconciling.filter (· != runKey) }, none)

/-- The thread goes to a place, or leaves. -/
def put (s : Threads) (thread : String) (q : Option ThreadPlace) : Threads :=
  { s with place := Function.update s.place thread q }

/-- One step, `none` when it cannot happen. -/
def step (s : Threads) : ThreadAct → Option Threads
  | .enter thread c =>
    if s.place thread = none then some (s.put thread (some c.entry)) else none
  | .go thread answer => (s.place thread).map fun p =>
    (s.next thread p answer).1.put thread (s.next thread p answer).2
  | .other f => some { s with store := { f s.store with intents := s.store.intents } }
  | .tick seconds => some { s with clock := s.clock + seconds }
  | .crash => some { s with reconciling := [], place := fun _ => none }

end Threads

/-! ## What done stands for -/

/-- An intent becomes done only if a complete body of its run was started after the
last enqueue that its revision covers. -/
def DoneCovered (s : Threads) (_ : ThreadAct) (s' : Threads) : Prop :=
  ∀ r ∈ s.store.intents, ∀ r' ∈ s'.store.intents, r'.intentId = r.intentId →
    r.status ≠ .done → r'.status = .done →
    ∃ b ∈ s.bodies, b.1 = r'.runKey ∧ r'.revision ≤ b.2

/-- Where a consumer decides whether the body runs, it goes on to run it to its end,
and where it writes done, nobody has enqueued the run since it looked. -/
def Completes (s : Threads) (answer : Ending) : ThreadPlace → Prop
  | .circuit (.claimed _) => answer = .ok () → s.store.retryBlocked "gitlab" s.clock = false
  | .guard (.claimed c) => c.runKey ∉ s.reconciling
  | .discard (.claimed _) (.error (.superseded _)) => False
  | .settling (.claimed c) e false => policyEnding c.runKey answer e ≠ .ok ()
  | .finish _ error => error ≠ some ""
  | .finishUpdate c revision leasedRevision _ => answer = .ok () → revision = leasedRevision →
    ∀ r ∈ s.store.intents, r.intentId = c.intentId → r.revision = revision
  | _ => True

def PassesComplete (s : Threads) (a : ThreadAct) (_ : Threads) : Prop :=
  match a with
  | .go thread answer => ∀ p ∈ s.place thread, Completes s answer p
  | _ => True

section Decidable

variable (s s' : Threads) (a : ThreadAct) (answer : Ending) (p : ThreadPlace)

instance : Decidable (DoneCovered s a s') := by
  unfold DoneCovered
  infer_instance

instance : Decidable (Completes s answer p) := by
  unfold Completes
  split <;> infer_instance

instance : Decidable (PassesComplete s a s') := by
  unfold PassesComplete
  split <;> infer_instance

end Decidable

/-! ## The invariant -/

namespace ThreadPlace

/-- The intent that a thread works on. -/
def claim? : ThreadPlace → Option Claim
  | .firstStep c _ | .lastStep c | .finish c _ | .finishUpdate c _ _ _ => some c
  | .circuit x | .guard x | .body x | .running x _ | .discard x _ | .recovering x
  | .settling x _ _ | .passed x _ => x.claim
  | _ => none

/-- The intent whose pass is complete. -/
def complete? : ThreadPlace → Option Claim
  | .discard x (.ok _) | .recovering x | .settling x _ true | .passed x (.ok _) => x.claim
  | .lastStep c | .finish c none | .finishUpdate c _ _ none => some c
  | _ => none

end ThreadPlace

/-- The row of a claimed intent: it may have been enqueued again, and while it is
still leased to the thread it is leased at the claimed revision. -/
structure ClaimRow (s : Threads) (thread : String) (c : Claim) : Prop where
  row : ∃ r ∈ s.store.intents, r.intentId = c.intentId ∧ r.runKey = c.runKey ∧
    c.revision ≤ r.revision
  lease : ∀ r ∈ s.store.intents, r.intentId = c.intentId → ∀ l, r.status = .leased l →
    l.leaseOwner = thread → l.leasedRevision = c.revision

def Covered (s : Threads) (c : Claim) : Prop :=
  ∃ b ∈ s.bodies, b.1 = c.runKey ∧ c.revision ≤ b.2

structure ThreadsInv (s : Threads) : Prop where
  keys : IntentKeys s.store.intents
  row : ∀ thread p c, s.place thread = some p → p.claim? = some c → ClaimRow s thread c
  running : ∀ thread c revision, s.place thread = some (.running (.claimed c) revision) →
    c.revision ≤ revision
  complete : ∀ thread p c, s.place thread = some p → p.complete? = some c → Covered s c
  finishing : ∀ thread c revision leasedRevision error,
    s.place thread = some (.finishUpdate c revision leasedRevision error) →
    leasedRevision = c.revision ∧ error ≠ some ""

/-! ## A statement of a thread -/

section Next

variable {s : Threads} {thread : String} {p q : ThreadPlace} {answer : Ending}

/-- The tables change by one of the transactions on the intents. -/
theorem next_store (s : Threads) (thread : String) (p : ThreadPlace) (answer : Ending) :
    (s.next thread p answer).1.store = s.store ∨
      ∃ p₀ a, Transacts thread p₀ s.store (s.next thread p answer).1.store a ∧
        (∀ n now, p₀ = .timed (.claim n) now → p = .claim n) ∧
        ∀ i revision leasedRevision error now,
          p₀ = .finishUpdate i revision leasedRevision error now → answer = .ok () ∧
            ∃ c, p = .finishUpdate c revision leasedRevision error ∧ c.intentId = i := by
  unfold Threads.next
  split <;> try exact .inl rfl
  · split
    · split
      · next hu =>
        exact .inr ⟨_, _, .enqueue hu, (fun _ _ h => by cases h), fun _ _ _ _ _ h => by cases h⟩
      · exact .inl rfl
    · exact .inl rfl
  · split
    · exact .inl rfl
    · next hn =>
      refine .inr ⟨_, .ok .unit, .claim hn, fun _ _ h => ?_, fun _ _ _ _ _ h => by cases h⟩
      cases h
      rfl
  · exact .inr ⟨_, _, .update, (fun _ _ h => by cases h), fun _ _ _ _ _ h => by cases h⟩
  · split <;> exact .inl rfl
  · exact .inr ⟨_, _, .update, (fun _ _ h => by cases h), fun _ _ _ _ _ h => by cases h⟩
  · refine .inr ⟨_, _, .finish, (fun _ _ h => by cases h), fun _ _ _ _ _ h => ?_⟩
    cases h
    exact ⟨rfl, _, rfl, rfl⟩
  · split <;> exact .inl rfl

theorem put_place (s : Threads) (thread : String) (q : Option ThreadPlace) :
    (s.put thread q).place = Function.update s.place thread q := rfl

theorem next_place (s : Threads) (thread : String) (p : ThreadPlace) (answer : Ending) :
    (s.next thread p answer).1.place = s.place := by
  unfold Threads.next
  split <;> try rfl
  · split
    · split <;> rfl
    · rfl
  · split <;> rfl
  · split <;> rfl
  · split <;> rfl

theorem next_bodies (s : Threads) (thread : String) (p : ThreadPlace) (answer : Ending) :
    s.bodies ⊆ (s.next thread p answer).1.bodies := by
  unfold Threads.next
  split <;> try exact List.Subset.refl _
  · split
    · split <;> exact List.Subset.refl _
    · exact List.Subset.refl _
  · split <;> exact List.Subset.refl _
  · split <;> exact List.Subset.refl _
  · exact List.subset_cons_self _ _
  · split <;> exact List.Subset.refl _

/-- Where a thread may go from a place. -/
inductive Moves (s : Threads) (thread : String) : ThreadPlace → Ending → ThreadPlace → Prop
  | claimed {leaseSeconds r} : nextClaimable s.clock s.store.intents = some r →
      Moves s thread (.claim leaseSeconds) (.ok ())
        (.firstStep ⟨r.intentId, r.runKey, r.revision⟩ leaseSeconds)
  | failed {p c answer} (e : ControllerError) : p.claim? = some c →
      Moves s thread p answer (.finish c (some e.text))
  | entered {c n} : Moves s thread (.firstStep c n) (.ok ()) (.circuit (.claimed c))
  | unchecked {x e} : Moves s thread (.circuit x) (.error e) (.passed x (.error e))
  | blocked {x} : s.store.retryBlocked "gitlab" s.clock = true →
      Moves s thread (.circuit x) (.ok ()) (.passed x (.ok ()))
  | admitted {x} : Moves s thread (.circuit x) (.ok ()) (.guard x)
  | busy {x answer} : x.runKey ∈ s.reconciling →
      Moves s thread (.guard x) answer (.passed x (.ok ()))
  | free {x answer} : Moves s thread (.guard x) answer (.body x)
  | started {x answer} :
      Moves s thread (.body x) answer (.running x (s.store.intentRevision x.runKey))
  | ended {x revision answer} : Moves s thread (.running x revision) answer (.discard x answer)
  | returned {x u answer} : Moves s thread (.discard x (.ok u)) answer (.recovering x)
  | superseded {x text answer} :
      Moves s thread (.discard x (.error (.superseded text))) answer (.passed x (.ok ()))
  | raised {x e answer} : Moves s thread (.discard x (.error e)) answer (.settling x e false)
  | recovered {x} : Moves s thread (.recovering x) (.ok ()) (.passed x (.ok ()))
  | unrecovered {x e} : Moves s thread (.recovering x) (.error e) (.settling x e true)
  | settled {x e complete answer} : Moves s thread (.settling x e complete) answer
      (.passed x (policyEnding x.runKey answer e))
  | succeeded {c u answer} :
      Moves s thread (.passed (.claimed c) (.ok u)) answer (.lastStep c)
  | recorded {c} : Moves s thread (.lastStep c) (.ok ()) (.finish c none)
  | read {c error revision leasedRevision} :
      s.store.leasedRevisions thread c.intentId = some (revision, leasedRevision) →
      Moves s thread (.finish c error) (.ok ()) (.finishUpdate c revision leasedRevision error)
  | held {runKey answer} : Moves s thread (.hold runKey) answer (.holding runKey)

theorem failed_moves {c : Claim} {e : ControllerError} {error : Option String}
    (hp : p.claim? = some c) (hq : consumerFailed c e error = some q) :
    Moves s thread p answer q := by
  cases error <;> cases hq
  exact .failed e hp

theorem next_moves (hq : (s.next thread p answer).2 = some q) : Moves s thread p answer q := by
  cases p with
  | enqueue runKey reason eventId intentId =>
    cases answer with
    | error e => cases hq
    | ok u =>
      simp only [Threads.next] at hq
      split at hq
      · split at hq <;> cases hq
      · cases hq
  | claim leaseSeconds =>
    cases answer with
    | error e => cases hq
    | ok u =>
      simp only [Threads.next] at hq
      split at hq <;> cases hq
      exact .claimed ‹_›
  | firstStep c n =>
    cases answer with
    | error e =>
      cases hq
      exact .failed e rfl
    | ok u =>
      simp only [Threads.next] at hq
      split at hq
      · cases hq
        exact .entered
      · exact failed_moves rfl hq
  | circuit x =>
    cases answer with
    | error e =>
      cases hq
      exact .unchecked
    | ok u =>
      simp only [Threads.next, Option.some.injEq] at hq
      split at hq <;> subst hq
      · exact .blocked ‹_›
      · exact .admitted
  | guard x =>
    simp only [Threads.next] at hq
    split at hq <;> cases hq
    · exact .busy (List.contains_iff_mem.mp ‹_›)
    · exact .free
  | body x =>
    cases hq
    exact .started
  | running x revision => cases answer <;> cases hq <;> exact .ended
  | discard x ending =>
    simp only [Threads.next, Option.some.injEq] at hq
    split at hq <;> subst hq
    · exact .returned
    · exact .superseded
    · exact .raised
  | recovering x =>
    cases answer <;> cases hq
    · exact .unrecovered
    · exact .recovered
  | settling x e complete =>
    cases hq
    exact .settled
  | passed x ending =>
    rcases x with c | runKey
    · cases ending with
      | error e =>
        cases hq
        exact .failed e rfl
      | ok u =>
        cases hq
        exact .succeeded
    · cases hq
  | lastStep c =>
    cases answer with
    | error e =>
      cases hq
      exact .failed e rfl
    | ok u =>
      simp only [Threads.next] at hq
      split at hq
      · cases hq
        exact .recorded
      · exact failed_moves rfl hq
  | finish c error =>
    cases answer with
    | error e => exact failed_moves (c := c) rfl hq
    | ok u =>
      simp only [Threads.next] at hq
      split at hq
      · exact failed_moves rfl hq
      · cases hq
        exact .read ‹_›
  | finishUpdate c revision leasedRevision error =>
    cases answer with
    | error e => exact failed_moves (c := c) rfl hq
    | ok u => cases hq
  | hold runKey =>
    simp only [Threads.next] at hq
    split at hq <;> cases hq
    exact .held
  | holding runKey => cases hq

/-- An intent comes into the hands of a thread by a claim. -/
theorem Moves.claim {c : Claim} (h : Moves s thread p answer q) (hc : q.claim? = some c) :
    p.claim? = some c ∨ ∃ leaseSeconds r, p = .claim leaseSeconds ∧
      answer = .ok () ∧ nextClaimable s.clock s.store.intents = some r ∧
      c = ⟨r.intentId, r.runKey, r.revision⟩ := by
  cases h with
  | @claimed leaseSeconds r hr =>
    cases hc
    exact .inr ⟨leaseSeconds, r, rfl, rfl, hr, rfl⟩
  | failed e hp =>
    cases hc
    exact .inl hp
  | held => cases hc
  | _ => exact .inl hc

/-- A pass is complete from the end of its body on. -/
theorem Moves.complete {c : Claim} (h : Moves s thread p answer q) (hp : Completes s answer p)
    (hc : q.complete? = some c) :
    p.complete? = some c ∨ ∃ revision, p = .running (.claimed c) revision ∧ answer = .ok () := by
  cases h with
  | @blocked x hblocked =>
    rcases x with c' | runKey
    · rw [hp rfl] at hblocked
      cases hblocked
    · cases hc
  | @busy x _ hbusy =>
    rcases x with c' | runKey
    · exact absurd hbusy hp
    · cases hc
  | @ended x revision =>
    rcases answer with e | u
    · cases hc
    · rcases x with c' | runKey <;> cases hc
      exact .inr ⟨revision, rfl, rfl⟩
  | @superseded x =>
    rcases x with c' | runKey
    · exact hp.elim
    · cases hc
  | @settled x e complete =>
    rcases hend : policyEnding x.runKey answer e with e' | u <;> rw [hend] at hc
    · cases hc
    · cases complete with
      | true => exact .inl hc
      | false =>
        rcases x with c' | runKey
        · exact absurd hend hp
        · cases hc
  | @read c' error =>
    cases error <;> cases hc
    exact .inl rfl
  | returned | recovered | unrecovered | succeeded | recorded => exact .inl hc
  | _ => cases hc

theorem Moves.running {x : Pass} {revision : Nat}
    (h : Moves s thread p answer (.running x revision)) :
    p = .body x ∧ revision = s.store.intentRevision x.runKey := by
  cases h
  exact ⟨rfl, rfl⟩

theorem Moves.finishing {c : Claim} {revision leasedRevision : Nat} {error : Option String}
    (h : Moves s thread p answer (.finishUpdate c revision leasedRevision error)) :
    p = .finish c error ∧
      s.store.leasedRevisions thread c.intentId = some (revision, leasedRevision) := by
  cases h
  exact ⟨rfl, ‹_›⟩

end Next

/-! ## Runs -/

theorem RowChange.revision {worker : String} {p₀ : IntentPlace} {r r' : ReconcileIntent}
    (h : RowChange worker p₀ r r') : r.revision ≤ r'.revision := by
  cases h with
  | enqueued => exact Nat.le_succ _
  | _ => exact Nat.le_refl _

section Step

variable {s s' : Threads} {a : ThreadAct} {thread v : String} {c : Claim}

theorem ClaimRow.congr (h : ClaimRow s v c) (hs : s'.store.intents = s.store.intents) :
    ClaimRow s' v c :=
  ⟨hs ▸ h.row, hs ▸ h.lease⟩

/-- The transactions of others, and those of the thread that claim nothing, leave the
claim as it is. -/
theorem ClaimRow.transacts {p₀ : IntentPlace} {answer : Except ControllerError IntentAnswer}
    (h : ClaimRow s v c) (ht : Transacts thread p₀ s.store s'.store answer)
    (hv : v ≠ thread ∨ ∀ n now, p₀ ≠ .timed (.claim n) now) : ClaimRow s' v c where
  row := by
    obtain ⟨r, hr, hid, hrun, hrev⟩ := h.row
    obtain ⟨r', hr', hchange⟩ := (transacts_rows ht).1 r hr
    exact ⟨r', hr', hchange.keys.1.trans hid, hchange.keys.2.trans hrun,
      hrev.trans hchange.revision⟩
  lease r' hr' hid l hl hown := by
    obtain ⟨r, hr, hchange⟩ | hpending := (transacts_rows ht).2 r' hr'
    · have before := h.lease r hr (hchange.keys.1.symm.trans hid)
      cases hchange with
      | same => exact before l hl hown
      | enqueued =>
        simp only [ReconcileIntent.enqueued] at hl
        split at hl <;> cases hl
        exact before l ‹_› hown
      | claimed hp =>
        cases hl
        rcases hv with hv | hv
        · exact absurd hown.symm hv
        · exact absurd hp (hv _ _)
      | stepped =>
        simp only [ReconcileIntent.stepped] at hl
        split at hl
        · next l₀ hl₀ =>
          cases hl
          exact before l₀ hl₀ hown
        · exact before l hl hown
      | finished =>
        simp only [ReconcileIntent.finished] at hl
        split at hl <;> cases hl
    · rw [hpending] at hl
      cases hl

theorem intentRevision_eq {s : Store} (h : IntentKeys s.intents) {r : ReconcileIntent}
    (hr : r ∈ s.intents) : s.intentRevision r.runKey = r.revision := by
  unfold Store.intentRevision
  cases hf : s.intents.find? (·.runKey == r.runKey) with
  | none => simpa using List.find?_eq_none.mp hf r hr
  | some q =>
    have hq := List.find?_some hf
    rw [h.eq_of_run (List.mem_of_find?_eq_some hf) hr (eq_of_beq hq)]
    rfl

theorem ThreadsInv.keys_next (h : ThreadsInv s) (p : ThreadPlace) (answer : Ending) :
    IntentKeys (s.next thread p answer).1.store.intents := by
  obtain hs | ⟨p₀, b, ht, _⟩ := next_store s thread p answer
  · rw [hs]
    exact h.keys
  · exact transacts_keys ht h.keys

/-- The claim a thread has after its statement. -/
theorem ThreadsInv.row_next (h : ThreadsInv s) {p q : ThreadPlace} {answer : Ending}
    (hp : s.place thread = some p) (hq : (s.next thread p answer).2 = some q)
    (hc : q.claim? = some c) : ClaimRow (s.next thread p answer).1 thread c := by
  obtain hc | ⟨n, r, rfl, rfl, hr, rfl⟩ := (next_moves hq).claim hc
  · have hrow := h.row thread p c hp hc
    obtain hs | ⟨p₀, b, ht, hclaim, _⟩ := next_store s thread p answer
    · exact hrow.congr (by rw [hs])
    · refine hrow.transacts ht (.inr fun n now hp₀ => ?_)
      rw [hclaim n now hp₀] at hc
      cases hc
  · obtain ⟨hmem, hclaimable⟩ := nextClaimable_spec hr
    have hstore : (s.next thread (.claim n) (.ok ())).1.store =
        s.store.updateIntents (fun q => q.intentId == r.intentId && q.claimable s.clock)
          (·.claimed thread n s.clock) := by
      simp only [Threads.next, hr]
      rfl
    constructor
    · rw [hstore]
      exact ⟨r.claimed thread n s.clock, mem_updateIntents.mpr ⟨r, hmem, by simp [hclaimable]⟩,
        rfl, rfl, Nat.le_refl _⟩
    · intro r' hr' hid l hl _
      rw [hstore] at hr'
      obtain ⟨r₂, hr₂, rfl⟩ := mem_updateIntents.mp hr'
      have hid₂ : r₂.intentId = r.intentId := by
        split at hid <;> exact hid
      cases h.keys.eq_of_id hr₂ hmem hid₂
      simp only [hclaimable, beq_self_eq_true, Bool.and_self, if_true] at hl
      cases hl
      rfl

theorem ThreadsInv.go (h : ThreadsInv s) {p : ThreadPlace} {answer : Ending}
    (hp : s.place thread = some p) (hpass : Completes s answer p) :
    ThreadsInv ((s.next thread p answer).1.put thread (s.next thread p answer).2) where
  keys := h.keys_next p answer
  row u q c hq hc := by
    rw [put_place, next_place, Function.update_apply] at hq
    split at hq
    · next hu =>
      subst hu
      exact (h.row_next hp hq hc).congr rfl
    · next hu =>
      have hrow := h.row u q c hq hc
      obtain hs | ⟨p₀, b, ht, _⟩ := next_store s thread p answer
      · exact hrow.congr (congrArg Store.intents hs)
      · exact hrow.transacts ht (.inl hu)
  running u c revision hq := by
    rw [put_place, next_place, Function.update_apply] at hq
    split at hq
    · next hu =>
      subst hu
      obtain ⟨rfl, rfl⟩ := (next_moves hq).running
      obtain ⟨r, hr, _, hrun, hrev⟩ := (h.row u _ c hp rfl).row
      rw [show (Pass.claimed c).runKey = c.runKey from rfl, ← hrun, intentRevision_eq h.keys hr]
      exact hrev
    · exact h.running u c revision hq
  complete u q c hq hc := by
    rw [put_place, next_place, Function.update_apply] at hq
    have hsub := next_bodies s thread p answer
    split at hq
    · obtain hc | ⟨revision, rfl, rfl⟩ := (next_moves hq).complete hpass hc
      · obtain ⟨b, hb, hcov⟩ := h.complete thread p c hp hc
        exact ⟨b, hsub hb, hcov⟩
      · exact ⟨(c.runKey, revision), List.mem_cons_self, rfl, h.running thread c revision hp⟩
    · obtain ⟨b, hb, hcov⟩ := h.complete u q c hq hc
      exact ⟨b, hsub hb, hcov⟩
  finishing u c revision leasedRevision error hq := by
    rw [put_place, next_place, Function.update_apply] at hq
    split at hq
    · next hu =>
      subst hu
      obtain ⟨rfl, hread⟩ := (next_moves hq).finishing
      obtain ⟨r, hr, l, hl, hid, hown, heq⟩ := leasedRevisions_eq_some hread
      refine ⟨?_, hpass⟩
      rw [(Prod.mk.inj heq).2]
      exact (h.row u _ c hp rfl).lease r hr hid l hl hown
    · exact h.finishing u c revision leasedRevision error hq

theorem ThreadsInv.step (h : ThreadsInv s) (ha : s.step a = some s')
    (hpass : PassesComplete s a s') : ThreadsInv s' := by
  cases a with
  | enter thread call =>
    simp only [Threads.step] at ha
    split at ha
    · cases ha
      have hentry : ∀ {u q}, Function.update s.place thread (some call.entry) u = some q →
          q = call.entry ∨ s.place u = some q := by
        intro u q hq
        rw [Function.update_apply] at hq
        split at hq
        · exact .inl (Option.some.inj hq).symm
        · exact .inr hq
      constructor
      · exact h.keys
      · intro u q c hq hc
        obtain rfl | hq := hentry hq
        · cases call <;> cases hc
        · exact (h.row u q c hq hc).congr rfl
      · intro u c revision hq
        obtain hq | hq := hentry hq
        · cases call <;> cases hq
        · exact h.running u c revision hq
      · intro u q c hq hc
        obtain rfl | hq := hentry hq
        · cases call <;> cases hc
        · exact h.complete u q c hq hc
      · intro u c revision leasedRevision error hq
        obtain hq | hq := hentry hq
        · cases call <;> cases hq
        · exact h.finishing u c revision leasedRevision error hq
    · cases ha
  | go thread answer =>
    obtain ⟨p, hp, rfl⟩ := Option.map_eq_some_iff.mp ha
    have hcompletes : Completes s answer p := hpass p hp
    exact h.go hp hcompletes
  | other f =>
    cases ha
    exact
      { h with
        keys := h.keys
        row := fun u q c hq hc => (h.row u q c hq hc).congr rfl }
  | tick seconds =>
    cases ha
    exact
      { h with row := fun u q c hq hc => (h.row u q c hq hc).congr rfl }
  | crash =>
    cases ha
    refine ⟨h.keys, ?_, ?_, ?_, ?_⟩ <;> intros <;> contradiction

/-- Where an intent becomes done, its pass is complete. -/
theorem ThreadsInv.done (h : ThreadsInv s) (ha : s.step a = some s')
    (hpass : PassesComplete s a s') : DoneCovered s a s' := by
  intro r hr r' hr' hid hbefore hdone
  have same : s'.store.intents = s.store.intents → False := by
    intro hs
    rw [hs] at hr'
    cases h.keys.eq_of_id hr' hr hid
    exact hbefore hdone
  cases a with
  | enter thread call =>
    simp only [Threads.step] at ha
    split at ha <;> cases ha
    exact (same rfl).elim
  | other f | tick seconds | crash =>
    cases ha
    exact (same rfl).elim
  | go thread answer =>
    obtain ⟨p, hp, rfl⟩ := Option.map_eq_some_iff.mp ha
    obtain hs | ⟨p₀, b, ht, _, hfinish⟩ := next_store s thread p answer
    · exact (same (congrArg Store.intents hs)).elim
    · obtain ⟨r₂, hr₂, hchange⟩ | hpending := (transacts_rows ht).2 r' hr'
      · cases h.keys.eq_of_id hr₂ hr (hchange.keys.1.symm.trans hid)
        have hrun := hchange.keys.2
        cases hchange with
        | same => exact absurd hdone hbefore
        | enqueued =>
          simp only [ReconcileIntent.enqueued] at hdone
          split at hdone <;> cases hdone
        | claimed => cases hdone
        | stepped _ _ _ hlease =>
          obtain ⟨l, hl, _⟩ := leasedTo_iff.mp hlease
          simp [ReconcileIntent.stepped, hl] at hdone
        | @finished revision leasedRevision error now hp₀ =>
          obtain ⟨rfl, c, rfl, hcid⟩ := hfinish _ _ _ _ _ hp₀
          simp only [ReconcileIntent.finished] at hdone
          split at hdone
          · cases hdone
          · next hrerun =>
            simp only [bne_iff_ne, ne_eq, Bool.or_eq_true, not_or, Classical.not_not,
              Bool.not_eq_true] at hrerun
            obtain ⟨hleased, herror⟩ := h.finishing _ _ _ _ _ hp
            -- no error, or one without a text
            have hnone : error = none := by
              cases error with
              | none => rfl
              | some text =>
                simp only [truthy, Option.any_some, bne_eq_false_iff_eq] at hrerun
                exact absurd (congrArg some hrerun.2) herror
            subst hnone
            obtain ⟨b, hb, hbrun, hbrev⟩ := h.complete _ _ c hp rfl
            obtain ⟨r₃, hr₃, hid₃, hrun₃, _⟩ := (h.row _ _ c hp rfl).row
            have hrow := h.keys.eq_of_id hr₃ hr (hid₃.trans hcid)
            subst hrow
            refine ⟨b, hb, hbrun.trans (hrun₃.symm.trans hrun.symm), ?_⟩
            have hseen := hpass _ hp rfl hrerun.1 _ hr hcid.symm
            change r₃.revision ≤ b.2
            omega
      · rw [hpending] at hdone
        cases hdone

end Step

/-- No intents yet, and nobody at work. -/
def idleThreads (store : Store) (clock : Nat) : Threads where
  clock
  store := { store with intents := [] }

theorem threadsInv_idle (store : Store) (clock : Nat) : ThreadsInv (idleThreads store clock) where
  keys := ⟨List.nodup_nil, List.nodup_nil⟩
  row _ _ _ h := by cases h
  running _ _ _ h := by cases h
  complete _ _ _ h := by cases h
  finishing _ _ _ _ _ h := by cases h

def sampleStore : Store := { runs := [sampleRun "run-a" "g1" 1] }

/-- The steps of a thread that nothing fails in. -/
def undisturbed (thread : String) (n : Nat) : List ThreadAct :=
  List.replicate n (.go thread (.ok ()))

/-- A run is enqueued, and a consumer takes it through a whole pass. -/
def consumedRun : List ThreadAct :=
  .enter "poll" (.enqueue "run-a" "event" (some 10) "intent-1") :: undisturbed "poll" 1 ++
  .enter "consumer" (.consume 180) :: undisturbed "consumer" 12

/-- A pass is under way when the run is enqueued; the consumer finds the run busy. -/
def busyRun : List ThreadAct :=
  .enter "reconciler" (.reconcile "run-a") :: undisturbed "reconciler" 2 ++
  .enter "poll" (.enqueue "run-a" "event" (some 10) "intent-1") :: undisturbed "poll" 1 ++
  .enter "consumer" (.consume 180) :: undisturbed "consumer" 8

end HollysysController
