import Mathlib.Data.List.Sort
import HollysysController.Store

/-! # The outbox

The rows of the outbox and the threads of `flush_outbox` that deliver them, while the rest of
the Controller enqueues, an operator revives dead rows and the process dies at any point. -/

namespace HollysysController

/-! ## The rows -/

inductive OutboxStatus where
  | pending | retrying | done | dead
  deriving DecidableEq, Repr

/-- A row of the outbox without the time of its last update. -/
structure OutboxItem where
  key : String
  runKey : String
  event : String
  payload : String
  status : OutboxStatus := .pending
  attempts : Nat := 0
  lastError : Option String := none
  errorClass : Option String := none
  nextAttemptAt : Nat
  deadAt : Option Nat := none
  createdAt : Nat
  deriving DecidableEq, Repr

/-- `status IN ('pending', 'retrying')`. -/
def OutboxStatus.isOpen : OutboxStatus → Bool
  | pending | retrying => true
  | done | dead => false

/-- `outbox_backoff_initial_seconds` and `outbox_backoff_max_seconds`, as the configuration
admits them. -/
structure OutboxBackoff where
  initial : Nat
  maximum : Nat
  initial_pos : 1 ≤ initial
  ordered : initial ≤ maximum

/-- The row of the key. -/
def outboxItem (key : String) (rows : List OutboxItem) : Option OutboxItem :=
  rows.find? (·.key == key)

/-- `enqueue`: a row that is there is left. -/
def enqueueOutbox (key runKey event payload : String) (now : Nat) (rows : List OutboxItem) :
    List OutboxItem :=
  if rows.any (·.key == key) then rows
  else rows ++ [{ key, runKey, event, payload, nextAttemptAt := now, createdAt := now }]

/-- `ORDER BY next_attempt_at, created_at`. -/
def OutboxItem.before (a b : OutboxItem) : Prop :=
  a.nextAttemptAt < b.nextAttemptAt ∨
    a.nextAttemptAt = b.nextAttemptAt ∧ a.createdAt ≤ b.createdAt

instance : DecidableRel OutboxItem.before := fun _ _ =>
  inferInstanceAs (Decidable (_ ∨ _))

/-- `pending_outbox` with its limit of 20. -/
def pendingOutbox (now : Nat) (rows : List OutboxItem) : List OutboxItem :=
  ((rows.filter fun i => i.status.isOpen && decide (i.nextAttemptAt ≤ now)).insertionSort
    OutboxItem.before).take 20

/-- `UPDATE outbox SET .. WHERE outbox_key = key`. -/
def updateOutbox (key : String) (f : OutboxItem → OutboxItem) (rows : List OutboxItem) :
    List OutboxItem :=
  rows.map fun i => if i.key = key then f i else i

/-- `finish_outbox`. -/
def finishOutbox (key : String) : List OutboxItem → List OutboxItem :=
  updateOutbox key fun i => { i with
    status := .done
    attempts := i.attempts + 1
    lastError := none
    errorClass := none
    deadAt := none }

/-- What `fail_outbox` takes beside the key. -/
structure OutboxFailure where
  error : String
  initialBackoffSeconds : Nat := 5
  maximumBackoffSeconds : Nat := 300
  errorClass : String := "dependency_transient"
  permanent : Bool := false

/-- The delay before the attempt after this one. -/
def OutboxFailure.delay (f : OutboxFailure) (attempts : Nat) : Nat :=
  max 1 (min f.maximumBackoffSeconds (f.initialBackoffSeconds * 2 ^ (attempts - 1)))

/-- The attempts of the row with the one that fails. -/
def failedAttempts (key : String) (rows : List OutboxItem) : Nat :=
  match outboxItem key rows with
  | some row => row.attempts + 1
  | none => 1

/-- `fail_outbox`. -/
def failOutbox (key : String) (f : OutboxFailure) (now : Nat) (rows : List OutboxItem) :
    List OutboxItem :=
  updateOutbox key (fun i => { i with
    status := if f.permanent then .dead else .retrying
    attempts := i.attempts + 1
    lastError := some (clip 2000 f.error)
    errorClass := some f.errorClass
    nextAttemptAt := now + f.delay (failedAttempts key rows)
    deadAt := if f.permanent then some now else none }) rows

/-- `retry_dead_outbox`, `none` when it raises: no row of the key is dead. -/
def retryDeadOutbox (key : String) (now : Nat) (rows : List OutboxItem) :
    Option (List OutboxItem) :=
  if rows.any fun i => i.key == key && i.status == .dead then
    some (rows.map fun i => if i.key = key ∧ i.status = .dead then { i with
      status := .pending
      nextAttemptAt := now
      deadAt := none } else i)
  else none

/-! ## The flush -/

/-- What is raised for an item, as the handlers of `_flush_outbox_once` tell it apart. -/
inductive SendError where
  /-- An item that cannot be read, or a `DependencyContractError`. -/
  | contract (text : String)
  | dependency (text errorClass : String)
  | other (text : String)
  deriving DecidableEq, Repr

/-- What the handler of the exception passes to `fail_outbox`. -/
def SendError.failure (b : OutboxBackoff) : SendError → OutboxFailure
  | contract text => {
      error := text
      errorClass := "dependency_contract"
      permanent := true }
  | dependency text errorClass => {
      error := text
      initialBackoffSeconds := b.initial
      maximumBackoffSeconds := b.maximum
      errorClass }
  | other text => {
      error := text
      initialBackoffSeconds := b.initial
      maximumBackoffSeconds := b.maximum }

/-- Where a thread of `flush_outbox` stands that has the lock. -/
inductive FlushPlace where
  | reading
  /-- The items that are left. -/
  | looping (items : List OutboxItem)
  | sending (item : OutboxItem) (items : List OutboxItem)
  | sent (item : OutboxItem) (items : List OutboxItem)
  | failing (error : SendError) (item : OutboxItem) (items : List OutboxItem)
  deriving DecidableEq, Repr

/-- The items that the thread has not closed. -/
def FlushPlace.items : FlushPlace → List OutboxItem
  | reading => []
  | looping items => items
  | sending item items | sent item items | failing _ item items => item :: items

/-- What happened to a row. -/
inductive OutboxEvent where
  | enqueued (payload : String)
  | sending (payload : String)
  /-- The send returned. -/
  | sent
  | finished
  | retried (now next : Nat)
  | died
  | revived
  deriving DecidableEq, Repr

structure OutboxThreads where
  rows : List OutboxItem := []
  /-- The thread that has `_outbox_lock`. -/
  lock : Option String := none
  place : String → Option FlushPlace := fun _ => none
  /-- What happened, under its key, the newest first. -/
  log : List (String × OutboxEvent) := []

inductive OutboxAct where
  | enqueue (key runKey event payload : String) (now : Nat)
  | retryDead (key : String) (now : Nat)
  | flush (thread : String)
  /-- The statement that the thread comes to, and what it raises. -/
  | go (thread : String) (now : Nat) (raised : Option SendError)
  /-- An exception that no handler of the flush takes. -/
  | leave (thread : String)
  /-- The process dies and starts again. -/
  | crash

namespace OutboxThreads

variable (b : OutboxBackoff) (s : OutboxThreads)

/-- The thread goes to a place, or gives up the lock. -/
def put (thread : String) : Option FlushPlace → OutboxThreads
  | some p => { s with place := Function.update s.place thread (some p) }
  | none => { s with place := Function.update s.place thread none, lock := none }

def note (key : String) (e : OutboxEvent) : OutboxThreads := { s with log := (key, e) :: s.log }

/-- The event of a failure. -/
def failed (key : String) (f : OutboxFailure) (now : Nat) : OutboxEvent :=
  if f.permanent then .died else .retried now (now + f.delay (failedAttempts key s.rows))

/-- The next statement of a thread in `_flush_outbox_once`. -/
def next (p : FlushPlace) (now : Nat) (raised : Option SendError) :
    OutboxThreads × Option FlushPlace :=
  match p with
  | .reading => (s, some (.looping (pendingOutbox now s.rows)))
  | .looping [] => (s, none)
  | .looping (item :: items) => match raised with
    -- the payload cannot be read
    | some error => (s, some (.failing error item items))
    | none => (s.note item.key (.sending item.payload), some (.sending item items))
  | .sending item items => match raised with
    | some error => (s, some (.failing error item items))
    | none => (s.note item.key .sent, some (.sent item items))
  | .sent item items => match raised with
    | some error => (s, some (.failing error item items))
    | none => ({ s with rows := finishOutbox item.key s.rows }.note item.key .finished,
        some (.looping items))
  | .failing error item items =>
    ({ s with rows := failOutbox item.key (error.failure b) now s.rows }.note item.key
      (s.failed item.key (error.failure b) now), some (.looping items))

def step : OutboxAct → OutboxThreads
  | .enqueue key runKey event payload now =>
    { s with rows := enqueueOutbox key runKey event payload now s.rows }.note key
      (.enqueued payload)
  | .retryDead key now => match retryDeadOutbox key now s.rows with
    | some rows => { s with rows }.note key .revived
    | none => s
  | .flush thread =>
    -- `acquire(blocking=False)`
    if s.lock = none ∧ s.place thread = none then
      { s with lock := some thread }.put thread (some .reading)
    else s
  | .go thread now raised => match s.place thread with
    | some p => (s.next b p now raised).1.put thread (s.next b p now raised).2
    | none => s
  | .leave thread => match s.place thread with
    | some _ => s.put thread none
    | none => s
  | .crash => { s with lock := none, place := fun _ => none }

/-- What a sequence of steps leaves. -/
def run (acts : List OutboxAct) : OutboxThreads := acts.foldl (fun s a => s.step b a) s

end OutboxThreads

/-! ## The law -/

/-- What the outbox owes, over everything that happened to it. -/
structure OutboxLaw (b : OutboxBackoff) (s : OutboxThreads) : Prop where
  /-- The first payload of a key is the one of its row, whatever comes after. -/
  first : ∀ key payload later past, s.log = later ++ (key, .enqueued payload) :: past →
    (∀ other, (key, OutboxEvent.enqueued other) ∉ past) →
    ∃ row, outboxItem key s.rows = some row ∧ row.payload = payload
  /-- A key has one row. -/
  keys : (s.rows.map (·.key)).Nodup
  /-- What is sent under a key is the payload of its row. -/
  sends : ∀ key payload, (key, OutboxEvent.sending payload) ∈ s.log →
    ∃ row, outboxItem key s.rows = some row ∧ row.payload = payload
  /-- A row is done only after its last send returned. -/
  finished : ∀ key later past, s.log = later ++ (key, OutboxEvent.finished) :: past →
    ∃ between before, past = between ++ (key, OutboxEvent.sent) :: before ∧
      ∀ payload, (key, OutboxEvent.sending payload) ∉ between
  /-- A row is open until it is done or dead. -/
  closed : ∀ row ∈ s.rows, row.status.isOpen = true ∨
    row.status = .done ∧ (row.key, OutboxEvent.finished) ∈ s.log ∨
    row.status = .dead ∧ (row.key, OutboxEvent.died) ∈ s.log
  /-- A row that is done is not sent again. -/
  done : ∀ key payload later between past,
    s.log ≠ later ++ (key, OutboxEvent.sending payload) :: between ++
      (key, OutboxEvent.finished) :: past
  /-- A row that is dead is sent again only after it was revived. -/
  dead : ∀ key payload later between past,
    s.log = later ++ (key, OutboxEvent.sending payload) :: between ++
      (key, OutboxEvent.died) :: past → (key, OutboxEvent.revived) ∈ between
  /-- A row that is tried again waits no longer than the configured maximum. -/
  delay : ∀ key now next, (key, OutboxEvent.retried now next) ∈ s.log → next ≤ now + b.maximum
  waits : ∀ row ∈ s.rows, row.status = .retrying →
    ∃ now, (row.key, OutboxEvent.retried now row.nextAttemptAt) ∈ s.log

/-! ## What the log says of a row -/

section Log

/-- The status of the row, as the log has it. -/
def trackedStatus (key : String) : List (String × OutboxEvent) → Option OutboxStatus
  | [] => none
  | (k, e) :: past =>
    if k = key then
      match e with
      | .enqueued _ => some ((trackedStatus key past).getD .pending)
      | .sending _ | .sent => trackedStatus key past
      | .finished => some .done
      | .retried _ _ => some .retrying
      | .died => some .dead
      | .revived => some .pending
    else trackedStatus key past

/-- The payload that was enqueued first. -/
def firstPayload (key : String) : List (String × OutboxEvent) → Option String
  | [] => none
  | (k, e) :: past =>
    match firstPayload key past with
    | some payload => some payload
    | none => match e with
      | .enqueued payload => if k = key then some payload else none
      | _ => none

/-- The last send of the key returned. -/
def sendReturned (key : String) : List (String × OutboxEvent) → Bool
  | [] => false
  | (k, e) :: past =>
    if k = key then
      match e with
      | .sending _ => false
      | .sent => true
      | _ => sendReturned key past
    else sendReturned key past

/-- The row is open, as the log has it. -/
def OpenIn (key : String) (log : List (String × OutboxEvent)) : Prop :=
  ∃ status, trackedStatus key log = some status ∧ status.isOpen = true

/-- An event that can happen after `past`. -/
def Follows (b : OutboxBackoff) (key : String) (past : List (String × OutboxEvent)) :
    OutboxEvent → Prop
  | .enqueued _ | .sent => True
  | .sending payload => OpenIn key past ∧ firstPayload key past = some payload
  | .finished => OpenIn key past ∧ sendReturned key past = true
  | .retried now next => OpenIn key past ∧ next ≤ now + b.maximum
  | .died => OpenIn key past
  | .revived => trackedStatus key past = some .dead

def Lawful (b : OutboxBackoff) : List (String × OutboxEvent) → Prop
  | [] => True
  | (key, e) :: past => Follows b key past e ∧ Lawful b past

variable {b : OutboxBackoff} {key payload : String} {e : OutboxEvent}
variable {later between past log : List (String × OutboxEvent)}

theorem Lawful.follows (h : Lawful b (later ++ (key, e) :: past)) : Follows b key past e := by
  induction later with
  | nil => exact h.1
  | cons first later ih => exact ih h.2

theorem Lawful.tail (h : Lawful b (later ++ (key, e) :: past)) : Lawful b past := by
  induction later with
  | nil => exact h.2
  | cons first later ih => exact ih h.2

theorem firstPayload_append (h : firstPayload key past = some payload) :
    firstPayload key (later ++ past) = some payload := by
  induction later with
  | nil => exact h
  | cons first later ih => simp only [List.cons_append, firstPayload, ih]

theorem firstPayload_none (h : ∀ other, (key, OutboxEvent.enqueued other) ∉ past) :
    firstPayload key past = none := by
  induction past with
  | nil => rfl
  | cons first past ih =>
    obtain ⟨k, e⟩ := first
    have hpast : firstPayload key past = none :=
      ih fun other hmem => h other (List.mem_cons_of_mem _ hmem)
    simp only [firstPayload, hpast]
    cases e with
    | enqueued other =>
      dsimp only
      rw [if_neg]
      rintro rfl
      exact h other List.mem_cons_self
    | _ => rfl

/-- The first payload of a key is tracked. -/
theorem firstPayload_first (h : ∀ other, (key, OutboxEvent.enqueued other) ∉ past) :
    firstPayload key (later ++ (key, .enqueued payload) :: past) = some payload := by
  refine firstPayload_append ?_
  simp only [firstPayload, firstPayload_none h, if_true]

theorem sendReturned_split (h : sendReturned key log = true) :
    ∃ between before, log = between ++ (key, OutboxEvent.sent) :: before ∧
      ∀ payload, (key, OutboxEvent.sending payload) ∉ between := by
  induction log with
  | nil => cases h
  | cons first past ih =>
    obtain ⟨k, e⟩ := first
    have hpast : sendReturned key past = true → (∀ payload, (k, e) ≠ (key, .sending payload)) →
        ∃ between before, (k, e) :: past = between ++ (key, OutboxEvent.sent) :: before ∧
          ∀ payload, (key, OutboxEvent.sending payload) ∉ between := by
      intro hreturned hother
      obtain ⟨between, before, rfl, hbetween⟩ := ih hreturned
      refine ⟨(k, e) :: between, before, rfl, fun payload hmem => ?_⟩
      rcases List.mem_cons.mp hmem with heq | hmem
      · exact hother payload heq.symm
      · exact hbetween payload hmem
    unfold sendReturned at h
    split at h
    · next hkey =>
      subst hkey
      cases e with
      | sending payload => cases h
      | sent => exact ⟨[], past, rfl, fun _ => List.not_mem_nil⟩
      | _ => exact hpast h (by simp)
    · next hkey => exact hpast h fun payload heq => hkey (congrArg Prod.fst heq)

/-- What is sent is the first payload. -/
theorem Lawful.sending (h : Lawful b log) (hmem : (key, .sending payload) ∈ log) :
    firstPayload key log = some payload := by
  obtain ⟨later, past, rfl⟩ := List.append_of_mem hmem
  have hfirst : firstPayload key past = some payload := h.follows.2
  rw [show later ++ (key, OutboxEvent.sending payload) :: past =
    (later ++ [(key, .sending payload)]) ++ past by simp]
  exact firstPayload_append hfirst

/-- A closed row stays as it is, unless it is dead and revived. -/
theorem Lawful.stays {status : OutboxStatus} (h : Lawful b (between ++ past))
    (hclosed : status.isOpen = false) (htracked : trackedStatus key past = some status)
    (hrevived : status = .dead → (key, .revived) ∉ between) :
    trackedStatus key (between ++ past) = some status := by
  induction between with
  | nil => exact htracked
  | cons first between ih =>
    obtain ⟨k, e⟩ := first
    have hbefore := ih h.2 fun hdead hmem => hrevived hdead (List.mem_cons_of_mem _ hmem)
    have hnot : ¬ OpenIn key (between ++ past) := by
      rintro ⟨status', htracked', hopen⟩
      rw [hbefore] at htracked'
      cases htracked'
      rw [hclosed] at hopen
      cases hopen
    rw [List.cons_append]
    unfold trackedStatus
    split
    · next hkey =>
      subst hkey
      have hfollows : Follows b k (between ++ past) e := h.1
      cases e with
      | enqueued payload => simp only [hbefore, Option.getD_some]
      | sending payload => exact hbefore
      | sent => exact hbefore
      | finished => exact absurd hfollows.1 hnot
      | retried now next => exact absurd hfollows.1 hnot
      | died => exact absurd hfollows hnot
      | revived =>
        have hdead : status = .dead := by
          have hsame := hfollows.symm.trans hbefore
          cases hsame
          rfl
        exact absurd List.mem_cons_self (hrevived hdead)
    · exact hbefore

end Log

/-- The row as the rest of the Controller has it. -/
def OutboxItem.row (i : OutboxItem) : OutboxRow := ⟨i.key, i.runKey, i.event⟩

/-! ## What the statements leave of a row -/

section Rows

variable {key key' : String} {rows : List OutboxItem} {row : OutboxItem}

theorem outboxItem_key (h : outboxItem key rows = some row) : row.key = key := by
  simpa using List.find?_some h

theorem outboxItem_mem (h : outboxItem key rows = some row) : row ∈ rows := List.mem_of_find?_eq_some h

theorem outboxItem_of_mem (hkeys : (rows.map (·.key)).Nodup) (h : row ∈ rows) :
    outboxItem row.key rows = some row := by
  induction rows with
  | nil => cases h
  | cons first rows ih =>
    rw [List.map_cons, List.nodup_cons] at hkeys
    rcases List.mem_cons.mp h with rfl | h
    · simp [outboxItem]
    · have hne : first.key ≠ row.key := fun heq =>
        hkeys.1 (heq ▸ List.mem_map_of_mem (f := (·.key)) h)
      rw [outboxItem, List.find?_cons_of_neg (by simpa using hne)]
      exact ih hkeys.2 h

theorem outboxItem_none : outboxItem key rows = none ↔ rows.any (·.key == key) = false := by
  rw [outboxItem, List.find?_eq_none, List.any_eq_false]

theorem outboxItem_enqueue (key key' runKey event payload : String) (now : Nat)
    (rows : List OutboxItem) :
    outboxItem key' (enqueueOutbox key runKey event payload now rows) =
      match outboxItem key' rows with
      | some row => some row
      | none =>
        if key = key' then some { key, runKey, event, payload, nextAttemptAt := now, createdAt := now }
        else none := by
  unfold enqueueOutbox
  split
  · next hany =>
    cases hfound : outboxItem key' rows with
    | some row => rfl
    | none =>
      rw [outboxItem_none] at hfound
      rw [if_neg]
      rintro rfl
      rw [hfound] at hany
      cases hany
  · rw [outboxItem, List.find?_append]
    cases hfound : outboxItem key' rows with
    | some row =>
      rw [outboxItem] at hfound
      rw [hfound]
      rfl
    | none =>
      rw [outboxItem] at hfound
      rw [hfound]
      by_cases hkey : key = key' <;> simp [hkey]

/-- An update keeps the key, and reaches the rows of its key only. -/
theorem outboxItem_update {f : OutboxItem → OutboxItem} (hf : ∀ i, (f i).key = i.key) :
    outboxItem key' (updateOutbox key f rows) =
      (outboxItem key' rows).map fun i => if key = key' then f i else i := by
  unfold outboxItem updateOutbox
  induction rows with
  | nil => rfl
  | cons first rows ih =>
    rw [List.map_cons]
    have hupdated : (if first.key = key then f first else first).key = first.key := by
      split
      · exact hf first
      · rfl
    rw [List.find?_cons, List.find?_cons, hupdated]
    by_cases hfirst : first.key = key'
    · simp only [hfirst, BEq.rfl, Option.map_some, eq_comm]
    · have hother : (first.key == key') = false := by simpa using hfirst
      simp only [hother]
      exact ih

theorem updateOutbox_keys {f : OutboxItem → OutboxItem} (hf : ∀ i, (f i).key = i.key) :
    (updateOutbox key f rows).map (·.key) = rows.map (·.key) := by
  rw [updateOutbox, List.map_map]
  refine List.map_congr_left fun i _ => ?_
  dsimp only [Function.comp]
  split
  · exact hf i
  · rfl

theorem enqueueOutbox_keys {runKey event payload : String} {now : Nat}
    (h : (rows.map (·.key)).Nodup) :
    ((enqueueOutbox key runKey event payload now rows).map (·.key)).Nodup := by
  unfold enqueueOutbox
  split
  · exact h
  · next hany =>
    rw [Bool.not_eq_true, List.any_eq_false] at hany
    rw [List.map_append, List.nodup_append]
    refine ⟨h, by simp, fun k hk k' hk' => ?_⟩
    obtain ⟨i, hi, rfl⟩ := List.mem_map.mp hk
    rw [List.map_cons, List.map_nil, List.mem_singleton] at hk'
    rw [hk']
    simpa using hany i hi

/-- `retry_dead_outbox` is an update of a row that is dead. -/
theorem retryDeadOutbox_eq {now : Nat} {rows' : List OutboxItem} (hkeys : (rows.map (·.key)).Nodup)
    (h : retryDeadOutbox key now rows = some rows') :
    (∃ row, outboxItem key rows = some row ∧ row.status = .dead) ∧
    rows' = updateOutbox key (fun i => { i with
      status := .pending, nextAttemptAt := now, deadAt := none }) rows := by
  unfold retryDeadOutbox at h
  split at h
  · next hany =>
    obtain ⟨row, hmem, hrow⟩ := List.any_eq_true.mp hany
    rw [Bool.and_eq_true, beq_iff_eq, beq_iff_eq] at hrow
    obtain ⟨rfl, hdead⟩ := hrow
    have hitem := outboxItem_of_mem hkeys hmem
    refine ⟨⟨row, hitem, hdead⟩, ?_⟩
    cases h
    refine List.map_congr_left fun i hi => ?_
    by_cases hkey : i.key = row.key
    · have hsame : i = row := by
        have hi' := outboxItem_of_mem hkeys hi
        rw [hkey, hitem] at hi'
        exact (Option.some.inj hi').symm
      rw [if_pos hkey, if_pos ⟨hkey, hsame ▸ hdead⟩]
    · rw [if_neg hkey, if_neg fun hboth => hkey hboth.1]
  · cases h

theorem pendingOutbox_sublist (rows : List OutboxItem) (now : Nat) :
    ∃ items, (pendingOutbox now rows).Sublist items ∧
      items.Perm (rows.filter fun i => i.status.isOpen && decide (i.nextAttemptAt ≤ now)) :=
  ⟨_, List.take_sublist _ _, List.perm_insertionSort _ _⟩

theorem mem_pendingOutbox {now : Nat} (h : row ∈ pendingOutbox now rows) :
    row ∈ rows ∧ row.status.isOpen = true := by
  obtain ⟨items, hsub, hperm⟩ := pendingOutbox_sublist rows now
  have hmem := List.mem_filter.mp (hperm.mem_iff.mp (hsub.subset h))
  rw [Bool.and_eq_true] at hmem
  exact ⟨hmem.1, hmem.2.1⟩

theorem pendingOutbox_keys (hkeys : (rows.map (·.key)).Nodup) (now : Nat) :
    ((pendingOutbox now rows).map (·.key)).Nodup := by
  obtain ⟨items, hsub, hperm⟩ := pendingOutbox_sublist rows now
  refine List.Nodup.sublist (hsub.map _) ((hperm.map _).nodup_iff.mpr ?_)
  exact List.Nodup.sublist (List.filter_sublist.map _) hkeys

/-- The Controller enqueues what the flush reads. -/
theorem enqueueOutbox_store {s : Store} (h : s.outbox = rows.map OutboxItem.row)
    (runKey event payload : String) (now : Nat) :
    ((enqueue ⟨key, runKey, event⟩).commit s).2.outbox =
      (enqueueOutbox key runKey event payload now rows).map OutboxItem.row := by
  have hany : s.outbox.any (·.key == key) = rows.any (·.key == key) := by
    rw [h, List.any_map]
    rfl
  unfold Txn.commit enqueue enqueueOutbox
  dsimp only
  rw [hany]
  cases hfound : rows.any (·.key == key) with
  | true => simp [h]
  | false => simp [h, OutboxItem.row]

end Rows

/-! ## The invariant -/

/-- The rows are as the log says. -/
structure OutboxRows (b : OutboxBackoff) (rows : List OutboxItem)
    (log : List (String × OutboxEvent)) : Prop where
  keys : (rows.map (·.key)).Nodup
  tracked : ∀ key, (outboxItem key rows).map (·.status) = trackedStatus key log
  first : ∀ key, (outboxItem key rows).map (·.payload) = firstPayload key log
  waits : ∀ key row, outboxItem key rows = some row → row.status = .retrying →
    ∃ now, (key, .retried now row.nextAttemptAt) ∈ log
  lawful : Lawful b log

/-- The items of a thread are open, each once, and what it takes for sent was sent. -/
structure FlushPlace.Holds (p : FlushPlace) (log : List (String × OutboxEvent)) : Prop where
  opened : ∀ i ∈ p.items, OpenIn i.key log
  payload : ∀ i ∈ p.items, firstPayload i.key log = some i.payload
  distinct : (p.items.map (·.key)).Nodup
  returned : ∀ item items, p = .sent item items → sendReturned item.key log = true

structure OutboxSound (b : OutboxBackoff) (s : OutboxThreads) : Prop where
  rows : OutboxRows b s.rows s.log
  held : ∀ thread p, s.place thread = some p → s.lock = some thread ∧ p.Holds s.log

section Invariant

variable {b : OutboxBackoff} {s : OutboxThreads} {rows rows' : List OutboxItem}
variable {log : List (String × OutboxEvent)} {key k payload : String} {e : OutboxEvent}
variable {row item : OutboxItem} {items : List OutboxItem} {p p' : FlushPlace}

theorem trackedStatus_other (h : k ≠ key) :
    trackedStatus key ((k, e) :: log) = trackedStatus key log := by
  simp [trackedStatus, h]

theorem openIn_other (h : k ≠ key) : OpenIn key ((k, e) :: log) ↔ OpenIn key log := by
  rw [OpenIn, OpenIn, trackedStatus_other h]

theorem sendReturned_other (h : k ≠ key) :
    sendReturned key ((k, e) :: log) = sendReturned key log := by
  simp [sendReturned, h]

theorem firstPayload_other (h : k ≠ key) :
    firstPayload key ((k, e) :: log) = firstPayload key log := by
  simp only [firstPayload]
  cases firstPayload key log with
  | some payload => rfl
  | none => cases e <;> simp [h]

theorem firstPayload_cons (h : firstPayload key log = some payload) (x : String × OutboxEvent) :
    firstPayload key (x :: log) = some payload := by
  rw [← List.singleton_append]
  exact firstPayload_append h

/-- A change of one row, with its event. -/
theorem OutboxRows.change (h : OutboxRows b rows log) (hkeys : (rows'.map (·.key)).Nodup)
    (hother : ∀ key, k ≠ key → outboxItem key rows' = outboxItem key rows)
    (hstatus : (outboxItem k rows').map (·.status) = trackedStatus k ((k, e) :: log))
    (hpayload : (outboxItem k rows').map (·.payload) = firstPayload k ((k, e) :: log))
    (hwaits : ∀ row, outboxItem k rows' = some row → row.status = .retrying →
      ∃ now, (k, .retried now row.nextAttemptAt) ∈ (k, e) :: log)
    (hfollows : Follows b k log e) : OutboxRows b rows' ((k, e) :: log) where
  keys := hkeys
  tracked key := by
    by_cases hkey : k = key
    · exact hkey ▸ hstatus
    · rw [hother key hkey, trackedStatus_other hkey, h.tracked]
  first key := by
    by_cases hkey : k = key
    · exact hkey ▸ hpayload
    · rw [hother key hkey, firstPayload_other hkey, h.first]
  waits key row hrow hretrying := by
    by_cases hkey : k = key
    · subst hkey
      exact hwaits row hrow hretrying
    · rw [hother key hkey] at hrow
      obtain ⟨now, hmem⟩ := h.waits key row hrow hretrying
      exact ⟨now, List.mem_cons_of_mem _ hmem⟩
  lawful := ⟨hfollows, h.lawful⟩

/-- The row of an open key. -/
theorem OutboxRows.opened (h : OutboxRows b rows log) (hopen : OpenIn key log) :
    ∃ row, outboxItem key rows = some row ∧ row.status.isOpen = true := by
  obtain ⟨status, hstatus, hopen⟩ := hopen
  rw [← h.tracked] at hstatus
  obtain ⟨row, hrow, rfl⟩ := Option.map_eq_some_iff.mp hstatus
  exact ⟨row, hrow, hopen⟩

/-- An event that leaves the row. -/
theorem OutboxRows.note (h : OutboxRows b rows log)
    (hstatus : trackedStatus k ((k, e) :: log) = trackedStatus k log)
    (hpayload : firstPayload k ((k, e) :: log) = firstPayload k log)
    (hfollows : Follows b k log e) : OutboxRows b rows ((k, e) :: log) :=
  h.change h.keys (fun _ _ => rfl) (by rw [hstatus, h.tracked]) (by rw [hpayload, h.first])
    (fun row hrow hretrying => by
      obtain ⟨now, hmem⟩ := h.waits k row hrow hretrying
      exact ⟨now, List.mem_cons_of_mem _ hmem⟩) hfollows

/-- An update of the row of a key, which keeps its payload. -/
theorem OutboxRows.update (h : OutboxRows b rows log) {f : OutboxItem → OutboxItem}
    (hf : ∀ i, (f i).key = i.key ∧ (f i).payload = i.payload) (hrow : outboxItem k rows = some row)
    (hstatus : trackedStatus k ((k, e) :: log) = some (f row).status)
    (hwaits : (f row).status = .retrying → ∃ now, e = .retried now (f row).nextAttemptAt)
    (hfollows : Follows b k log e) : OutboxRows b (updateOutbox k f rows) ((k, e) :: log) := by
  have hself : outboxItem k (updateOutbox k f rows) = some (f row) := by
    rw [outboxItem_update fun i => (hf i).1, hrow]
    simp
  have hfirst : firstPayload k log = some row.payload := by
    rw [← h.first, hrow]
    rfl
  refine h.change ?_ (fun key hkey => ?_) ?_ ?_ (fun row' hrow' hretrying => ?_) hfollows
  · rw [updateOutbox_keys fun i => (hf i).1]
    exact h.keys
  · rw [outboxItem_update fun i => (hf i).1]
    simp [hkey]
  · rw [hself, hstatus]
    rfl
  · rw [hself, firstPayload_cons hfirst, ← (hf row).2]
    rfl
  · rw [hself] at hrow'
    cases hrow'
    obtain ⟨now, rfl⟩ := hwaits hretrying
    exact ⟨now, List.mem_cons_self⟩

/-- An event on another row than those of the thread, or on one that it leaves open. -/
theorem FlushPlace.Holds.cons (h : p.Holds log) (hitems : p'.items ⊆ p.items)
    (hdistinct : (p'.items.map (·.key)).Nodup)
    (hopen : ∀ i ∈ p'.items, k = i.key → OpenIn i.key ((k, e) :: log))
    (hreturned : ∀ item items, p' = .sent item items →
      sendReturned item.key ((k, e) :: log) = true) :
    p'.Holds ((k, e) :: log) where
  opened i hi := by
    by_cases hkey : k = i.key
    · exact hopen i hi hkey
    · exact (openIn_other hkey).mpr (h.opened i (hitems hi))
  payload i hi := firstPayload_cons (h.payload i (hitems hi)) _
  distinct := hdistinct
  returned := hreturned

/-! ## Steps -/

theorem enqueueOutbox_rows (h : OutboxRows b rows log) (runKey event : String) (now : Nat) :
    OutboxRows b (enqueueOutbox key runKey event payload now rows)
      ((key, .enqueued payload) :: log) := by
  have htracked := h.tracked key
  have hfirst := h.first key
  have hitem := outboxItem_enqueue key key runKey event payload now rows
  refine h.change (enqueueOutbox_keys h.keys) (fun other hother => ?_) ?_ ?_ ?_ trivial
  · rw [outboxItem_enqueue]
    cases outboxItem other rows with
    | some row => rfl
    | none => exact if_neg hother
  · simp only [trackedStatus, if_true]
    rw [hitem, ← htracked]
    cases outboxItem key rows with
    | some row => rfl
    | none => simp
  · simp only [firstPayload]
    rw [hitem, ← hfirst]
    cases outboxItem key rows with
    | some row => rfl
    | none => simp
  · intro row hrow hretrying
    rw [hitem] at hrow
    cases hold : outboxItem key rows with
    | some old =>
      rw [hold] at hrow
      cases hrow
      obtain ⟨now, hmem⟩ := h.waits key row hold hretrying
      exact ⟨now, List.mem_cons_of_mem _ hmem⟩
    | none =>
      rw [hold] at hrow
      simp only [if_true, Option.some.injEq] at hrow
      rw [← hrow] at hretrying
      cases hretrying

theorem finishOutbox_rows (h : OutboxRows b rows log) (hopen : OpenIn key log)
    (hreturned : sendReturned key log = true) :
    OutboxRows b (finishOutbox key rows) ((key, .finished) :: log) := by
  obtain ⟨row, hrow, -⟩ := h.opened hopen
  exact h.update (fun _ => ⟨rfl, rfl⟩) hrow (by simp [trackedStatus]) (by simp) ⟨hopen, hreturned⟩

theorem failureDelay_le (e : SendError) (attempts : Nat) (h : (e.failure b).permanent = false) :
    (e.failure b).delay attempts ≤ b.maximum := by
  have hinitial := b.initial_pos
  have hordered := b.ordered
  cases e with
  | contract text => cases h
  | dependency text errorClass =>
    unfold OutboxFailure.delay SendError.failure
    dsimp only
    omega
  | other text =>
    unfold OutboxFailure.delay SendError.failure
    dsimp only
    omega

theorem failOutbox_rows (h : OutboxRows b s.rows s.log) (hopen : OpenIn key s.log) (e : SendError)
    (now : Nat) :
    OutboxRows b (failOutbox key (e.failure b) now s.rows)
      ((key, s.failed key (e.failure b) now) :: s.log) := by
  obtain ⟨row, hrow, -⟩ := h.opened hopen
  unfold OutboxThreads.failed
  cases hpermanent : (e.failure b).permanent with
  | true =>
    exact h.update (fun _ => ⟨rfl, rfl⟩) hrow (by simp [trackedStatus, hpermanent])
      (by simp [hpermanent]) hopen
  | false =>
    have hdelay := failureDelay_le e (failedAttempts key s.rows) hpermanent
    exact h.update (fun _ => ⟨rfl, rfl⟩) hrow (by simp [trackedStatus, hpermanent])
      (by simp [hpermanent]) ⟨hopen, by omega⟩

theorem retryDeadOutbox_rows (h : OutboxRows b rows log) {now : Nat}
    (hretry : retryDeadOutbox key now rows = some rows') :
    trackedStatus key log = some .dead ∧ OutboxRows b rows' ((key, .revived) :: log) := by
  obtain ⟨⟨row, hrow, hdead⟩, rfl⟩ := retryDeadOutbox_eq h.keys hretry
  have htracked : trackedStatus key log = some .dead := by
    rw [← h.tracked, hrow, Option.map_some, hdead]
  exact ⟨htracked, h.update (fun _ => ⟨rfl, rfl⟩) hrow (by simp [trackedStatus]) (by simp) htracked⟩

/-- The same items at another place. -/
theorem FlushPlace.Holds.moves (h : p.Holds log) (hitems : p'.items = p.items)
    (hreturned : ∀ item items, p' = .sent item items → sendReturned item.key log = true) :
    p'.Holds log where
  opened i hi := h.opened i (hitems ▸ hi)
  payload i hi := h.payload i (hitems ▸ hi)
  distinct := hitems ▸ h.distinct
  returned := hreturned

/-- The item is closed, and the others are left. -/
theorem FlushPlace.Holds.rest (h : p.Holds log) (hp : p.items = item :: items) :
    (FlushPlace.looping items).Holds ((item.key, e) :: log) := by
  have hdistinct := h.distinct
  rw [hp, List.map_cons, List.nodup_cons] at hdistinct
  refine h.cons ?_ hdistinct.2 (fun i hi hkey => ?_) (fun item items heq => ?_)
  · rw [hp]
    exact List.subset_cons_self _ _
  · exact absurd (hkey ▸ List.mem_map_of_mem hi) hdistinct.1
  · cases heq

theorem pendingOutbox_holds (h : OutboxRows b rows log) (now : Nat) :
    (FlushPlace.looping (pendingOutbox now rows)).Holds log where
  opened i hi := by
    obtain ⟨hmem, hopen⟩ := mem_pendingOutbox hi
    exact ⟨i.status, by rw [← h.tracked, outboxItem_of_mem h.keys hmem]; rfl, hopen⟩
  payload i hi := by
    rw [← h.first, outboxItem_of_mem h.keys (mem_pendingOutbox hi).1]
    rfl
  distinct := pendingOutbox_keys h.keys now
  returned item items heq := by cases heq

theorem flushNext_place (now : Nat) (raised : Option SendError) :
    (s.next b p now raised).1.place = s.place ∧ (s.next b p now raised).1.lock = s.lock := by
  cases p with
  | reading => exact ⟨rfl, rfl⟩
  | looping items =>
    cases items with
    | nil => exact ⟨rfl, rfl⟩
    | cons item items => cases raised <;> exact ⟨rfl, rfl⟩
  | sending item items => cases raised <;> exact ⟨rfl, rfl⟩
  | sent item items => cases raised <;> exact ⟨rfl, rfl⟩
  | failing error item items => exact ⟨rfl, rfl⟩

/-- A statement of the flush keeps the rows and the items of its thread. -/
theorem flushNext_sound (h : OutboxRows b s.rows s.log) (hp : p.Holds s.log) (now : Nat)
    (raised : Option SendError) :
    OutboxRows b (s.next b p now raised).1.rows (s.next b p now raised).1.log ∧
    ∀ p', (s.next b p now raised).2 = some p' → p'.Holds (s.next b p now raised).1.log := by
  cases p with
  | reading =>
    refine ⟨h, fun p' hp' => ?_⟩
    cases hp'
    exact pendingOutbox_holds h now
  | looping items =>
    cases items with
    | nil =>
      refine ⟨h, fun p' hp' => ?_⟩
      cases hp'
    | cons item items =>
      have hopen := hp.opened item List.mem_cons_self
      have hpayload := hp.payload item List.mem_cons_self
      cases raised with
      | some error =>
        refine ⟨h, fun p' hp' => ?_⟩
        cases hp'
        exact hp.moves rfl fun item items heq => by cases heq
      | none =>
        refine ⟨h.note (by simp [trackedStatus]) ?_ ⟨hopen, hpayload⟩, fun p' hp' => ?_⟩
        · rw [firstPayload_cons hpayload, hpayload]
        · cases hp'
          refine hp.cons (fun i hi => hi) hp.distinct (fun i hi hkey => ?_) fun item items heq => ?_
          · obtain ⟨status, hstatus, hopen⟩ := hp.opened i hi
            exact ⟨status, by simpa [trackedStatus, hkey] using hstatus, hopen⟩
          · cases heq
  | sending item items =>
    have hpayload := hp.payload item List.mem_cons_self
    cases raised with
    | some error =>
      refine ⟨h, fun p' hp' => ?_⟩
      cases hp'
      exact hp.moves rfl fun item items heq => by cases heq
    | none =>
      refine ⟨h.note (by simp [trackedStatus]) ?_ trivial, fun p' hp' => ?_⟩
      · rw [firstPayload_cons hpayload, hpayload]
      · cases hp'
        refine hp.cons (fun i hi => hi) hp.distinct (fun i hi hkey => ?_) fun item items heq => ?_
        · obtain ⟨status, hstatus, hopen⟩ := hp.opened i hi
          exact ⟨status, by simpa [trackedStatus, hkey] using hstatus, hopen⟩
        · cases heq
          simp [sendReturned]
  | sent item items =>
    cases raised with
    | some error =>
      refine ⟨h, fun p' hp' => ?_⟩
      cases hp'
      exact hp.moves rfl fun item items heq => by cases heq
    | none =>
      refine ⟨finishOutbox_rows h (hp.opened item List.mem_cons_self) (hp.returned item items rfl),
        fun p' hp' => ?_⟩
      cases hp'
      exact hp.rest rfl
  | failing error item items =>
    refine ⟨failOutbox_rows h (hp.opened item List.mem_cons_self) error now, fun p' hp' => ?_⟩
    cases hp'
    exact hp.rest rfl

/-- Another thread has no place while one has the lock. -/
theorem OutboxSound.other (h : OutboxSound b s) {thread other : String}
    (hp : s.place thread = some p) (hne : other ≠ thread) : s.place other = none := by
  cases hother : s.place other with
  | none => rfl
  | some p' =>
    have hlock := (h.held thread p hp).1
    rw [(h.held other p' hother).1] at hlock
    exact absurd (Option.some.inj hlock) hne

/-- What the thread that has the lock may come to. -/
theorem OutboxSound.put {s' : OutboxThreads} {thread : String} {q : Option FlushPlace}
    (hrows : OutboxRows b s'.rows s'.log) (hlock : s'.lock = some thread)
    (hother : ∀ other, other ≠ thread → s'.place other = none)
    (hq : ∀ p', q = some p' → p'.Holds s'.log) : OutboxSound b (s'.put thread q) := by
  cases q with
  | some p' =>
    refine ⟨hrows, fun other p hp => ?_⟩
    by_cases hthread : other = thread
    · subst hthread
      have hsame : p' = p := by simpa [OutboxThreads.put] using hp
      exact ⟨hlock, hsame ▸ hq p' rfl⟩
    · have hnone : s'.place other = some p := by simpa [OutboxThreads.put, hthread] using hp
      rw [hother other hthread] at hnone
      cases hnone
  | none =>
    refine ⟨hrows, fun other p hp => ?_⟩
    by_cases hthread : other = thread
    · subst hthread
      simp [OutboxThreads.put] at hp
    · have hnone : s'.place other = some p := by simpa [OutboxThreads.put, hthread] using hp
      rw [hother other hthread] at hnone
      cases hnone

/-- **One step keeps the outbox sound.** -/
theorem outboxStep_sound (h : OutboxSound b s) (a : OutboxAct) : OutboxSound b (s.step b a) := by
  cases a with
  | enqueue key runKey event payload now =>
    refine ⟨enqueueOutbox_rows h.rows runKey event now, fun thread p hp => ?_⟩
    obtain ⟨hlock, hholds⟩ := h.held thread p hp
    refine ⟨hlock, hholds.cons (fun i hi => hi) hholds.distinct (fun i hi hkey => ?_)
      fun item items heq => ?_⟩
    · obtain ⟨status, hstatus, hopen⟩ := hholds.opened i hi
      exact ⟨status, by simp [trackedStatus, hkey, hstatus], hopen⟩
    · have hreturned := hholds.returned item items heq
      by_cases hkey : key = item.key
      · simpa [sendReturned, hkey] using hreturned
      · rwa [sendReturned_other hkey]
  | retryDead key now =>
    unfold OutboxThreads.step
    dsimp only
    split
    · next rows hretry =>
      obtain ⟨hdead, hrows⟩ := retryDeadOutbox_rows h.rows hretry
      refine ⟨hrows, fun thread p hp => ?_⟩
      obtain ⟨hlock, hholds⟩ := h.held thread p hp
      -- the items of the thread are open, the revived row was dead
      have hne : ∀ i ∈ p.items, key ≠ i.key := by
        rintro i hi rfl
        obtain ⟨status, hstatus, hopen⟩ := hholds.opened i hi
        rw [hdead] at hstatus
        cases hstatus
        cases hopen
      refine ⟨hlock, hholds.cons (fun i hi => hi) hholds.distinct
        (fun i hi hkey => absurd hkey (hne i hi)) fun item items heq => ?_⟩
      rw [sendReturned_other (hne item (by rw [heq]; exact List.mem_cons_self))]
      exact hholds.returned item items heq
    · exact h
  | flush thread =>
    unfold OutboxThreads.step
    dsimp only
    split
    · next hfree =>
      refine OutboxSound.put h.rows rfl (fun other hne => ?_) fun p' hp' => ?_
      · cases hother : s.place other with
        | none => rfl
        | some p =>
          have hlock := (h.held other p hother).1
          rw [hfree.1] at hlock
          cases hlock
      · cases hp'
        exact ⟨by simp [FlushPlace.items], by simp [FlushPlace.items], by simp [FlushPlace.items],
          fun item items heq => by cases heq⟩
    · exact h
  | go thread now raised =>
    unfold OutboxThreads.step
    dsimp only
    split
    · next p hp =>
      obtain ⟨hlock, hholds⟩ := h.held thread p hp
      obtain ⟨hrows, hnext⟩ := flushNext_sound h.rows hholds now raised
      obtain ⟨hplace, hlock'⟩ := flushNext_place (b := b) (s := s) (p := p) now raised
      refine OutboxSound.put hrows (hlock'.trans hlock) (fun other hne => ?_) hnext
      rw [hplace]
      exact h.other hp hne
    · exact h
  | leave thread =>
    unfold OutboxThreads.step
    dsimp only
    split
    · next p hp =>
      exact OutboxSound.put h.rows (h.held thread p hp).1 (fun other hne => h.other hp hne)
        fun p' hp' => by cases hp'
    · exact h
  | crash => exact ⟨h.rows, fun thread p hp => by cases hp⟩

theorem outboxRun_sound (h : OutboxSound b s) (acts : List OutboxAct) : OutboxSound b (s.run b acts) := by
  induction acts generalizing s with
  | nil => exact h
  | cons a acts ih => exact ih (outboxStep_sound h a)

theorem outboxEmpty_sound : OutboxSound b {} where
  rows := ⟨List.nodup_nil, fun _ => rfl, fun _ => rfl, fun _ _ hrow => (by cases hrow), trivial⟩
  held _ _ hp := by cases hp

/-- The event that closes a row. -/
def OutboxStatus.closing : OutboxStatus → Option OutboxEvent
  | done => some .finished
  | dead => some .died
  | pending | retrying => none

theorem trackedStatus_closing {status : OutboxStatus} (h : status.closing = some e) (key : String)
    (log : List (String × OutboxEvent)) :
    trackedStatus key ((key, e) :: log) = some status ∧ status.isOpen = false := by
  cases status <;> cases h <;> simp [trackedStatus, OutboxStatus.isOpen]

/-- A closed row was closed. -/
theorem closing_mem {status : OutboxStatus} (hclosing : status.closing = some e)
    (h : trackedStatus key log = some status) : (key, e) ∈ log := by
  induction log with
  | nil => cases h
  | cons first past ih =>
    obtain ⟨k, e'⟩ := first
    by_cases hkey : k = key
    · subst hkey
      cases e' with
      | enqueued payload =>
        simp only [trackedStatus, if_true, Option.some.injEq] at h
        cases hpast : trackedStatus k past with
        | none =>
          rw [hpast] at h
          cases h
          cases hclosing
        | some status' =>
          rw [hpast] at h
          exact List.mem_cons_of_mem _ (ih (hpast.trans (congrArg some h)))
      | sending payload => exact List.mem_cons_of_mem _ (ih (by simpa [trackedStatus] using h))
      | sent => exact List.mem_cons_of_mem _ (ih (by simpa [trackedStatus] using h))
      | finished =>
        simp only [trackedStatus, if_true, Option.some.injEq] at h
        cases h
        cases hclosing
        exact List.mem_cons_self
      | died =>
        simp only [trackedStatus, if_true, Option.some.injEq] at h
        cases h
        cases hclosing
        exact List.mem_cons_self
      | retried now next =>
        simp only [trackedStatus, if_true, Option.some.injEq] at h
        cases h
        cases hclosing
      | revived =>
        simp only [trackedStatus, if_true, Option.some.injEq] at h
        cases h
        cases hclosing
    · rw [trackedStatus_other hkey] at h
      exact List.mem_cons_of_mem _ (ih h)

/-- After a row was closed it is not sent, unless it is dead and revived in between. -/
theorem Lawful.closed {status : OutboxStatus} {later between past : List (String × OutboxEvent)}
    (h : Lawful b (later ++ (key, .sending payload) :: between ++ (key, e) :: past))
    (hclosing : status.closing = some e) : status = .dead ∧ (key, .revived) ∈ between := by
  rw [List.append_assoc, List.cons_append] at h
  have hopen : OpenIn key (between ++ (key, e) :: past) := h.follows.1
  obtain ⟨htracked, hclosed⟩ := trackedStatus_closing hclosing key past
  by_contra hnot
  have hlawful : Lawful b (between ++ (key, e) :: past) := h.tail
  obtain ⟨status', hstatus', hopen'⟩ := hopen
  rw [hlawful.stays hclosed htracked fun hdead hmem => hnot ⟨hdead, hmem⟩] at hstatus'
  cases hstatus'
  rw [hclosed] at hopen'
  cases hopen'

end Invariant

/-- **The outbox keeps its law over every interleaving.** -/
theorem outbox_law (b : OutboxBackoff) (acts : List OutboxAct) :
    OutboxLaw b (OutboxThreads.run b {} acts) := by
  obtain ⟨hrows, -⟩ := outboxRun_sound outboxEmpty_sound acts (b := b)
  set s := OutboxThreads.run b {} acts
  have hpayload : ∀ key payload, firstPayload key s.log = some payload →
      ∃ row, outboxItem key s.rows = some row ∧ row.payload = payload := by
    intro key payload hfirst
    rw [← hrows.first] at hfirst
    exact Option.map_eq_some_iff.mp hfirst
  have hstatus : ∀ row ∈ s.rows, trackedStatus row.key s.log = some row.status := by
    intro row hmem
    rw [← hrows.tracked, outboxItem_of_mem hrows.keys hmem]
    rfl
  constructor
  case first =>
    intro key payload later past hlog hpast
    exact hpayload key payload (hlog ▸ firstPayload_first hpast)
  case keys => exact hrows.keys
  case sends => exact fun key payload hmem => hpayload key payload (hrows.lawful.sending hmem)
  case finished =>
    intro key later past hlog
    have hlawful := hrows.lawful
    rw [hlog] at hlawful
    exact sendReturned_split hlawful.follows.2
  case closed =>
    intro row hmem
    cases hrow : row.status with
    | pending => exact .inl rfl
    | retrying => exact .inl rfl
    | done => exact .inr (.inl ⟨rfl, closing_mem rfl (hrow ▸ hstatus row hmem)⟩)
    | dead => exact .inr (.inr ⟨rfl, closing_mem rfl (hrow ▸ hstatus row hmem)⟩)
  case done =>
    intro key payload later between past hlog
    have hlawful := hrows.lawful
    rw [hlog] at hlawful
    have hdead := (hlawful.closed (show OutboxStatus.done.closing = _ from rfl)).1
    cases hdead
  case dead =>
    intro key payload later between past hlog
    have hlawful := hrows.lawful
    rw [hlog] at hlawful
    exact (hlawful.closed (show OutboxStatus.dead.closing = _ from rfl)).2
  case delay =>
    intro key now next hmem
    obtain ⟨later, past, hlog⟩ := List.append_of_mem hmem
    have hlawful := hrows.lawful
    rw [hlog] at hlawful
    exact hlawful.follows.2
  case waits =>
    intro row hmem hretrying
    exact hrows.waits row.key row (outboxItem_of_mem hrows.keys hmem) hretrying

/-- A process that dies between the send and its record sends the row a second time. -/
example :
    let s := OutboxThreads.run ⟨5, 300, by decide, by decide⟩ {} [
      .enqueue "k" "run-a" "started" "text" 10, .flush "t", .go "t" 10 none, .go "t" 10 none,
      .go "t" 10 none, .crash, .flush "t", .go "t" 11 none, .go "t" 11 none, .go "t" 11 none,
      .go "t" 11 none]
    s.rows.map (·.status) = [.done] ∧ s.log.countP (·.2 = .sent) = 2 := by
  decide +kernel

end HollysysController
