import HollysysController.ReconcileAll
import HollysysController.Consumer

/-! # The ledger of abort requests

The threads that execute `abort_request` and `abort_confirm`, and the passes of
`reconcile_all` that close what a restart cut off. Each transaction on the requests is one
step, and so is each use of the guard. -/

namespace HollysysController

open Durable

/-- An abort RPC, as its request row keeps it. -/
structure SensitiveRequest where
  key : String
  payload : String
  runKey : String
  confirm : Bool
  deriving DecidableEq, Repr

/-- What `_recover_sensitive_request` stores, by the confirmed state of the run. -/
def SensitiveRequest.closure (q : SensitiveRequest) : Option RunControl → String
  | some control => recoveredConfirmation q.runKey control
  | none => s!"{q.runKey}|token_unavailable"

/-- What the recovery finds of the run. -/
def SensitiveRequest.recorded (q : SensitiveRequest) (s : Store) : Option RunControl :=
  if q.confirm then abortRecorded (s.runControl q.runKey) else none

/-- Where a thread stands. -/
inductive RequestPlace where
  | beginning (q : SensitiveRequest)
  | body (q : SensitiveRequest)
  | finishing (q : SensitiveRequest) (response : String)
  | failing (q : SensitiveRequest) (error : String)
  | leaving (q : SensitiveRequest)
  /-- A pass, with the rows of `running_requests` that are left. -/
  | recovering (rows : List SensitiveRequest)
  | closing (q : SensitiveRequest) (recorded : Option RunControl) (rows : List SensitiveRequest)

namespace RequestPlace

/-- The request whose RPC the thread executes. -/
def executing : RequestPlace → Option SensitiveRequest
  | beginning q | body q | finishing q _ | failing q _ | leaving q => some q
  | recovering _ | closing _ _ _ => none

/-- The request whose row the thread has found open. -/
def opened : RequestPlace → Option SensitiveRequest
  | body q | finishing q _ | failing q _ => some q
  | _ => none

end RequestPlace

structure RequestThreads where
  store : Store
  /-- `_active_requests`. -/
  active : List String := []
  place : String → Option RequestPlace := fun _ => none

/-- How the code that is not embedded here ends, or that a database statement fails. -/
inductive RequestAnswer where
  | response (text : String)
  | refused (text : String)
  /-- A dependency error, which leaves the request running. -/
  | degraded
  | broken
  deriving DecidableEq, Repr

inductive RequestAct where
  | call (thread : String) (q : SensitiveRequest)
  /-- A pass lists running abort requests. -/
  | sweep (thread : String) (rows : List SensitiveRequest)
  | go (thread : String) (answer : RequestAnswer)
  /-- Another transaction, which leaves the requests alone. -/
  | other (f : Store → Store)
  | restart

/-- The response of a request that is done. -/
def Store.answered (s : Store) (key : String) : Option String :=
  (s.requests key).bind fun row => if row.status = .done then row.response else none

def Store.isRunning (s : Store) (key : String) : Bool :=
  (s.requests key).any fun row => row.status == .running

namespace RequestThreads

/-- A statement of a thread, and where it goes from there. -/
def next (s : RequestThreads) (p : RequestPlace) (answer : RequestAnswer) :
    RequestThreads × Option RequestPlace :=
  match p with
  | .beginning q =>
    if answer = .broken then (s, some (.leaving q))
    else match beginRequest q.key q.payload s.store with
      | .ok (none, store) => ({ s with store }, some (.body q))
      | .ok (some _, _) | .error _ => (s, some (.leaving q))
  | .body q => match answer with
    | .response text => (s, some (.finishing q text))
    | .refused text => (s, some (.failing q text))
    | .degraded => (s, some (.leaving q))
    | .broken => (s, some (.failing q databaseError.text))
  | .finishing q response =>
    if answer = .broken then (s, some (.failing q databaseError.text))
    else ({ s with store := ((finishRequest q.key response).commit s.store).2 },
      some (.leaving q))
  | .failing q error =>
    if answer = .broken then (s, some (.leaving q))
    else ({ s with store := ((failRequest q.key error).commit s.store).2 }, some (.leaving q))
  | .leaving q => ({ s with active := s.active.filter (· != q.key) }, none)
  | .recovering [] => (s, none)
  | .recovering (q :: rows) =>
    (s, if answer = .broken then none else some (.closing q (q.recorded s.store) rows))
  | .closing q recorded rows =>
    if answer = .broken then (s, none)
    else ({ s with store := ((finishRequest q.key (q.closure recorded)).commit s.store).2 },
      some (.recovering rows))

/-- The thread goes to a place, or leaves. -/
def put (s : RequestThreads) (thread : String) (p : Option RequestPlace) : RequestThreads :=
  { s with place := Function.update s.place thread p }

/-- One step, `none` when it cannot happen. -/
def step (s : RequestThreads) : RequestAct → Option RequestThreads
  | .call thread q =>
    if s.place thread ≠ none then none
    -- `request_in_progress`
    else if q.key ∈ s.active then some s
    else some ({ s with active := q.key :: s.active }.put thread (some (.beginning q)))
  | .sweep thread rows =>
    if s.place thread = none ∧ ∀ q ∈ rows, s.store.isRunning q.key = true then
      some (s.put thread (some (.recovering rows)))
    else none
  | .go thread answer => (s.place thread).map fun p =>
    (s.next p answer).1.put thread (s.next p answer).2
  | .other f => some { s with store := { f s.store with requests := s.store.requests } }
  | .restart => some { s with active := [], place := fun _ => none }

end RequestThreads

/-! ## The law -/

/-- What the ledger owes: a request is refused only when no thread executes it, and the response
of a request that is done stays. -/
structure LedgerLaw (s : RequestThreads) (a : RequestAct) (s' : RequestThreads) : Prop where
  refused : ∀ thread answer q rows, a = .go thread answer → answer ≠ .broken →
    s.place thread = some (.closing q none rows) →
    ∀ other p, s.place other = some p → ∀ q', p.executing = some q' → q'.key ≠ q.key
  kept : ∀ key response, s.store.answered key = some response →
    s'.store.answered key = some response

/-- A pass closes a request only while no thread has it and its row is still running. -/
def ClosesAlone (s : RequestThreads) (a : RequestAct) (_ : RequestThreads) : Prop :=
  match a with
  | .go thread answer => match s.place thread with
    | some (.closing q _ _) =>
      answer = .broken ∨ q.key ∉ s.active ∧ s.store.isRunning q.key = true
    | _ => True
  | _ => True

instance (s : RequestThreads) (a : RequestAct) (s' : RequestThreads) :
    Decidable (ClosesAlone s a s') := by
  unfold ClosesAlone
  split
  · split
    · infer_instance
    · infer_instance
  · infer_instance

/-! ## Rows -/

theorem answered_isRunning {s : Store} {key : String} (h : s.isRunning key = true) :
    s.answered key = none := by
  obtain ⟨row, hrow, hrunning⟩ : ∃ row, s.requests key = some row ∧ row.status = .running := by
    simpa [Store.isRunning, Option.any_eq_true] using h
  simp [Store.answered, hrow, hrunning]

/-- A transaction on one request leaves the others. -/
theorem answered_finishRequest {s : Store} {key key' response : String} (h : key' ≠ key) :
    ((finishRequest key response).commit s).2.answered key' = s.answered key' := by
  simp [Store.answered, finishRequest, Txn.commit, h]

theorem answered_failRequest {s : Store} {key key' error : String} (h : key' ≠ key) :
    ((failRequest key error).commit s).2.answered key' = s.answered key' := by
  simp [Store.answered, failRequest, Txn.commit, h]

theorem failRequest_open {s : Store} {key error : String} :
    ((failRequest key error).commit s).2.answered key = none := by
  cases hrow : s.requests key <;> simp [Store.answered, failRequest, Txn.commit, hrow]

/-- `begin_request` goes on only with a request that has no response yet. -/
theorem beginRequest_open {s s' : Store} {key payload : String}
    (h : beginRequest key payload s = .ok (none, s')) :
    s'.answered key = none ∧ ∀ key', s'.answered key' = s.answered key' := by
  unfold beginRequest at h
  cases hrow : s.requests key with
  | none =>
    simp only [hrow, Except.ok.injEq, Prod.mk.injEq, true_and] at h
    rw [← h]
    refine ⟨by simp [Store.answered], fun key' => ?_⟩
    by_cases hkey : key' = key
    · simp [Store.answered, hkey, hrow]
    · simp [Store.answered, hkey]
  | some row =>
    simp only [hrow] at h
    split at h
    · cases h
    · split at h
      · cases h
      · cases h
      next hfailed hdone =>
        cases h
        refine ⟨?_, fun _ => rfl⟩
        simp only [Store.answered, hrow, Option.bind_some]
        split
        next hstatus =>
          cases hresponse : row.response with
          | none => rfl
          | some response => exact absurd hresponse (hdone response hstatus)
        next => rfl

/-! ## Statements -/

/-- The request whose response the next statement of a place may change. -/
def RequestPlace.writes : RequestPlace → Option SensitiveRequest
  | .finishing q _ | .failing q _ | .closing q _ _ => some q
  | _ => none

section Next

variable {s : RequestThreads} {p p' : RequestPlace} {answer : RequestAnswer} {q : SensitiveRequest}

/-- A statement changes no response but that of its own request. -/
theorem RequestThreads.next_answered {key : String} (h : ∀ q, p.writes = some q → q.key ≠ key) :
    (s.next p answer).1.store.answered key = s.store.answered key := by
  cases p with
  | beginning q =>
    unfold RequestThreads.next
    dsimp only
    split
    next => rfl
    next =>
      split
      next store hbegin => exact (beginRequest_open hbegin).2 key
      next => rfl
      next => rfl
  | body q => cases answer <;> rfl
  | finishing q response =>
    have hne : key ≠ q.key := (h q rfl).symm
    unfold RequestThreads.next
    dsimp only
    split
    next => rfl
    next => exact answered_finishRequest hne
  | failing q error =>
    have hne : key ≠ q.key := (h q rfl).symm
    unfold RequestThreads.next
    dsimp only
    split
    next => rfl
    next => exact answered_failRequest hne
  | leaving q => rfl
  | recovering rows => cases rows <;> rfl
  | closing q recorded rows =>
    have hne : key ≠ q.key := (h q rfl).symm
    unfold RequestThreads.next
    dsimp only
    split
    next => rfl
    next => exact answered_finishRequest hne

/-- A thread goes on with the request that it executes. -/
theorem RequestThreads.next_executing (h : (s.next p answer).2 = some p') (hq : p'.executing = some q) :
    p.executing = some q := by
  cases p with
  | beginning q' =>
    unfold RequestThreads.next at h
    dsimp only at h
    split at h
    next =>
      cases h
      exact hq
    next =>
      split at h <;> cases h <;> exact hq
  | body q' => cases answer <;> cases h <;> exact hq
  | finishing q' response =>
    unfold RequestThreads.next at h
    dsimp only at h
    split at h <;> cases h <;> exact hq
  | failing q' error =>
    unfold RequestThreads.next at h
    dsimp only at h
    split at h <;> cases h <;> exact hq
  | leaving q' => cases h
  | recovering rows =>
    cases rows with
    | nil => cases h
    | cons q' rows =>
      unfold RequestThreads.next at h
      dsimp only at h
      split at h <;> cases h
      cases hq
  | closing q' recorded rows =>
    unfold RequestThreads.next at h
    dsimp only at h
    split at h <;> cases h
    cases hq

/-- Where a thread goes on with an open request, the request has no response. -/
theorem RequestThreads.next_opened (h : (s.next p answer).2 = some p') (hq : p'.opened = some q)
    (hp : p.opened = some q → s.store.answered q.key = none) :
    (s.next p answer).1.store.answered q.key = none := by
  cases p with
  | beginning q' =>
    unfold RequestThreads.next at h ⊢
    dsimp only at h ⊢
    split at h
    next =>
      cases h
      cases hq
    next hanswer =>
      rw [if_neg hanswer]
      split at h
      next store hbegin =>
        cases h
        cases hq
        exact (beginRequest_open hbegin).1
      next =>
        cases h
        cases hq
      next =>
        cases h
        cases hq
  | body q' =>
    cases answer <;> cases h <;> first | exact hp hq | cases hq
  | finishing q' response =>
    unfold RequestThreads.next at h ⊢
    dsimp only at h ⊢
    split at h
    next hanswer =>
      cases h
      rw [if_pos hanswer]
      exact hp hq
    next =>
      cases h
      cases hq
  | failing q' error =>
    unfold RequestThreads.next at h
    dsimp only at h
    split at h <;> cases h <;> cases hq
  | leaving q' => cases h
  | recovering rows =>
    cases rows with
    | nil => cases h
    | cons q' rows =>
      unfold RequestThreads.next at h
      dsimp only at h
      split at h <;> cases h
      cases hq
  | closing q' recorded rows =>
    unfold RequestThreads.next at h
    dsimp only at h
    split at h <;> cases h
    cases hq

/-- Only the request that a thread leaves is given back. -/
theorem RequestThreads.next_active (s : RequestThreads) (p : RequestPlace) (answer : RequestAnswer) :
    (s.next p answer).1.active = s.active ∨ ∃ q, p = .leaving q ∧ (s.next p answer).2 = none ∧
      (s.next p answer).1.active = s.active.filter (· != q.key) := by
  cases p with
  | leaving q => exact .inr ⟨q, rfl, rfl, rfl⟩
  | body q => cases answer <;> exact .inl rfl
  | recovering rows => cases rows <;> exact .inl rfl
  | _ =>
    left
    unfold RequestThreads.next
    dsimp only
    repeat' split
    all_goals rfl

end Next

/-- The two statements of a recovery are those of `_recover_sensitive_request`. -/
theorem recovering_runs (w : World) (q : SensitiveRequest) (rows : List SensitiveRequest) :
    (RequestThreads.next { store := w.store } (.closing q (q.recorded w.store) rows)
        (.response "")).1.store =
      (machine.eval (recoverSensitiveRequest q.key q.runKey q.confirm) w).2.store := by
  unfold recoverSensitiveRequest SensitiveRequest.recorded
  cases q.confirm with
  | false => rfl
  | true =>
    simp only [if_true, Prog.bind_def]
    rw [machine.eval_bind_of (eval_readControl q.runKey w)]
    cases abortRecorded (w.store.runControl q.runKey) <;> rfl

/-! ## Runs -/

/-- The threads have the requests they execute, each its own, and a request that a thread has
found open has no response. -/
structure LedgerInv (s : RequestThreads) : Prop where
  taken : ∀ t p q, s.place t = some p → p.executing = some q → q.key ∈ s.active
  alone : ∀ t u p p' q q', s.place t = some p → s.place u = some p' → p.executing = some q →
    p'.executing = some q' → q.key = q'.key → t = u
  opened : ∀ t p q, s.place t = some p → p.opened = some q → s.store.answered q.key = none

theorem executing_of_opened {p : RequestPlace} {q : SensitiveRequest} (h : p.opened = some q) :
    p.executing = some q := by
  cases p <;> first | exact h | cases h

theorem ledgerInv_idle (store : Store) : LedgerInv { store } := by
  constructor <;> intros <;> simp_all

section Step

variable {s s' : RequestThreads} {thread : String} {answer : RequestAnswer} {p : RequestPlace}

/-- A thread that has a request open writes no row that another thread has open, and neither does
a pass that closes alone. -/
theorem writes_apart (hs : LedgerInv s) (hp : s.place thread = some p)
    (hclose : ClosesAlone s (.go thread answer) s') (hanswer : answer ≠ .broken)
    {q q' : SensitiveRequest} (hw : p.writes = some q) {t : String} {p' : RequestPlace}
    (ht : s.place t = some p') (hne : t ≠ thread) (hq' : p'.executing = some q') :
    q.key ≠ q'.key := by
  intro heq
  have hown : p.executing = some q → False := fun hexecuting =>
    hne (hs.alone t thread p' p q' q ht hp hq' hexecuting heq.symm)
  cases p with
  | closing r recorded rows =>
    cases hw
    simp only [ClosesAlone, hp, hanswer, false_or] at hclose
    exact hclose.1 (heq ▸ hs.taken t p' q' ht hq')
  | beginning r => cases hw
  | finishing r response => exact hown hw
  | failing r error => exact hown hw
  | body r => cases hw
  | leaving r => cases hw
  | recovering rows => cases hw

theorem broken_answered (key : String) : (s.next p .broken).1.store.answered key =
    s.store.answered key := by
  cases p with
  | recovering rows => cases rows <;> rfl
  | _ => rfl

theorem RequestThreads.next_place (s : RequestThreads) (p : RequestPlace) (answer : RequestAnswer) :
    (s.next p answer).1.place = s.place := by
  cases p with
  | body q => cases answer <;> rfl
  | recovering rows => cases rows <;> rfl
  | leaving q => rfl
  | _ =>
    unfold RequestThreads.next
    dsimp only
    repeat' split
    all_goals rfl

/-- A statement of one thread keeps the invariant. -/
theorem ledgerInv_go (hs : LedgerInv s) (hp : s.place thread = some p)
    (hclose : ClosesAlone s (.go thread answer) s') :
    LedgerInv ((s.next p answer).1.put thread (s.next p answer).2) := by
  have hplace : ∀ t p₁, ((s.next p answer).1.put thread (s.next p answer).2).place t = some p₁ →
      (t = thread ∧ (s.next p answer).2 = some p₁) ∨ (t ≠ thread ∧ s.place t = some p₁) := by
    intro t p₁ ht
    simp only [RequestThreads.put, Function.update_apply, RequestThreads.next_place] at ht
    split at ht
    next heq => exact .inl ⟨heq, ht⟩
    next hne => exact .inr ⟨hne, ht⟩
  -- the request of a place was that of the thread before
  have hbefore : ∀ t p₁ q, ((s.next p answer).1.put thread (s.next p answer).2).place t = some p₁ →
      p₁.executing = some q → ∃ p₀, s.place t = some p₀ ∧ p₀.executing = some q := by
    intro t p₁ q ht hq
    obtain ⟨rfl, hnext⟩ | ⟨-, ht⟩ := hplace t p₁ ht
    · exact ⟨p, hp, RequestThreads.next_executing hnext hq⟩
    · exact ⟨p₁, ht, hq⟩
  constructor
  case taken =>
    intro t p₁ q ht hq
    obtain ⟨p₀, ht₀, hq₀⟩ := hbefore t p₁ q ht hq
    have hactive := hs.taken t p₀ q ht₀ hq₀
    show q.key ∈ (s.next p answer).1.active
    obtain hsame | ⟨q', hleaving, hnone, hfilter⟩ := RequestThreads.next_active s p answer
    · rw [hsame]
      exact hactive
    · rw [hfilter, List.mem_filter, bne_iff_ne]
      refine ⟨hactive, fun heq => ?_⟩
      obtain ⟨-, hnext⟩ | ⟨hne, -⟩ := hplace t p₁ ht
      · rw [hnone] at hnext
        cases hnext
      · exact hne (hs.alone t thread p₀ p q q' ht₀ hp hq₀ (by rw [hleaving]; rfl) heq)
  case alone =>
    intro t u p₁ p₂ q q' ht hu hq hq' heq
    obtain ⟨p₀, ht₀, hq₀⟩ := hbefore t p₁ q ht hq
    obtain ⟨p₀', hu₀, hq₀'⟩ := hbefore u p₂ q' hu hq'
    exact hs.alone t u p₀ p₀' q q' ht₀ hu₀ hq₀ hq₀' heq
  case opened =>
    intro t p₁ q ht hq
    obtain ⟨rfl, hnext⟩ | ⟨hne, ht⟩ := hplace t p₁ ht
    · exact RequestThreads.next_opened hnext hq (hs.opened t p q hp)
    · show (s.next p answer).1.store.answered q.key = none
      rw [← hs.opened t p₁ q ht hq]
      by_cases hanswer : answer = .broken
      · rw [hanswer]
        exact broken_answered q.key
      · refine RequestThreads.next_answered fun q₀ hw => ?_
        exact writes_apart hs hp hclose hanswer hw ht hne (executing_of_opened hq)

end Step

theorem ledgerInv_step {s s' : RequestThreads} {a : RequestAct} (hs : LedgerInv s)
    (ha : s.step a = some s') (hclose : ClosesAlone s a s') : LedgerInv s' := by
  cases a with
  | call thread q =>
    simp only [RequestThreads.step] at ha
    split at ha
    next => cases ha
    next hfree =>
      split at ha
      next =>
        cases ha
        exact hs
      next hnew =>
        cases ha
        have hplace : ∀ t p q', (Function.update s.place thread (some (.beginning q))) t = some p →
            p.executing = some q' → (t = thread ∧ q' = q) ∨ (t ≠ thread ∧ s.place t = some p) := by
          intro t p q' ht hq'
          rw [Function.update_apply] at ht
          split at ht
          next heq =>
            cases ht
            cases hq'
            exact .inl ⟨heq, rfl⟩
          next hne => exact .inr ⟨hne, ht⟩
        constructor
        case taken =>
          intro t p q' ht hq'
          obtain ⟨-, rfl⟩ | ⟨-, ht⟩ := hplace t p q' ht hq'
          · exact List.mem_cons_self
          · exact List.mem_cons_of_mem _ (hs.taken t p q' ht hq')
        case alone =>
          intro t u p p' q₁ q₂ ht hu hq₁ hq₂ heq
          obtain ⟨ht', hq₁'⟩ | ⟨-, ht'⟩ := hplace t p q₁ ht hq₁
          · obtain ⟨hu', -⟩ | ⟨-, hu'⟩ := hplace u p' q₂ hu hq₂
            · exact ht'.trans hu'.symm
            · rw [hq₁'] at heq
              exact absurd (heq ▸ hs.taken u p' q₂ hu' hq₂) hnew
          · obtain ⟨-, hq₂'⟩ | ⟨-, hu'⟩ := hplace u p' q₂ hu hq₂
            · rw [hq₂'] at heq
              exact absurd (heq ▸ hs.taken t p q₁ ht' hq₁) hnew
            · exact hs.alone t u p p' q₁ q₂ ht' hu' hq₁ hq₂ heq
        case opened =>
          intro t p q' ht hq'
          obtain ⟨rfl, rfl⟩ | ⟨-, ht⟩ := hplace t p q' ht (executing_of_opened hq')
          · simp only [RequestThreads.put, Function.update_self] at ht
            cases ht
            cases hq'
          · exact hs.opened t p q' ht hq'
  | sweep thread rows =>
    simp only [RequestThreads.step] at ha
    split at ha
    next hfree =>
      cases ha
      have hplace : ∀ t p q, (Function.update s.place thread (some (.recovering rows))) t = some p →
          p.executing = some q → s.place t = some p := by
        intro t p q ht hq
        rw [Function.update_apply] at ht
        split at ht
        next =>
          cases ht
          cases hq
        next => exact ht
      constructor
      case taken => exact fun t p q ht hq => hs.taken t p q (hplace t p q ht hq) hq
      case alone =>
        intro t u p p' q q' ht hu hq hq'
        exact hs.alone t u p p' q q' (hplace t p q ht hq) (hplace u p' q' hu hq') hq hq'
      case opened =>
        intro t p q ht hq
        exact hs.opened t p q (hplace t p q ht (executing_of_opened hq)) hq
    next => cases ha
  | go thread answer =>
    obtain ⟨p, hp, rfl⟩ := Option.map_eq_some_iff.mp ha
    exact ledgerInv_go hs hp hclose
  | other f =>
    cases ha
    exact ⟨hs.taken, hs.alone, hs.opened⟩
  | restart =>
    cases ha
    exact ledgerInv_idle s.store

/-- A step that closes alone keeps the law. -/
theorem ledgerLaw_step {s s' : RequestThreads} {a : RequestAct} (hs : LedgerInv s)
    (ha : s.step a = some s') (hclose : ClosesAlone s a s') : LedgerLaw s a s' := by
  constructor
  case refused =>
    rintro thread answer q rows rfl hanswer hp other p ho q' hq' heq
    simp only [ClosesAlone, hp, hanswer, false_or] at hclose
    exact hclose.1 (heq ▸ hs.taken other p q' ho hq')
  case kept =>
    intro key response hanswered
    cases a with
    | call thread q =>
      simp only [RequestThreads.step] at ha
      split at ha
      next => cases ha
      next => split at ha <;> cases ha <;> exact hanswered
    | sweep thread rows =>
      simp only [RequestThreads.step] at ha
      split at ha <;> cases ha
      exact hanswered
    | other f =>
      cases ha
      exact hanswered
    | restart =>
      cases ha
      exact hanswered
    | go thread answer =>
      obtain ⟨p, hp, rfl⟩ := Option.map_eq_some_iff.mp ha
      show (s.next p answer).1.store.answered key = some response
      rw [← hanswered]
      by_cases hanswer : answer = .broken
      · rw [hanswer]
        exact broken_answered key
      · -- the row that the statement writes has no response yet
        refine RequestThreads.next_answered fun q hw heq => ?_
        have hopen : s.store.answered q.key = none := by
          cases p with
          | closing r recorded rows =>
            cases hw
            simp only [ClosesAlone, hp, hanswer, false_or] at hclose
            exact answered_isRunning hclose.2
          | finishing r text => exact hs.opened thread _ q hp hw
          | failing r text => exact hs.opened thread _ q hp hw
          | beginning r => cases hw
          | body r => cases hw
          | leaving r => cases hw
          | recovering rows => cases hw
        rw [heq, hanswered] at hopen
        cases hopen

/-- **The ledger of abort requests keeps its responses**, and refuses no request that a thread
executes, in every run whose passes close a request alone. -/
theorem requestLedger_law (store : Store) (acts : List RequestAct)
    (h : Along RequestThreads.step ClosesAlone { store } acts) :
    Along RequestThreads.step LedgerLaw { store } acts :=
  h.imp (fun _ _ _ hs ha hclose => ledgerInv_step hs ha hclose)
    (fun _ _ _ hs ha hclose => ledgerLaw_step hs ha hclose) (ledgerInv_idle store)

def tokenRequest : SensitiveRequest where
  key := "abort-request:om_9"
  payload := "run-a|om_9"
  runKey := "run-a"
  confirm := false

/-- The RPC is cut off by a restart, and the next pass closes it. -/
def recoveredRun : List RequestAct :=
  [.call "rpc" tokenRequest, .go "rpc" (.response ""), .restart, .sweep "pass" [tokenRequest],
   .go "pass" (.response ""), .go "pass" (.response "")]

theorem recoveredRun_law : Along RequestThreads.step LedgerLaw { store := {} } recoveredRun :=
  requestLedger_law {} recoveredRun (by decide +kernel)

/-- The pass lists the request while the RPC executes it, and closes it after the RPC has. -/
def overlappingRun : List RequestAct :=
  [.call "rpc" tokenRequest, .go "rpc" (.response ""), .sweep "pass" [tokenRequest],
   .go "pass" (.response ""), .go "rpc" (.response "confirmation_required"),
   .go "rpc" (.response ""), .go "pass" (.response "")]

/-- The response with the token's terms is replaced by a refusal. -/
theorem overlappingRun_replaces :
    (steps RequestThreads.step { store := {} } (overlappingRun.take 6)).bind
        (·.store.answered tokenRequest.key) = some "confirmation_required" ∧
      (steps RequestThreads.step { store := {} } overlappingRun).bind
        (·.store.answered tokenRequest.key) = some "run-a|token_unavailable" ∧
      ¬ Along RequestThreads.step LedgerLaw { store := {} } overlappingRun := by
  refine ⟨by decide +kernel, by decide +kernel, fun h => ?_⟩
  have hkept : Along RequestThreads.step (fun s _ s' =>
      s.store.answered tokenRequest.key = some "confirmation_required" →
        s'.store.answered tokenRequest.key = some "confirmation_required")
      { store := {} } overlappingRun :=
    h.imp (I := fun _ => True) (fun _ _ _ _ _ _ => trivial)
      (fun _ _ _ _ _ hlaw => hlaw.kept _ _) trivial
  revert hkept
  decide +kernel

end HollysysController
