import HollysysController.Columns
import HollysysController.Recover
import HollysysController.Start

/-! # Aborting a run on request

A human asks for the abort of a run, gets a token, and confirms with it. The
confirmed run is taken up by the abort reconciler. -/

namespace HollysysController

open Durable

/-! ## The request -/

/-- `AbortRequest`. -/
structure AbortRequest where
  runKey : String
  messageId : String
  sender : String
  chatId : String
  threadId : Option String := none
  reason : String
  deriving DecidableEq, Repr

def AbortRequest.key (r : AbortRequest) : String := s!"abort-request:{r.messageId}"

def AbortRequest.payload (r : AbortRequest) : String :=
  let thread := r.threadId.getD ""
  s!"{r.runKey}|{r.messageId}|{r.sender}|{r.chatId}|{thread}|{r.reason}"

/-- The response to an abort request. -/
structure AbortRequested where
  requestId : String
  runKey : String
  expiresAt : Nat
  reason : String
  confirmationToken : String
  activeCards : List CardId
  deriving DecidableEq, Repr

/-- The response as it is stored: the token is left out. -/
def AbortRequested.persisted (a : AbortRequested) : String :=
  let cards := String.intercalate "," (a.activeCards.map (·.text))
  s!"{a.requestId}|{a.runKey}|{a.expiresAt}|{a.reason}|{cards}|confirmation_required"

/-- What the requester gets: a repeated request has no token to give. -/
inductive AbortAnswer where
  | requested (a : AbortRequested)
  | tokenUnavailable (previous : String)
  deriving DecidableEq, Repr

/-- Who may abort a run, and where. -/
def authorizeAbort (cfg : Config) (r : AbortRequest) (run : RunRecord) :
    Except ControllerError Unit :=
  if r.sender ≠ run.origin.initiatorOpenId ∧ r.sender ∉ cfg.abortAdminOpenIds then
    .error (.permissionError
      "only the run initiator or configured abort administrator may abort this run")
  else if r.chatId ≠ run.origin.chatId ∨ threadOf r.threadId ≠ threadOf run.origin.threadId then
    .error (.permissionError "abort must be requested in the original run chat/thread")
  else .ok ()

/-- The run is over, or its abort is under way. -/
def RunState.isAborted (s : RunState) : Bool :=
  s.isTerminal || s == .abortRequested || s == .aborting

def refuseAborted : Option RunControl → Except ControllerError Unit
  | some control => if control.state.isAborted then
      .error (.valueError s!"run is already {control.state.value}") else .ok ()
  | none => .ok ()

def AbortRequest.row (cfg : Config) (token : String) (now : Nat) (r : AbortRequest) : AbortRow where
  requestId := r.key
  runKey := r.runKey
  tokenHash := cfg.sha256 token
  sender := r.sender
  chatId := r.chatId
  threadId := r.threadId
  reason := r.reason
  expiresAt := now + cfg.abortConfirmationTtlSeconds

def abortRequested (token : String) (row : AbortRow) (items : List HistoryItem) :
    AbortRequested where
  requestId := row.requestId
  runKey := row.runKey
  expiresAt := row.expiresAt
  reason := row.reason
  confirmationToken := token
  activeCards := (items.filter (·.task.status.isActive)).map (·.task.id)

/-- The body of `abort_request`, with the token drawn for it. -/
def abortRequestOnce (cfg : Config) (token : String) (r : AbortRequest) :
    Service AbortRequested := do
  let (_, run) ← history r.runKey
  fromExcept (authorizeAbort cfg r run)
  let control ← store (.runControl r.runKey)
  fromExcept (refuseAborted control)
  let now ← host .now
  let row := r.row cfg token now
  store (.ensureRunControl r.runKey)
  store (.createAbortRequest row)
  let (items, _) ← history r.runKey
  let answer := abortRequested token row items
  store (.finishRequest r.key answer.persisted)
  pure answer

/-- What `abort_request` does with an error. -/
def settleAbortRequest (cfg : Config) (r : AbortRequest) (e : ControllerError) :
    Service AbortAnswer := do
  match e with
  | .dependency .contract text _ => store (.failRequest r.key text)
  | .dependency kind text c => recordRequestDependencyError cfg r.runKey kind text c
  | _ => store (.failRequest r.key e.text)
  raise e

/-- `abort_request`. -/
def abortRequest (cfg : Config) (token : String) (r : AbortRequest) : Service AbortAnswer := do
  match ← store (.beginRequest r.key r.payload) with
  | some previous => pure (.tokenUnavailable previous)
  | none =>
    match ← (abortRequestOnce cfg token r).attempt with
    | .ok answer => pure (.requested answer)
    | .error e => settleAbortRequest cfg r e

/-! ## The confirmation -/

/-- `AbortConfirmRequest`. -/
structure AbortConfirmRequest where
  runKey : String
  token : String
  messageId : String
  sender : String
  chatId : String
  threadId : Option String := none
  deriving DecidableEq, Repr

def AbortConfirmRequest.key (c : AbortConfirmRequest) : String := s!"abort-confirm:{c.messageId}"

def AbortConfirmRequest.payload (cfg : Config) (c : AbortConfirmRequest) : String :=
  let thread := c.threadId.getD ""
  s!"{c.runKey}|{c.messageId}|{c.sender}|{c.chatId}|{thread}|{cfg.sha256 c.token}"

def AbortConfirmRequest.confirmation (cfg : Config) (c : AbortConfirmRequest) :
    AbortConfirmation where
  runKey := c.runKey
  tokenHash := cfg.sha256 c.token
  sender := c.sender
  chatId := c.chatId
  threadId := c.threadId
  messageId := c.messageId

def abortConfirmed (runKey : String) (control : RunControl) : String :=
  let reason := control.abortReason.getD ""
  s!"{runKey}|{control.state.value}|{reason}|pending-reconcile"

/-- The body of `abort_confirm`. -/
def abortConfirmOnce (cfg : Config) (c : AbortConfirmRequest) : Service String := do
  let control ← store (.confirmAbortRequest (c.confirmation cfg))
  let response := abortConfirmed c.runKey control
  store (.finishRequest c.key response)
  pure response

/-- `abort_confirm`. -/
def abortConfirm (cfg : Config) (c : AbortConfirmRequest) : Service String := do
  match ← store (.beginRequest c.key (c.payload cfg)) with
  | some previous => pure previous
  | none =>
    match ← (abortConfirmOnce cfg c).attempt with
    | .ok response => pure response
    | .error e => do
      store (.failRequest c.key e.text)
      raise e

/-! ## Reading the history

The history depends on the managed cards and the Hermes tasks only. -/

def historyOp : Op → Prop
  | .store (.cardsForRun _) | .hermes (.task _ _) => True
  | _ => False

theorem history_uses (runKey : String) : (history runKey).Uses historyOp := by
  have hitems : ∀ cards, (readItems cards).Uses historyOp := by
    intro cards
    induction cards with
    | nil => trivial
    | cons c cs ih =>
      refine (Prog.uses_op trivial).bind fun task => ?_
      cases task with
      | none => trivial
      | some task => exact ih.bind fun _ => trivial
  refine (Prog.uses_op trivial).bind fun cards => ?_
  split
  · trivial
  · refine (hitems cards).bind fun items => ?_
    unfold fromExcept
    split
    · trivial
    · trivial

theorem history_same {s t : World} (hcards : t.store.managedCards = s.store.managedCards)
    (hhermes : t.hermes = s.hermes) (runKey : String) :
    ∃ r, machine.eval (history runKey) s = (r, s) ∧ machine.eval (history runKey) t = (r, t) := by
  refine machine.eval_reads
    (R := fun s t : World => t.store.managedCards = s.store.managedCards ∧ t.hermes = s.hermes)
    (fun o s t ho hst => ?_) (history_uses runKey) ⟨hcards, hhermes⟩
  cases o with
  | store o =>
    cases o <;> cases ho
    refine ⟨rfl, rfl, ?_⟩
    simp only [machine, Op.exec, StoreOp.exec, Store.cardsForRun, hst.1]
  | hermes o =>
    cases o <;> cases ho
    refine ⟨rfl, rfl, ?_⟩
    simp only [machine, Op.exec, HermesOp.exec, hst.2]
  | gitlab o => cases ho
  | host o => cases ho

/-! ## The two transactions -/

/-- A created request is the pending one of its run. -/
theorem createAbortRequest_pending {row : AbortRow} {now : Nat} {s s' : Store} {u : Unit}
    (h : createAbortRequest row now s = .ok (u, s')) (hrow : row.status = .pending) :
    s'.pendingAbort row.runKey = some { row with createdAt := now } := by
  unfold createAbortRequest at h
  split at h
  · cases h
  · split at h
    · cases h
    · split at h
      · cases h
      · cases h
        have hold : (s.abortRequests.map fun r => if r.runKey = row.runKey ∧ r.status = .pending
            then { r with status := .expired } else r).filter
              (fun r => r.runKey == row.runKey && r.status == .pending) = [] := by
          refine List.filter_eq_nil_iff.mpr fun r hr => ?_
          obtain ⟨r₀, -, rfl⟩ := List.mem_map.mp hr
          split
          · simp
          · next hne => simpa using hne
        simp [Store.pendingAbort, List.filter_append, hold, hrow]

theorem createAbortRequest_requires {row : AbortRow} {now : Nat} {s s' : Store} {u : Unit}
    {control : RunControl} (h : createAbortRequest row now s = .ok (u, s'))
    (hc : s.runControl row.runKey = some control) : control.state ∈ abortableStates := by
  simp only [createAbortRequest, hc] at h
  by_contra hs
  rw [if_pos hs] at h
  cases h

theorem createAbortRequest_ok (row : AbortRow) (now : Nat) {s : Store} {control : RunControl}
    (hc : s.runControl row.runKey = some control)
    (hid : ∀ r ∈ s.abortRequests, r.requestId ≠ row.requestId) :
    (∃ s', createAbortRequest row now s = .ok ((), s')) ↔ control.state ∈ abortableStates := by
  have hnew : ¬ s.abortRequests.any (·.requestId == row.requestId) = true := by
    simpa using hid
  simp only [createAbortRequest, hc, hnew]
  by_cases hs : control.state ∈ abortableStates
  · simp [hs]
  · simp [hs]

theorem confirmAbortRequest_ok {c : AbortConfirmation} {now : Nat} {s : Store} {row : AbortRow}
    {control : RunControl} (hrow : s.pendingAbort c.runKey = some row)
    (hc : s.runControl c.runKey = some control) (hnow : now ≤ row.expiresAt)
    (hm : c.matchesRequest row = true) (hs : control.state ∈ abortableStates) :
    ∃ updated s', confirmAbortRequest c now s = (.ok updated, s') ∧
      s'.runControl c.runKey = some updated ∧ updated.state = .abortRequested := by
  have hstate : (control.abortConfirmed row c.sender now).state = .abortRequested := rfl
  simp only [confirmAbortRequest, confirmRequest, Txn.commit, hrow, hc, hm, hs, hstate,
    not_lt.mpr hnow, if_true, if_false, Bool.not_true, Bool.false_eq_true, Option.filter_some,
    beq_self_eq_true]
  exact ⟨_, _, rfl, by simp, hstate⟩

/-- A run that is not abortable, and not taken up for its abort, is not confirmed. -/
theorem confirmAbortRequest_refused (c : AbortConfirmation) (now : Nat) {s : Store}
    {control : RunControl} (hc : s.runControl c.runKey = some control)
    (hs : control.state ∉ abortableStates) (hne : control.state ≠ .abortRequested) :
    (∃ e, (confirmAbortRequest c now s).1 = .error e) ∧
      (confirmAbortRequest c now s).2.runControl = s.runControl := by
  rcases confirmRequest_cases c now s with ⟨e, he⟩ |
    ⟨row, read, s', -, hok, ⟨r, hr, hmem, -⟩ | ⟨-, rfl, hsame⟩⟩
  · exact ⟨⟨e, by simp [confirmAbortRequest, Txn.commit, he]⟩,
      by simp [confirmAbortRequest, Txn.commit, he]⟩
  · cases hc.symm.trans hr
    exact absurd hmem hs
  · have hfilter : (some control).filter (·.state == .abortRequested) = none := by
      rw [Option.filter_some, if_neg (by simpa using hne)]
    simp only [confirmAbortRequest, Txn.commit, hok, hc, hfilter]
    exact ⟨⟨_, rfl⟩, hsame⟩

/-! ## Request, then confirmation -/

/-- A new request of someone who may abort the run, which can be read. -/
structure AuthorizedAbort (cfg : Config) (r : AbortRequest) (w : World) : Prop where
  fresh : w.store.requests r.key = none
  unused : ∀ row ∈ w.store.abortRequests, row.requestId ≠ r.key
  authorized : ∃ items run, machine.eval (history r.runKey) w = (.returned (items, run), w) ∧
    authorizeAbort cfg r run = .ok ()

/-- The confirmation that matches the request. -/
structure Confirms (r : AbortRequest) (a : AbortRequested) (c : AbortConfirmRequest) : Prop where
  run : c.runKey = r.runKey
  token : c.token = a.confirmationToken
  sender : c.sender = r.sender
  chat : c.chatId = r.chatId
  thread : threadOf c.threadId = threadOf r.threadId

/-- Between the two messages neither the run nor its pending request was changed, and
the confirmation is a new message. -/
structure Undisturbed (r : AbortRequest) (c : AbortConfirmRequest) (w w' : World) : Prop where
  control : w'.store.runControl r.runKey = w.store.runControl r.runKey
  pending : w'.store.pendingAbort r.runKey = w.store.pendingAbort r.runKey
  fresh : w'.store.requests c.key = none

/-- The request is answered with a token, and the confirmation within its lifetime
takes the run to `abort_requested`. -/
def Abortable (cfg : Config) (token : String) (r : AbortRequest) (w : World) : Prop :=
  ∃ a w₁, machine.eval (abortRequest cfg token r) w = (.returned (.requested a), w₁) ∧
    ∀ c w₂, Confirms r a c → Undisturbed r c w₁ w₂ → w₂.now ≤ a.expiresAt →
      ∃ response w₃, machine.eval (abortConfirm cfg c) w₂ = (.returned response, w₃) ∧
        (w₃.store.runControl r.runKey).map (·.state) = some .abortRequested

section Abort

variable {cfg : Config} {token : String} {r : AbortRequest} {w w₁ : World} {control : RunControl}

theorem eval_fromExcept {α : Type} {e : Except ControllerError α} {a : α} {w w' : World} :
    machine.eval (fromExcept e) w = (.returned a, w') ↔ e = .ok a ∧ w = w' := by
  cases e <;> simp [fromExcept, raise]

theorem beginRequest_fresh {key payload : String} {s : Store} (h : s.requests key = none) :
    beginRequest key payload s = .ok (none, { s with requests := s.requests.put key { payload } }) := by
  simp only [beginRequest, h]

/-- The world once the request has begun. -/
def begun (key payload : String) (w : World) : World :=
  { w with store := { w.store with requests := w.store.requests.put key { payload } } }

/-- The world once the request is done. -/
def finished (key response : String) (w : World) : World :=
  { w with store := ((finishRequest key response).commit w.store).2 }

/-- A new request runs its body. -/
theorem eval_begun {key payload : String} {α : Type} {f : Option String → Service α}
    (h : w.store.requests key = none) :
    machine.eval ((store (.beginRequest key payload)).bind f) w =
      machine.eval (f none) (begun key payload w) := by
  rw [Machine.eval_bind, eval_store]
  simp only [StoreOp.exec, Txn.commit, beginRequest_fresh h]
  rfl

/-- What the store holds once the request is made. -/
structure Requested (cfg : Config) (token : String) (r : AbortRequest) (control : RunControl)
    (now : Nat) (s : Store) : Prop where
  control : s.runControl r.runKey = some control
  pending : s.pendingAbort r.runKey = some { r.row cfg token now with createdAt := now }

theorem abortRequestOnce_eval (hcards : w₁.store.managedCards = w.store.managedCards)
    (hhermes : w₁.hermes = w.hermes) (haborts : w₁.store.abortRequests = w.store.abortRequests)
    (hw : AuthorizedAbort cfg r w) (hc : w₁.store.runControl r.runKey = some control)
    (hs : control.state ∈ abortableStates) :
    ∃ a w₂, machine.eval (abortRequestOnce cfg token r) w₁ = (.returned a, w₂) ∧
      a.confirmationToken = token ∧ a.expiresAt = w₁.now + cfg.abortConfirmationTtlSeconds ∧
      Requested cfg token r control w₁.now w₂.store := by
  obtain ⟨items, run, hread, hauth⟩ := hw.authorized
  obtain ⟨out, hread', hread₁⟩ := history_same hcards hhermes r.runKey
  rw [hread] at hread'
  cases hread'
  have hlive : control.state.isAborted = false := by
    simp only [abortableStates, List.mem_cons, List.not_mem_nil, or_false] at hs
    rcases hs with h | h | h | h <;> rw [h] <;> rfl
  obtain ⟨s₂, hcreate⟩ := (createAbortRequest_ok (r.row cfg token w₁.now) w₁.now hc
    (haborts ▸ hw.unused)).mpr hs
  have hcreated : ∀ c, c ∉ [Column.aborts] → c.get s₂ = c.get w₁.store := fun c hcol => by
    have hget := StoreOp.exec_get (.createAbortRequest (r.row cfg token w₁.now)) w₁.now w₁.store hcol
    simp only [StoreOp.exec, Txn.commit, hcreate] at hget
    exact hget
  -- the second reading of the history finds the same cards
  obtain ⟨out, hread', hread₂⟩ := history_same (s := w) (t := { w₁ with store := s₂ })
    ((hcreated .cards (by simp)).trans hcards) hhermes r.runKey
  rw [hread] at hread'
  cases hread'
  let answer := abortRequested token (r.row cfg token w₁.now) items
  refine ⟨answer, finished r.key answer.persisted { w₁ with store := s₂ },
    machine.eval_bind_returned.mpr ⟨_, _, hread₁, ?_⟩, rfl, rfl, ?_⟩
  · refine machine.eval_bind_returned.mpr ⟨(), w₁, eval_fromExcept.mpr ⟨hauth, rfl⟩, ?_⟩
    refine machine.eval_bind_returned.mpr ⟨_, w₁, eval_readControl r.runKey w₁, ?_⟩
    refine machine.eval_bind_returned.mpr ⟨(), w₁, eval_fromExcept.mpr ⟨?_, rfl⟩, ?_⟩
    · simp [hc, refuseAborted, hlive]
    refine machine.eval_bind_returned.mpr ⟨w₁.now, w₁, by rw [eval_host]; rfl, ?_⟩
    refine machine.eval_bind_returned.mpr ⟨(), w₁, ?_, ?_⟩
    · rw [eval_store_returned]
      exact ⟨w₁.store, by simp [StoreOp.exec, Txn.commit, ensureRunControl, hc], rfl⟩
    refine machine.eval_bind_returned.mpr ⟨(), { w₁ with store := s₂ }, ?_, ?_⟩
    · rw [eval_store_returned]
      exact ⟨s₂, by simp [StoreOp.exec, Txn.commit, hcreate], rfl⟩
    refine machine.eval_bind_returned.mpr ⟨_, _, hread₂, ?_⟩
    refine machine.eval_bind_returned.mpr ⟨(), _, ?_, rfl⟩
    rw [eval_store_returned]
    exact ⟨_, rfl, rfl⟩
  · constructor
    · exact (congrFun (hcreated .control (by simp)) r.runKey).trans hc
    · exact createAbortRequest_pending hcreate rfl

theorem abortRequest_requested (hw : AuthorizedAbort cfg r w)
    (hc : w.store.runControl r.runKey = some control) (hs : control.state ∈ abortableStates) :
    ∃ a w₁, machine.eval (abortRequest cfg token r) w = (.returned (.requested a), w₁) ∧
      a.confirmationToken = token ∧ a.expiresAt = w.now + cfg.abortConfirmationTtlSeconds ∧
      Requested cfg token r control w.now w₁.store := by
  obtain ⟨a, w₁, heval, htoken, hexpires, hstore⟩ :=
    @abortRequestOnce_eval cfg token r w (begun r.key r.payload w) control rfl rfl rfl hw hc hs
  refine ⟨a, w₁, ?_, htoken, hexpires, hstore⟩
  refine (eval_begun hw.fresh).trans (machine.eval_bind_returned.mpr ⟨.ok a, w₁, ?_, rfl⟩)
  exact machine.eval_attempt_ok.mpr heval

theorem settleAbortRequest_raises {e : ControllerError} {a : AbortAnswer} :
    machine.eval (settleAbortRequest cfg r e) w ≠ (.returned a, w₁) := by
  intro h
  unfold settleAbortRequest at h
  split at h
  all_goals
    obtain ⟨_, _, -, hraise⟩ := machine.eval_bind_returned.mp h
    cases hraise

theorem abortRequestOnce_requires {a : AbortRequested}
    (hc : w.store.runControl r.runKey = some control)
    (h : machine.eval (abortRequestOnce cfg token r) w = (.returned a, w₁)) :
    control.state ∈ abortableStates := by
  obtain ⟨⟨items, run⟩, w₂, hread, h⟩ := machine.eval_bind_returned.mp h
  obtain ⟨out, hread', -⟩ := history_same (s := w) (t := w) rfl rfl r.runKey
  rw [hread] at hread'
  cases hread'
  obtain ⟨_, _, hauth, h⟩ := machine.eval_bind_returned.mp h
  obtain ⟨-, rfl⟩ := eval_fromExcept.mp hauth
  obtain ⟨c, _, hcontrol, h⟩ := machine.eval_bind_returned.mp h
  rw [eval_readControl] at hcontrol
  cases hcontrol
  obtain ⟨_, _, hlive, h⟩ := machine.eval_bind_returned.mp h
  obtain ⟨-, rfl⟩ := eval_fromExcept.mp hlive
  obtain ⟨now, _, hnow, h⟩ := machine.eval_bind_returned.mp h
  rw [eval_host] at hnow
  cases hnow
  obtain ⟨_, _, hensure, h⟩ := machine.eval_bind_returned.mp h
  obtain ⟨s₁, hensured, rfl⟩ := eval_store_returned.mp hensure
  obtain rfl : s₁ = w.store := by
    have hrun := Txn.commit_eq_ok.mp hensured
    simp only [ensureRunControl, hc, Except.ok.injEq, Prod.mk.injEq] at hrun
    exact hrun.2.symm
  obtain ⟨_, w₃, hcreate, -⟩ := machine.eval_bind_returned.mp h
  obtain ⟨s₂, hcreated, -⟩ := eval_store_returned.mp hcreate
  exact createAbortRequest_requires (Txn.commit_eq_ok.mp hcreated) hc

/-- A request that is answered with a token found the run in an abortable state. -/
theorem abortRequest_requires {a : AbortRequested} (hw : AuthorizedAbort cfg r w)
    (hc : w.store.runControl r.runKey = some control)
    (h : machine.eval (abortRequest cfg token r) w = (.returned (.requested a), w₁)) :
    control.state ∈ abortableStates := by
  have hrun := (eval_begun hw.fresh).symm.trans h
  obtain ⟨out, w₂, hattempt, hout⟩ := machine.eval_bind_returned.mp hrun
  cases out with
  | error e => exact absurd hout settleAbortRequest_raises
  | ok answer =>
    exact abortRequestOnce_requires (w := begun r.key r.payload w) hc
      (machine.eval_attempt_ok.mp hattempt)

theorem abortConfirm_confirms {a : AbortRequested} {c : AbortConfirmRequest} {now : Nat}
    {w₂ : World} (hreq : Requested cfg token r control now w₁.store)
    (hs : control.state ∈ abortableStates) (htoken : a.confirmationToken = token)
    (hc : Confirms r a c) (hu : Undisturbed r c w₁ w₂)
    (hnow : w₂.now ≤ now + cfg.abortConfirmationTtlSeconds) :
    ∃ response w₃, machine.eval (abortConfirm cfg c) w₂ = (.returned response, w₃) ∧
      (w₃.store.runControl r.runKey).map (·.state) = some .abortRequested := by
  let w₀ := begun c.key (c.payload cfg) w₂
  have hm : (c.confirmation cfg).matchesRequest { r.row cfg token now with createdAt := now } = true := by
    simp [AbortConfirmation.matchesRequest, AbortConfirmRequest.confirmation, AbortRequest.row,
      hc.token, htoken, hc.sender, hc.chat, hc.thread]
  have hpending : w₀.store.pendingAbort (c.confirmation cfg).runKey =
      some { r.row cfg token now with createdAt := now } := by
    rw [show (c.confirmation cfg).runKey = r.runKey from hc.run]
    exact hu.pending.trans hreq.pending
  have hcontrol : w₀.store.runControl (c.confirmation cfg).runKey = some control := by
    rw [show (c.confirmation cfg).runKey = r.runKey from hc.run]
    exact hu.control.trans hreq.control
  obtain ⟨updated, s₁, hconfirm, hput, hstate⟩ :=
    confirmAbortRequest_ok hpending hcontrol hnow hm hs
  let response := abortConfirmed c.runKey updated
  refine ⟨response, finished c.key response { w₀ with store := s₁ }, ?_, ?_⟩
  · refine (eval_begun hu.fresh).trans (machine.eval_bind_returned.mpr ⟨.ok response, _, ?_, rfl⟩)
    refine machine.eval_attempt_ok.mpr (machine.eval_bind_returned.mpr
      ⟨updated, { w₀ with store := s₁ }, ?_, ?_⟩)
    · exact eval_store_returned.mpr ⟨s₁, hconfirm, rfl⟩
    · refine machine.eval_bind_returned.mpr ⟨(), _, ?_, rfl⟩
      exact eval_store_returned.mpr ⟨_, rfl, rfl⟩
  · have hrun : s₁.runControl r.runKey = some updated := by
      rw [← hc.run]
      exact hput
    simp only [finished, finishRequest, Txn.commit, hrun, Option.map_some, hstate]

end Abort

/-! ## A run that waits for a human -/

/-- `AuthorizedAbort`, as a check that runs. -/
def authorizedAbort (cfg : Config) (r : AbortRequest) (w : World) : Bool :=
  (w.store.requests r.key).isNone && w.store.abortRequests.all (·.requestId != r.key) &&
    match (machine.eval (history r.runKey) w).1 with
    | .returned (_, run) => decide (authorizeAbort cfg r run = .ok ())
    | _ => false

theorem authorizedAbort_sound {cfg : Config} {r : AbortRequest} {w : World}
    (h : authorizedAbort cfg r w = true) : AuthorizedAbort cfg r w := by
  obtain ⟨out, hread, -⟩ := history_same (s := w) (t := w) rfl rfl r.runKey
  simp only [authorizedAbort, Bool.and_eq_true, Option.isNone_iff_eq_none, List.all_eq_true,
    bne_iff_ne, hread] at h
  obtain ⟨⟨hfresh, hunused⟩, hauth⟩ := h
  refine ⟨hfresh, hunused, ?_⟩
  split at hauth
  · next items run => exact ⟨items, run, hread, of_decide_eq_true hauth⟩
  · cases hauth

/-- The worker of the card ends its attempt with a block comment. -/
def blockedByWorker (board : String) (id : CardId) (body : String) (w : World) : World :=
  let ended (t : HermesTask) : HermesTask :=
    { t with
      status := .blocked
      comments := t.comments ++ [⟨"worker", body⟩]
      latestRun := some { id := 1, outcome := some "blocked" } }
  { w with
    hermes := (w.hermes.updateTask board id ended).appendEvent board id "blocked" w.now (some 1)
      none }

def credentialBlock : String :=
  "[human-block:v1]\nblock_id: hollysys-k1:t_2:1\nkind: credential\nsummary: s\nevidence: e\n" ++
    "required_action: a\nresume_check: r"

/-- The started run, and a pass over it after its worker asked for a credential. -/
def askedWorld : World := blockedByWorker "gitlab-p1" ⟨2⟩ credentialBlock wholeStart.after

def waitingWorld : World :=
  (machine.eval (reconcileWithPolicy sampleConfig "hollysys-k1") askedWorld).2

def sampleAbort : AbortRequest where
  runKey := "hollysys-k1"
  messageId := "om_10"
  sender := "ou_1"
  chatId := "oc_1"
  reason := "stop"

end HollysysController
