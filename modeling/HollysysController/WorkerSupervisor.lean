import HollysysController.CompletionFields
import HollysysController.Durable.Closure
import HollysysController.Processes
import HollysysController.SupervisorClient

/-! # The Supervisor of workers

The server that answers probes and terminates the processes of an attempt: it checks the request
against the board's database, finds the processes by their environment, freezes the tree, and
signals it until it is gone. -/

namespace HollysysController.WorkerSupervisor

open Durable
open Python (Text Value CodePoint codePoints)
open Supervisor (SupervisorObservation)

abbrev Server := Prog Op Op.Ret Error

def ask (o : Op) : Server o.Ret := Prog.op o

/-- The order in which a set gives its members out. -/
structure PidOrder where
  order : List Nat → List Nat
  perm : ∀ pids, (order pids).Perm pids

/-- What the server is made with. The graces are in milliseconds; `pidfd` says that the
interpreter has the functions for it. -/
structure Config where
  expectedUid : Nat
  termGrace : Nat
  killGrace : Nat
  pidfd : Bool
  isUuid : Text → Bool
  sets : PidOrder

/-- The identity of the worker that a request is about. -/
structure Identity where
  board : Text
  cardId : Text
  runId : Int
  workerPid : Int
  deriving DecidableEq

def Identity.expectedEnvironment (i : Identity) : List (Text × Text) :=
  [(codePoints "HERMES_KANBAN_BOARD", i.board), (codePoints "HERMES_KANBAN_TASK", i.cardId),
    (codePoints "HERMES_KANBAN_RUN_ID", codePoints (toString i.runId))]

/-- `environment.get(key)`. -/
def lookup (environment : List (Text × Text)) (key : Text) : Option Text :=
  (environment.find? fun entry => entry.1 = key).map (·.2)

/-- The environment names the attempt. -/
def Identity.names (i : Identity) (environment : List (Text × Text)) : Bool :=
  i.expectedEnvironment.all fun entry => lookup environment entry.1 = some entry.2

/-! ## Requests -/

def classed (cls : Char → Bool) : CodePoint → Bool
  | .char c => cls c
  | .surrogate _ => false

/-- `^(?:default|[a-z0-9][a-z0-9-]{0,62})$`. -/
def isBoard (t : Text) : Bool :=
  t = codePoints "default" ||
    (match t with
      | [] => false
      | c :: rest => classed lowerAlnum c && rest.length ≤ 62 &&
          rest.all (classed fun c => lowerAlnum c || c == '-'))

/-- `^[A-Za-z0-9_.:-]{1,160}$`. -/
def isCard (t : Text) : Bool :=
  1 ≤ t.length && t.length ≤ 160 && t.all (classed fun c => cardChar c || c == '.' || c == ':')

def fail {α : Type} (code : String) : Server α := .raise (.request code)

/-- The keys of a dictionary are these. -/
def hasKeys (entries : List (Text × Value)) (keys : List String) : Bool :=
  (entries.all fun entry => keys.any fun key => entry.1 = codePoints key) &&
    keys.all fun key => (Value.get entries key).isSome

def parseIdentity (params : List (Text × Value)) : Except Error Identity := do
  let board ← match Value.get params "board" with
    | some (.str board) => if isBoard board then .ok board else .error (.request "invalid_board")
    | _ => .error (.request "invalid_board")
  let cardId ← match Value.get params "card_id" with
    | some (.str card) => if isCard card then .ok card else .error (.request "invalid_card_id")
    | _ => .error (.request "invalid_card_id")
  let runId ← match Value.get params "run_id" with
    | some (.int n) => if 0 < n then .ok n else .error (.request "invalid_run_id")
    | _ => .error (.request "invalid_run_id")
  let workerPid ← match Value.get params "worker_pid" with
    | some (.int n) => if 1 < n then .ok n else .error (.request "invalid_worker_pid")
    | _ => .error (.request "invalid_worker_pid")
  return { board, cardId, runId, workerPid }

inductive Method where
  | probe | terminate
  deriving DecidableEq, Repr

/-- `method not in ALLOWED_METHODS`, which has no answer for a list or a dictionary. -/
def parseMethod : Option Value → Except Error Method
  | some (.str m) =>
    if m = codePoints "probe" then .ok .probe
    else if m = codePoints "terminate" then .ok .terminate
    else .error (.request "unknown_method")
  | some (.list _) => .error .uncaught
  | some (.dict _) => .error .uncaught
  | _ => .error (.request "unknown_method")

/-- The checks of the request itself. -/
def parseRequest (cfg : Config) (request : List (Text × Value)) :
    Except Error (Method × Identity) := do
  if ¬ hasKeys request ["v", "id", "method", "params"] then
    throw (.request "invalid_request_fields")
  match Value.get request "id" with
  | some (.str id) =>
    if ¬ Supervisor.Request.equalsOne (Value.get request "v") then
      throw (.request "invalid_request_version")
    if ¬ cfg.isUuid id then
      throw (.request "invalid_request_id")
    let method ← parseMethod (Value.get request "method")
    match Value.get request "params" with
    | some (.dict params) =>
      if ¬ hasKeys params ["board", "card_id", "run_id", "worker_pid"] then
        throw (.request "invalid_params")
      return (method, ← parseIdentity params)
    | _ => throw (.request "invalid_params")
  | _ => throw (.request "invalid_request_version")

/-! ## Reading processes -/

/-- The purpose is a note only. -/
def readProcess (pid : Nat) (purpose : Purpose := .look) : Server (Option ProcessIdentity) := do
  match ← (ask (.readStat pid purpose)).attempt with
  | .ok process => pure (some process)
  | .error .fileNotFound => pure none
  | .error .unparsable => fail "invalid_process_stat"
  | .error e => if e.isOs then fail "process_evidence_unavailable" else .raise e

/-- The process is still there, and it is the one that is expected. -/
def confirms (expected : ProcessIdentity) : Option ProcessIdentity → Bool
  | some current => !current.exited && current.startTicks == expected.startTicks
  | none => false

/-- `d[process.pid] = process`. -/
def put : List ProcessIdentity → ProcessIdentity → List ProcessIdentity
  | [], p => [p]
  | q :: rest, p => if q.pid = p.pid then p :: rest else q :: put rest p

/-- `pid in d`. -/
def hasPid (processes : List ProcessIdentity) (pid : Nat) : Bool :=
  processes.any fun p => p.pid == pid

/-- The process under a path of `/proc` with its environment, unless it is skipped. -/
def inspect (cfg : Config) (pid : Nat) :
    Server (Option (ProcessIdentity × List (Text × Text))) := do
  let uid : Nat ← ask (.ownerOf pid)
  if uid ≠ cfg.expectedUid then
    pure none
  else
    match ← readProcess pid with
    | none => pure none
    | some process =>
      if process.exited then
        pure none
      else
        let environment : List (Text × Text) ← ask (.readEnviron pid)
        pure (some (process, environment))

def matchProcess (cfg : Config) (i : Identity) (found : List ProcessIdentity) (pid : Nat) :
    Server (List ProcessIdentity) := do
  match ← (inspect cfg pid).attempt with
  | .ok (some (process, environment)) =>
    pure (if i.names environment then put found process else found)
  | .ok none => pure found
  | .error .fileNotFound => pure found
  | .error e => if e.isOs then fail "process_evidence_unavailable" else .raise e

def matchingAttemptProcesses (cfg : Config) (i : Identity) : Server (List ProcessIdentity) := do
  match ← (ask (.iterdir .attempt)).attempt with
  | .ok pids => List.foldlM (matchProcess cfg i) [] pids
  | .error e => if e.isOs then fail "process_evidence_unavailable" else .raise e

def readInto (processes : List ProcessIdentity) (pid : Nat) : Server (List ProcessIdentity) := do
  match ← readProcess pid with
  | some process => pure (if process.exited then processes else put processes process)
  | none => pure processes

/-- One pass of the loop: whoever has a selected parent is selected. -/
def select (processes : List ProcessIdentity) (selected : List Nat) : List Nat :=
  processes.foldl (fun selected p =>
    if p.parentPid ∈ selected ∧ p.pid ∉ selected then p.pid :: selected else selected) selected

/-- Passes until one changes nothing. Each pass but the last selects one more process, so that
there are enough of them. -/
def selectAll (processes : List ProcessIdentity) : Nat → List Nat → List Nat
  | 0, selected => selected
  | n + 1, selected =>
    if select processes selected = selected then selected
    else selectAll processes n (select processes selected)

/-- The selected processes of a snapshot. -/
def selectDescendants (cfg : Config) (processes : List ProcessIdentity) (roots : List Nat) :
    List ProcessIdentity :=
  (cfg.sets.order (selectAll processes (processes.length + 1) roots)).filterMap fun pid =>
    processes.find? fun p => p.pid = pid

def descendants (cfg : Config) (roots : List Nat) : Server (List ProcessIdentity) := do
  let pids : List Nat ← ask (.iterdir .tree)
  let processes ← pids.foldlM readInto []
  pure (selectDescendants cfg processes roots)

/-! ## Signals -/

/-- After a signal by pid: whether the pid was given to another process meanwhile, which is then
resumed. -/
def recheckSignalled (expected : ProcessIdentity) (sig : Signal) : Server Bool := do
  match ← readProcess expected.pid (.recheck sig) with
  | none => pure true
  | some after =>
    if after.startTicks ≠ expected.startTicks then
      if sig = .stop then
        match ← (ask (.kill after.pid .cont)).attempt with
        | .ok _ => fail "pid_reused_during_signal"
        | .error e => if e.isOs then fail "pid_reused_during_signal" else .raise e
      else
        fail "pid_reused_during_signal"
    else
      pure true

/-- For kernels without signals to pidfds. -/
def signalProcessByStartTicks (expected : ProcessIdentity) (sig : Signal) : Server Bool := do
  let current ← readProcess expected.pid (.check sig)
  if ¬ confirms expected current then
    pure false
  else
    match ← (ask (.kill expected.pid sig)).attempt with
    | .error .processLookup => pure false
    | .error e => .raise e
    | .ok _ => recheckSignalled expected sig

def signalProcess (cfg : Config) (expected : ProcessIdentity) (sig : Signal) : Server Bool := do
  if ¬ cfg.pidfd then
    signalProcessByStartTicks expected sig
  else
    match ← (ask (.pidfdOpen expected.pid sig)).attempt with
    | .error .processLookup => pure false
    | .error .unsupported => signalProcessByStartTicks expected sig
    | .error e => .raise e
    | .ok descriptor =>
      let current ← readProcess expected.pid (.check sig)
      if ¬ confirms expected current then
        pure false
      else
        match ← (ask (.pidfdSend descriptor sig)).attempt with
        | .ok _ => pure true
        | .error .unsupported => signalProcessByStartTicks expected sig
        | .error e => .raise e

def resumeProcess (cfg : Config) (process : ProcessIdentity) : Server Unit := do
  match ← (signalProcess cfg process .cont).attempt with
  | .ok _ => pure ()
  | .error (.request _) => pure ()
  | .error e => if e.isOs then pure () else .raise e

def resumeTree (cfg : Config) (processes : List ProcessIdentity) : Server Unit :=
  processes.forM (resumeProcess cfg)

def signalOne (cfg : Config) (sig : Signal) (process : ProcessIdentity) : Server Unit := do
  match ← (signalProcess cfg process sig).attempt with
  | .ok _ => pure ()
  | .error .processLookup => pure ()
  | .error e => if e.isOs then fail "process_tree_signal_failed" else .raise e

/-- In the order of falling pids. -/
def signalTree (cfg : Config) (processes : List ProcessIdentity) (sig : Signal) : Server Unit :=
  (processes.insertionSort fun p q => q.pid ≤ p.pid).forM (signalOne cfg sig)

/-! ## Freezing -/

/-- The initial process, when it is still there. -/
def reseed (seeds : List ProcessIdentity) (expected : ProcessIdentity) :
    Server (List ProcessIdentity) := do
  let current ← readProcess expected.pid
  pure (match current with
    | some p => if confirms expected (some p) then put seeds p else seeds
    | none => seeds)

def freezeProcess (cfg : Config) (frozen : List ProcessIdentity) (process : ProcessIdentity) :
    Server Unit := do
  match ← (signalProcess cfg process .stop).attempt with
  | .ok _ => pure ()
  | .error .processLookup => pure ()
  | .error .fileNotFound => pure ()
  | .error e =>
    if e.isOs then
      resumeTree cfg frozen
      fail "process_tree_signal_failed"
    else
      .raise e

/-- The processes of one round of the loop. -/
def findTree (cfg : Config) (i : Identity) (initial : List ProcessIdentity) :
    Server (List ProcessIdentity) := do
  let seeds ← initial.foldlM reseed []
  let found ← matchingAttemptProcesses cfg i
  descendants cfg ((found.foldl put seeds).map (·.pid))

def freezeRounds (cfg : Config) (i : Identity) (initial : List ProcessIdentity) :
    Nat → List ProcessIdentity → Server (List ProcessIdentity)
  | 0, frozen => do
    resumeTree cfg frozen
    fail "process_tree_unstable"
  | n + 1, frozen => do
    let current ← findTree cfg i initial
    let fresh := current.filter fun p => !hasPid frozen p.pid
    fresh.forM (freezeProcess cfg frozen)
    if fresh = [] then
      pure frozen
    else
      freezeRounds cfg i initial n (fresh.foldl put frozen)

def freezeTree (cfg : Config) (i : Identity) (initial : List ProcessIdentity) :
    Server (List ProcessIdentity) :=
  freezeRounds cfg i initial 8 []

/-! ## Termination -/

def stillThere (left : List ProcessIdentity) (expected : ProcessIdentity) :
    Server (List ProcessIdentity) := do
  let current ← readProcess expected.pid
  pure (match current with
    | some p => if confirms expected (some p) then put left p else left
    | none => left)

def remaining (processes : List ProcessIdentity) : Server (List ProcessIdentity) :=
  processes.foldlM stillThere []

/-- The time between two looks, in milliseconds. -/
def pollInterval : Nat := 50

/-- Looks until nobody is left or the deadline passes. Each look takes the interval, so that the
rounds last to the deadline. -/
def waitRounds (deadline : Nat) : Nat → List ProcessIdentity → Server (List ProcessIdentity)
  | 0, left => pure left
  | n + 1, left =>
    if left = [] then
      pure left
    else do
      let now : Nat ← ask .monotonic
      if now < deadline then
        let _ ← ask (.sleep pollInterval)
        let left ← remaining left
        waitRounds deadline n left
      else
        pure left

def waitForExit (processes : List ProcessIdentity) (timeout : Nat) :
    Server (List ProcessIdentity) := do
  let now : Nat ← ask .monotonic
  let left ← remaining processes
  waitRounds (now + timeout) (timeout / pollInterval + 2) left

def startTicks (process : Option ProcessIdentity) : Option Int :=
  process.map fun p => (p.startTicks : Int)

def exited (i : Identity) (process : Option ProcessIdentity) (observedAt : Nat) :
    SupervisorObservation where
  state := .exited
  observedAt := observedAt
  workerPid := i.workerPid
  processStartTicks := startTicks process

/-- The second round, with the signal that no process handles. -/
def killRemaining (cfg : Config) (left : List ProcessIdentity) :
    Server (List ProcessIdentity) :=
  if left = [] then
    pure left
  else do
    signalTree cfg left .kill
    waitForExit left cfg.killGrace

def terminate (cfg : Config) (i : Identity) (root : Option ProcessIdentity)
    (attemptProcesses : List ProcessIdentity) : Server SupervisorObservation := do
  let processes ← freezeTree cfg i attemptProcesses
  if processes = [] then
    let observedAt : Nat ← ask .time
    pure (exited i root observedAt)
  else
    signalTree cfg processes .term
    resumeTree cfg processes
    let left ← waitForExit processes cfg.termGrace
    let usedSigkill := !left.isEmpty
    let left ← killRemaining cfg left
    if left ≠ [] then
      fail "termination_failed"
    else
      let observedAt : Nat ← ask .time
      pure
        { state := .terminated
          observedAt := observedAt
          workerPid := i.workerPid
          processStartTicks := startTicks root
          signal := some (codePoints (if usedSigkill then "SIGKILL" else "SIGTERM"))
          sigkill := usedSigkill
          processCount := processes.length }

/-- The owner and the environment of the worker. -/
def evidence (pid : Nat) : Server (Nat × List (Text × Text)) := do
  let uid : Nat ← ask (.ownerOf pid)
  let environment : List (Text × Text) ← ask (.readEnviron pid)
  pure (uid, environment)

/-- The row is the running task of the attempt. -/
def TaskRow.belongs (i : Identity) (row : TaskRow) : Bool :=
  row.createdBy = codePoints "hollysys-controller" && row.status = codePoints "running" &&
    row.currentRunId = some i.runId && row.workerPid = some i.workerPid

def validateIdentity (cfg : Config) (i : Identity) : Server (Option ProcessIdentity) := do
  let isFile : Bool ← ask (.isFile i.board)
  if ¬ isFile then
    fail "board_missing"
  else
    match ← (ask (.task i.board i.cardId)).attempt with
    | .error .database => fail "board_unavailable"
    | .error e => .raise e
    | .ok none => fail "task_missing"
    | .ok (some row) =>
      if ¬ row.belongs i then
        fail "identity_mismatch"
      else
        let process ← readProcess i.workerPid.toNat
        if process.all (·.exited) then
          pure process
        else
          match ← (evidence i.workerPid.toNat).attempt with
          | .error e => if e.isOs then fail "process_evidence_unavailable" else .raise e
          | .ok (uid, environment) =>
            if uid ≠ cfg.expectedUid ∨ ¬ i.names environment then
              fail "process_identity_mismatch"
            else
              pure process

def handleRequest (cfg : Config) (request : List (Text × Value)) :
    Server SupervisorObservation := do
  match parseRequest cfg request with
  | .error e => .raise e
  | .ok (method, i) =>
    let process ← validateIdentity cfg i
    let attemptProcesses ← matchingAttemptProcesses cfg i
    let observedAt : Nat ← ask .time
    if attemptProcesses = [] then
      pure (exited i process observedAt)
    else
      match method with
      | .probe =>
        pure
          { state := .running
            observedAt := observedAt
            workerPid := i.workerPid
            processStartTicks := startTicks process
            processCount := attemptProcesses.length }
      | .terminate => terminate cfg i process attemptProcesses

/-! ## Dictionaries -/

theorem put_mem (l : List ProcessIdentity) (p : ProcessIdentity) : p ∈ put l p := by
  induction l with
  | nil => exact List.mem_singleton_self p
  | cons q l ih =>
    unfold put
    split
    · exact List.mem_cons_self
    · exact List.mem_cons_of_mem _ ih

theorem mem_put_of {l : List ProcessIdentity} {p q : ProcessIdentity} (h : q ∈ l)
    (hne : q.pid ≠ p.pid) : q ∈ put l p := by
  induction l with
  | nil => cases h
  | cons x l ih =>
    unfold put
    rcases List.mem_cons.mp h with rfl | h
    · rw [if_neg hne]
      exact List.mem_cons_self
    · split
      · exact List.mem_cons_of_mem _ h
      · exact List.mem_cons_of_mem _ (ih h)

theorem of_mem_put {l : List ProcessIdentity} {p q : ProcessIdentity} (h : q ∈ put l p) :
    q = p ∨ q ∈ l := by
  induction l with
  | nil => exact .inl (List.mem_singleton.mp h)
  | cons x l ih =>
    unfold put at h
    split at h
    · exact (List.mem_cons.mp h).imp id (List.mem_cons_of_mem _)
    · rcases List.mem_cons.mp h with rfl | h
      · exact .inr List.mem_cons_self
      · exact (ih h).imp id (List.mem_cons_of_mem _)

theorem of_mem_puts {l ps : List ProcessIdentity} {q : ProcessIdentity}
    (h : q ∈ ps.foldl put l) : q ∈ ps ∨ q ∈ l := by
  induction ps generalizing l with
  | nil => exact .inr h
  | cons p ps ih =>
    rcases ih h with h | h
    · exact .inl (List.mem_cons_of_mem _ h)
    · rcases of_mem_put h with rfl | h
      · exact .inl List.mem_cons_self
      · exact .inr h

/-- A pid stays a key. -/
theorem hasPid_put {l : List ProcessIdentity} {pid : Nat} (h : ∃ q ∈ l, q.pid = pid)
    (p : ProcessIdentity) : ∃ q ∈ put l p, q.pid = pid := by
  obtain ⟨q, hq, hpid⟩ := h
  by_cases hp : q.pid = p.pid
  · exact ⟨p, put_mem l p, hp ▸ hpid⟩
  · exact ⟨q, mem_put_of hq hp, hpid⟩

theorem hasPid_puts {l : List ProcessIdentity} {pid : Nat} (ps : List ProcessIdentity)
    (h : (∃ q ∈ l, q.pid = pid) ∨ ∃ q ∈ ps, q.pid = pid) :
    ∃ q ∈ ps.foldl put l, q.pid = pid := by
  induction ps generalizing l with
  | nil => simpa using h
  | cons p ps ih =>
    refine ih ?_
    rcases h with h | ⟨q, hq, hpid⟩
    · exact .inl (hasPid_put h p)
    · rcases List.mem_cons.mp hq with rfl | hq
      · exact .inl ⟨q, put_mem l q, hpid⟩
      · exact .inr ⟨q, hq, hpid⟩

/-! ## What a program uses -/

/-- A look at a process. -/
def Op.Looks (pid : Nat) : Op → Prop
  | .readStat pid' _ | .ownerOf pid' | .readEnviron pid' => pid' = pid
  | _ => False

/-- An operation of a signal to the process that was read under the pid. When the pid turns out
to be another's, that process may be resumed. -/
def Op.Signals (pid : Nat) (sig : Signal) : Op → Prop
  | .readStat pid' _ => pid' = pid
  | .pidfdOpen pid' sig' => pid' = pid ∧ sig' = sig
  | .pidfdSend _ sig' => sig' = sig
  | .kill _ sig' => sig' = sig ∨ sig' = .cont
  | _ => False

theorem Op.Looks.plain {pid : Nat} {o : Op} (h : o.Looks pid) : o.Plain := by
  rintro rfl
  exact h

theorem Op.Signals.plain {pid : Nat} {sig : Signal} {o : Op} (h : o.Signals pid sig) :
    o.Plain := by
  rintro rfl
  exact h

theorem uses_ask {φ : Op → Prop} {o : Op} (h : φ o) : (ask o).Uses φ := Prog.uses_op h

theorem uses_readProcess {φ : Op → Prop} {pid : Nat} {purpose : Purpose}
    (h : φ (.readStat pid purpose)) : (readProcess pid purpose).Uses φ := by
  refine (Prog.Uses.attempt (uses_ask h)).bind fun r => ?_
  split
  · trivial
  · trivial
  · trivial
  · split <;> trivial

theorem uses_inspect (cfg : Config) (pid : Nat) : (inspect cfg pid).Uses (Op.Looks pid) := by
  have hread : (readProcess pid).Uses (Op.Looks pid) := uses_readProcess rfl
  have howner : (ask (.ownerOf pid)).Uses (Op.Looks pid) := uses_ask rfl
  have henviron : (ask (.readEnviron pid)).Uses (Op.Looks pid) := uses_ask rfl
  refine howner.bind fun uid => ?_
  split
  · trivial
  · refine hread.bind fun r => ?_
    split
    · trivial
    · split
      · trivial
      · exact henviron.bind fun _ => trivial

theorem uses_readInto (ps : List ProcessIdentity) (pid : Nat) :
    (readInto ps pid).Uses (Op.Looks pid) := by
  have hread : (readProcess pid).Uses (Op.Looks pid) := uses_readProcess rfl
  refine hread.bind fun r => ?_
  cases r <;> trivial

theorem uses_foldlM_readInto (pids : List Nat) (ps : List ProcessIdentity) :
    (List.foldlM readInto ps pids).Uses Op.Plain :=
  .foldlM (fun ps pid => (uses_readInto ps pid).mono fun _ => Op.Looks.plain) pids ps

theorem uses_recheckSignalled (p : ProcessIdentity) (sig : Signal) :
    (recheckSignalled p sig).Uses (Op.Signals p.pid sig) := by
  have hread : (readProcess p.pid (.recheck sig)).Uses (Op.Signals p.pid sig) :=
    uses_readProcess rfl
  have hresume : ∀ pid, (ask (.kill pid .cont)).Uses (Op.Signals p.pid sig) :=
    fun _ => uses_ask (.inr rfl)
  refine hread.bind fun r => ?_
  split
  · trivial
  · split
    · split
      · refine (hresume _).attempt.bind fun r => ?_
        split
        · trivial
        · split <;> trivial
      · trivial
    · trivial

theorem uses_signalProcessByStartTicks (p : ProcessIdentity) (sig : Signal) :
    (signalProcessByStartTicks p sig).Uses (Op.Signals p.pid sig) := by
  have hread : (readProcess p.pid (.check sig)).Uses (Op.Signals p.pid sig) := uses_readProcess rfl
  have hkill : (ask (.kill p.pid sig)).Uses (Op.Signals p.pid sig) := uses_ask (.inl rfl)
  refine hread.bind fun r => ?_
  split
  · trivial
  · refine hkill.attempt.bind fun r => ?_
    split
    · trivial
    · trivial
    · exact uses_recheckSignalled p sig

theorem uses_signalProcess (cfg : Config) (p : ProcessIdentity) (sig : Signal) :
    (signalProcess cfg p sig).Uses (Op.Signals p.pid sig) := by
  have hread : (readProcess p.pid (.check sig)).Uses (Op.Signals p.pid sig) := uses_readProcess rfl
  have hopen : (ask (.pidfdOpen p.pid sig)).Uses (Op.Signals p.pid sig) := uses_ask ⟨rfl, rfl⟩
  have hsend : ∀ b, (ask (.pidfdSend b sig)).Uses (Op.Signals p.pid sig) := fun _ => uses_ask rfl
  unfold signalProcess
  split
  · exact uses_signalProcessByStartTicks p sig
  · refine hopen.attempt.bind fun r => ?_
    split
    · trivial
    · exact uses_signalProcessByStartTicks p sig
    · trivial
    · refine hread.bind fun r => ?_
      split
      · trivial
      · refine (hsend _).attempt.bind fun r => ?_
        split
        · trivial
        · exact uses_signalProcessByStartTicks p sig
        · trivial

theorem uses_resumeProcess (cfg : Config) (p : ProcessIdentity) :
    (resumeProcess cfg p).Uses (Op.Signals p.pid .cont) := by
  refine (uses_signalProcess cfg p .cont).attempt.bind fun r => ?_
  split
  · trivial
  · trivial
  · split <;> trivial

theorem uses_signalOne (cfg : Config) (sig : Signal) (p : ProcessIdentity) :
    (signalOne cfg sig p).Uses (Op.Signals p.pid sig) := by
  refine (uses_signalProcess cfg p sig).attempt.bind fun r => ?_
  split
  · trivial
  · trivial
  · split <;> trivial

theorem uses_forM {φ : Op → Prop} {α : Type} {f : α → Server Unit} (hf : ∀ a, (f a).Uses φ)
    (l : List α) : (l.forM f).Uses φ :=
  (closed_uses φ).forM hf l

theorem uses_resumeTree (cfg : Config) (ps : List ProcessIdentity) :
    (resumeTree cfg ps).Uses fun o => ∃ pid, o.Signals pid .cont :=
  uses_forM (fun p => (uses_resumeProcess cfg p).mono fun _ h => ⟨p.pid, h⟩) ps

theorem uses_signalTree (cfg : Config) (ps : List ProcessIdentity) (sig : Signal) :
    (signalTree cfg ps sig).Uses fun o => ∃ pid, o.Signals pid sig :=
  uses_forM (fun p => (uses_signalOne cfg sig p).mono fun _ h => ⟨p.pid, h⟩) _

theorem plain_resumeTree (cfg : Config) (ps : List ProcessIdentity) :
    (resumeTree cfg ps).Uses Op.Plain :=
  (uses_resumeTree cfg ps).mono fun _ ⟨_, h⟩ => h.plain

theorem plain_signalTree (cfg : Config) (ps : List ProcessIdentity) (sig : Signal) :
    (signalTree cfg ps sig).Uses Op.Plain :=
  (uses_signalTree cfg ps sig).mono fun _ ⟨_, h⟩ => h.plain

theorem uses_freezeProcess (cfg : Config) (frozen : List ProcessIdentity) (p : ProcessIdentity) :
    (freezeProcess cfg frozen p).Uses Op.Plain := by
  refine (uses_signalProcess cfg p .stop).attempt.mono (fun _ => Op.Signals.plain) |>.bind
    fun r => ?_
  split
  · trivial
  · trivial
  · trivial
  · split
    · exact (plain_resumeTree cfg frozen).bind fun _ => trivial
    · trivial

end HollysysController.WorkerSupervisor
