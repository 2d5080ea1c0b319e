import HollysysController.Durable.Ends
import HollysysController.Python.Values

/-! # The processes of a host

The process table as the Supervisor meets it: processes fork, exit, are reaped and give their
pids to others between any two of its reads and signals. A `Birth` is what a process is from its
birth on; two processes with one pid are two births. -/

namespace HollysysController.WorkerSupervisor

open Durable
open Python (Text)

inductive Mode where
  | running | stopped | zombie
  deriving DecidableEq, Repr

inductive Signal where
  | stop | cont | term | kill
  deriving DecidableEq, Repr

/-- A process from its birth on. -/
structure Birth where
  id : Nat
  pid : Nat
  startTicks : Nat
  uid : Nat
  environ : List (Text × Text)
  deriving DecidableEq

structure Entry where
  birth : Birth
  parent : Nat
  group : Nat
  mode : Mode
  deriving DecidableEq

def Entry.pid (e : Entry) : Nat := e.birth.pid

/-- What a signal does at once. A process ends by a move of its own. -/
def Entry.receive (sig : Signal) (e : Entry) : Entry :=
  match sig, e.mode with
  | .stop, .running => { e with mode := .stopped }
  | .cont, .stopped => { e with mode := .running }
  | _, _ => e

theorem Entry.receive_birth (sig : Signal) (e : Entry) : (e.receive sig).birth = e.birth := by
  unfold receive
  split <;> rfl

/-- The signal, when it is for this process. -/
def Entry.hear (sig : Signal) (b : Birth) (e : Entry) : Entry :=
  if e.birth = b then e.receive sig else e

theorem Entry.hear_birth (sig : Signal) (b : Birth) (e : Entry) :
    (e.hear sig b).birth = e.birth := by
  unfold hear
  split
  · exact e.receive_birth sig
  · rfl

/-- The columns of a task that the Supervisor reads. -/
structure TaskRow where
  status : Text
  createdBy : Text
  currentRunId : Option Int
  workerPid : Option Int
  deriving DecidableEq

/-- What a `stat` is read for: to look at the process, or before or after a signal by pid. -/
inductive Purpose where
  | look
  | check (sig : Signal)
  | recheck (sig : Signal)
  deriving DecidableEq, Repr

/-- A read of a `stat`, with the births there had been. -/
structure Read where
  pid : Nat
  births : Nat
  purpose : Purpose
  deriving DecidableEq, Repr

/-- The process table with the board databases and the clock. The last fields note what the
request did: its reads of a `stat`, the latest first, and for each pid that it chose to stop the
last read before it did; the births since it began, and those there had been when it last listed
`/proc` for processes of the attempt; the processes it stopped, and those it stopped since it last
listed `/proc` for descendants. -/
structure State where
  entries : List Entry
  nextBirth : Nat
  boards : Text → Option (Text → Option TaskRow)
  pidfdOpen : Bool
  pidfdSend : Bool
  now : Nat
  reads : List Read
  tried : List Read
  births : List Birth
  scanned : Nat
  stops : List Birth
  held : List Birth
  distinct : (entries.map Entry.pid).Nodup
  born : ∀ e ∈ entries, e.birth.id < nextBirth
  stopsBorn : ∀ b ∈ stops, b.id < nextBirth
  scannedBorn : scanned ≤ nextBirth
  readsBorn : ∀ r ∈ reads, r.births ≤ nextBirth
  triedRead : tried ⊆ reads
  accounted : ∀ e ∈ entries,
    e.birth ∈ births ∨ e.birth.id < scanned ∧ ∀ r ∈ reads, e.birth.id < r.births

namespace State

/-- The request has not begun. -/
structure Fresh (s : State) : Prop where
  reads : s.reads = []
  births : s.births = []
  stops : s.stops = []

/-- The process is there and has not exited. -/
def Live (s : State) (b : Birth) : Prop := ∃ e ∈ s.entries, e.birth = b ∧ e.mode ≠ .zombie

/-- The request stopped the process, and nobody has resumed it. -/
def Halted (s : State) (b : Birth) : Prop :=
  b ∈ s.stops ∧ ∃ e ∈ s.entries, e.birth = b ∧ e.mode = .stopped

/-- The last read of the pid. -/
def lastRead (s : State) (pid : Nat) : Option Read := s.reads.find? fun r => r.pid = pid

/-- The process under a pid. -/
def at? (s : State) (pid : Nat) : Option Entry := s.entries.find? fun e => e.pid = pid

theorem at?_some {s : State} {pid : Nat} {e : Entry} (h : s.at? pid = some e) :
    e ∈ s.entries ∧ e.pid = pid :=
  ⟨List.mem_of_find?_eq_some h, by simpa using List.find?_some h⟩

theorem at?_of_mem {s : State} {e : Entry} (h : e ∈ s.entries) : s.at? e.pid = some e := by
  cases hfind : s.at? e.pid with
  | none =>
    have hne := List.find?_eq_none.mp hfind e h
    simp at hne
  | some e' =>
    obtain ⟨hmem, hpid⟩ := at?_some hfind
    have hsame := List.inj_on_of_nodup_map s.distinct hmem h hpid
    rw [hsame]

theorem at?_none {s : State} {pid : Nat} (h : s.at? pid = none) {e : Entry}
    (he : e ∈ s.entries) : e.pid ≠ pid := by
  rintro rfl
  rw [at?_of_mem he] at h
  cases h

/-! ## The moves of the processes -/

/-- Change entries without touching births. -/
def alter (s : State) (f : Entry → Entry) (hf : ∀ e, (f e).birth = e.birth) : State :=
  { s with
    entries := s.entries.map f
    distinct := by
      have hpids : (s.entries.map f).map Entry.pid = s.entries.map Entry.pid := by
        rw [List.map_map]
        refine List.map_congr_left fun e _ => ?_
        simp only [Function.comp_apply, Entry.pid, hf]
      rw [hpids]
      exact s.distinct
    born := by
      intro x hx
      obtain ⟨e, he, rfl⟩ := List.mem_map.mp hx
      rw [hf]
      exact s.born e he
    accounted := by
      intro x hx
      obtain ⟨e, he, rfl⟩ := List.mem_map.mp hx
      rw [hf]
      exact s.accounted e he }

/-- The child of a fork: it inherits the owner and the environment. -/
def child (s : State) (parent : Entry) (pid ticks : Nat) : Entry where
  birth :=
    { id := s.nextBirth, pid, startTicks := ticks, uid := parent.birth.uid
      environ := parent.birth.environ }
  parent := parent.pid
  group := parent.group
  mode := .running

def fork (s : State) (parent : Entry) (pid ticks : Nat) (hfree : pid ∉ s.entries.map Entry.pid) :
    State :=
  { s with
    entries := s.child parent pid ticks :: s.entries
    nextBirth := s.nextBirth + 1
    births := (s.child parent pid ticks).birth :: s.births
    distinct := List.nodup_cons.mpr ⟨hfree, s.distinct⟩
    born := by
      intro e he
      rcases List.mem_cons.mp he with rfl | he
      · exact Nat.lt_succ_self _
      · exact Nat.lt_succ_of_lt (s.born e he)
    stopsBorn := fun b hb => Nat.lt_succ_of_lt (s.stopsBorn b hb)
    scannedBorn := Nat.le_succ_of_le s.scannedBorn
    readsBorn := fun r hr => Nat.le_succ_of_le (s.readsBorn r hr)
    accounted := by
      intro e he
      rcases List.mem_cons.mp he with rfl | he
      · exact .inl List.mem_cons_self
      · exact (s.accounted e he).imp (List.mem_cons_of_mem _) id }

/-- Only the entries that pass are left. -/
def keep (s : State) (p : Entry → Bool) : State :=
  { s with
    entries := s.entries.filter p
    distinct := s.distinct.sublist (List.filter_sublist.map _)
    born := fun e he => s.born e (List.mem_of_mem_filter he)
    accounted := fun e he => s.accounted e (List.mem_of_mem_filter he) }

/-- What can happen between two operations of the Supervisor: a running process forks, a process
exits, a zombie is reaped, a process gets another parent, time passes. -/
inductive Act where
  | fork (parent pid ticks : Nat)
  | exit (pid : Nat)
  | reap (pid : Nat)
  | adopt (pid parent : Nat)
  | elapse (ms : Nat)

/-- The act, when it can happen. -/
def act (s : State) : Act → State
  | .fork parent pid ticks =>
    match s.at? parent with
    | some e =>
      if h : e.mode = .running ∧ pid ∉ s.entries.map Entry.pid then s.fork e pid ticks h.2 else s
    | none => s
  | .exit pid =>
    s.alter (fun e => if e.pid = pid then { e with mode := .zombie } else e)
      (fun e => by split <;> rfl)
  | .reap pid => s.keep fun e => e.pid != pid || e.mode != .zombie
  | .adopt pid parent =>
    s.alter (fun e => if e.pid = pid then { e with parent := parent } else e)
      (fun e => by split <;> rfl)
  | .elapse ms => { s with now := s.now + ms }

def acts (s : State) (as : List Act) : State := as.foldl act s

/-! ## What the moves leave -/

/-- Who lives in the second state lived in the first or was born in between. -/
structure Leads (s t : State) : Prop where
  next : s.nextBirth ≤ t.nextBirth
  tries : s.tried ⊆ t.tried
  live : ∀ b, t.Live b → s.Live b ∨ s.nextBirth ≤ b.id

/-- The processes moved, and the request did nothing. -/
structure Moved (s t : State) : Prop extends Leads s t where
  reads : t.reads = s.reads
  scanned : t.scanned = s.scanned
  stops : t.stops = s.stops
  held : t.held = s.held
  pidfdOpen : t.pidfdOpen = s.pidfdOpen
  pidfdSend : t.pidfdSend = s.pidfdSend
  halted : ∀ b, t.Halted b → s.Halted b

theorem Live.lt {s : State} {b : Birth} (h : s.Live b) : b.id < s.nextBirth := by
  obtain ⟨e, he, rfl, _⟩ := h
  exact s.born e he

theorem Halted.live {s : State} {b : Birth} (h : s.Halted b) : s.Live b := by
  obtain ⟨_, e, he, hb, hmode⟩ := h
  exact ⟨e, he, hb, by rw [hmode]; simp⟩

theorem Leads.refl (s : State) : s.Leads s where
  next := Nat.le_refl _
  tries := List.Subset.refl _
  live _ h := .inl h

theorem Leads.trans {s t u : State} (h : s.Leads t) (h' : t.Leads u) : s.Leads u where
  next := h.next.trans h'.next
  tries := List.Subset.trans h.tries h'.tries
  live b hb := by
    rcases h'.live b hb with ht | hnext
    · exact h.live b ht
    · exact .inr (h.next.trans hnext)

/-- Who lives later and was born before lived before. -/
theorem Leads.old {s t : State} (h : s.Leads t) {b : Birth} (hb : t.Live b)
    (hid : b.id < s.nextBirth) : s.Live b := by
  rcases h.live b hb with hs | hnext
  · exact hs
  · omega

theorem Moved.refl (s : State) : s.Moved s where
  toLeads := .refl s
  reads := rfl
  scanned := rfl
  stops := rfl
  held := rfl
  pidfdOpen := rfl
  pidfdSend := rfl
  halted _ h := h

theorem Moved.trans {s t u : State} (h : s.Moved t) (h' : t.Moved u) : s.Moved u where
  toLeads := h.toLeads.trans h'.toLeads
  reads := h'.reads.trans h.reads
  scanned := h'.scanned.trans h.scanned
  stops := h'.stops.trans h.stops
  held := h'.held.trans h.held
  pidfdOpen := h'.pidfdOpen.trans h.pidfdOpen
  pidfdSend := h'.pidfdSend.trans h.pidfdSend
  halted b hb := h.halted b (h'.halted b hb)

section Alter

variable {s : State} {f : Entry → Entry} {hf : ∀ e, (f e).birth = e.birth}

theorem alter_live (hmode : ∀ e, (f e).mode ≠ .zombie → e.mode ≠ .zombie) {b : Birth}
    (h : (s.alter f hf).Live b) : s.Live b := by
  obtain ⟨x, hx, hb, hlive⟩ := h
  obtain ⟨e, he, rfl⟩ := List.mem_map.mp hx
  rw [hf] at hb
  exact ⟨e, he, hb, hmode e hlive⟩

theorem alter_leads (hmode : ∀ e, (f e).mode ≠ .zombie → e.mode ≠ .zombie) :
    s.Leads (s.alter f hf) where
  next := Nat.le_refl _
  tries := List.Subset.refl _
  live _ hb := .inl (alter_live hmode hb)

theorem alter_moved (hmode : ∀ e, (f e).mode ≠ .zombie → e.mode ≠ .zombie)
    (hstop : ∀ e, (f e).mode = .stopped → e.mode = .stopped) : s.Moved (s.alter f hf) where
  toLeads := alter_leads hmode
  reads := rfl
  scanned := rfl
  stops := rfl
  held := rfl
  pidfdOpen := rfl
  pidfdSend := rfl
  halted := by
    rintro b ⟨hstops, x, hx, hb, hmode⟩
    obtain ⟨e, he, rfl⟩ := List.mem_map.mp hx
    rw [hf] at hb
    exact ⟨hstops, e, he, hb, hstop e hmode⟩

end Alter

theorem fork_moved {s : State} {parent : Entry} {pid ticks : Nat}
    (hfree : pid ∉ s.entries.map Entry.pid) : s.Moved (s.fork parent pid ticks hfree) where
  next := Nat.le_succ _
  tries := List.Subset.refl _
  live := by
    rintro b ⟨e, he, rfl, hlive⟩
    rcases List.mem_cons.mp he with rfl | he
    · exact .inr (Nat.le_refl _)
    · exact .inl ⟨e, he, rfl, hlive⟩
  reads := rfl
  scanned := rfl
  stops := rfl
  held := rfl
  pidfdOpen := rfl
  pidfdSend := rfl
  halted := by
    rintro b ⟨hstops, e, he, rfl, hmode⟩
    rcases List.mem_cons.mp he with rfl | he
    · exact absurd (s.stopsBorn _ hstops) (Nat.lt_irrefl _)
    · exact ⟨hstops, e, he, rfl, hmode⟩

theorem keep_moved {s : State} {p : Entry → Bool} : s.Moved (s.keep p) where
  next := Nat.le_refl _
  tries := List.Subset.refl _
  live := by
    rintro b ⟨e, he, hb, hlive⟩
    exact .inl ⟨e, List.mem_of_mem_filter he, hb, hlive⟩
  reads := rfl
  scanned := rfl
  stops := rfl
  held := rfl
  pidfdOpen := rfl
  pidfdSend := rfl
  halted := by
    rintro b ⟨hstops, e, he, hb, hmode⟩
    exact ⟨hstops, e, List.mem_of_mem_filter he, hb, hmode⟩

theorem act_moved (s : State) (a : Act) : s.Moved (s.act a) := by
  cases a with
  | fork parent pid ticks =>
    simp only [act]
    split
    · split
      · exact fork_moved _
      · exact .refl s
    · exact .refl s
  | exit pid =>
    simp only [act]
    refine alter_moved (fun e h => ?_) (fun e h => ?_)
    · split at h
      · exact absurd rfl h
      · exact h
    · split at h
      · cases h
      · exact h
  | reap pid => exact keep_moved
  | adopt pid parent =>
    simp only [act]
    refine alter_moved (fun e h => ?_) (fun e h => ?_)
    · split at h <;> exact h
    · split at h <;> exact h
  | elapse ms => exact { Moved.refl s with }

/-- A process was there before, or it is the child of a fork. -/
theorem act_birth {s : State} {a : Act} {e : Entry} (h : e ∈ (s.act a).entries) :
    (∃ x ∈ s.entries, x.birth = e.birth) ∨ ∃ parent ticks, a = .fork parent e.pid ticks := by
  cases a with
  | fork parent pid ticks =>
    simp only [act] at h
    split at h
    · split at h
      · rcases List.mem_cons.mp h with rfl | h
        · exact .inr ⟨parent, ticks, rfl⟩
        · exact .inl ⟨e, h, rfl⟩
      · exact .inl ⟨e, h, rfl⟩
    · exact .inl ⟨e, h, rfl⟩
  | exit pid =>
    obtain ⟨x, hx, rfl⟩ := List.mem_map.mp h
    exact .inl ⟨x, hx, by split <;> rfl⟩
  | reap pid => exact .inl ⟨e, List.mem_of_mem_filter h, rfl⟩
  | adopt pid parent =>
    obtain ⟨x, hx, rfl⟩ := List.mem_map.mp h
    exact .inl ⟨x, hx, by split <;> rfl⟩
  | elapse ms => exact .inl ⟨e, h, rfl⟩

/-- Every process has its owner and its environment from one that was there before. -/
theorem act_heir {s : State} {a : Act} {e : Entry} (h : e ∈ (s.act a).entries) :
    ∃ x ∈ s.entries, x.birth.uid = e.birth.uid ∧ x.birth.environ = e.birth.environ := by
  cases a with
  | fork parent pid ticks =>
    simp only [act] at h
    split at h
    · next x hx =>
      split at h
      · rcases List.mem_cons.mp h with rfl | h
        · exact ⟨x, (at?_some hx).1, rfl, rfl⟩
        · exact ⟨e, h, rfl, rfl⟩
      · exact ⟨e, h, rfl, rfl⟩
    · exact ⟨e, h, rfl, rfl⟩
  | exit pid =>
    obtain ⟨x, hx, rfl⟩ := List.mem_map.mp h
    exact ⟨x, hx, by split <;> exact ⟨rfl, rfl⟩⟩
  | reap pid => exact ⟨e, List.mem_of_mem_filter h, rfl, rfl⟩
  | adopt pid parent =>
    obtain ⟨x, hx, rfl⟩ := List.mem_map.mp h
    exact ⟨x, hx, by split <;> exact ⟨rfl, rfl⟩⟩
  | elapse ms => exact ⟨e, h, rfl, rfl⟩

theorem acts_moved (s : State) (as : List Act) : s.Moved (s.acts as) := by
  induction as generalizing s with
  | nil => exact .refl s
  | cons a as ih => exact (act_moved s a).trans (ih (s.act a))

end State

/-! ## The operations of the Supervisor -/

inductive Error where
  | fileNotFound | processLookup
  /-- `ENOSYS` or `EINVAL`. -/
  | unsupported
  /-- Another `OSError`. -/
  | os
  | database
  /-- A `stat` line without the fields. -/
  | unparsable
  | request (code : String)
  /-- An exception that no handler of the request names. -/
  | uncaught
  deriving DecidableEq, Repr

def Error.isOs : Error → Bool
  | .fileNotFound | .processLookup | .unsupported | .os => true
  | _ => false

/-- What `/proc` is listed for. -/
inductive Listing where
  | attempt | tree
  deriving DecidableEq, Repr

structure ProcessIdentity where
  pid : Nat
  parentPid : Nat
  processGroup : Nat
  state : Mode
  startTicks : Nat
  deriving DecidableEq, Repr

def ProcessIdentity.exited (p : ProcessIdentity) : Bool := p.state == .zombie

def Entry.identity (e : Entry) : ProcessIdentity where
  pid := e.pid
  parentPid := e.parent
  processGroup := e.group
  state := e.mode
  startTicks := e.birth.startTicks

/-- The operations. The listing, the purpose and the signal of `pidfdOpen` say what the answer is
for. -/
inductive Op where
  | isFile (board : Text)
  | task (board card : Text)
  | time
  | monotonic
  | sleep (ms : Nat)
  | iterdir (l : Listing)
  | ownerOf (pid : Nat)
  | readStat (pid : Nat) (purpose : Purpose)
  | readEnviron (pid : Nat)
  | pidfdOpen (pid : Nat) (sig : Signal)
  | pidfdSend (process : Birth) (sig : Signal)
  | kill (pid : Nat) (sig : Signal)

def Op.Ret : Op → Type
  | .isFile _ => Bool
  | .task _ _ => Option TaskRow
  | .time => Nat
  | .monotonic => Nat
  | .sleep _ => Unit
  | .iterdir _ => List Nat
  | .ownerOf _ => Nat
  | .readStat _ _ => ProcessIdentity
  | .readEnviron _ => List (Text × Text)
  | .pidfdOpen _ _ => Birth
  | .pidfdSend _ _ => Unit
  | .kill _ _ => Unit

namespace State

/-- The listing of `/proc`. -/
def list (s : State) : Listing → State
  | .attempt =>
    { s with
      scanned := s.nextBirth
      scannedBorn := Nat.le_refl _
      accounted := fun e he => (s.accounted e he).imp id fun h => ⟨s.born e he, h.2⟩ }
  | .tree => { s with held := [] }

/-- The request chooses to stop the process it last read under the pid. -/
def noteTry (s : State) (pid : Nat) : State :=
  { s with
    tried := (s.lastRead pid).toList ++ s.tried
    triedRead := by
      intro r hr
      rcases List.mem_append.mp hr with hr | hr
      · exact List.mem_of_find?_eq_some (Option.mem_toList.mp hr)
      · exact s.triedRead hr }

def noteRead (s : State) (pid : Nat) (purpose : Purpose) : State :=
  { s with
    reads := { pid, births := s.nextBirth, purpose } :: s.reads
    readsBorn := by
      intro r hr
      rcases List.mem_cons.mp hr with rfl | hr
      · exact Nat.le_refl _
      · exact s.readsBorn r hr
    triedRead := List.subset_cons_of_subset _ s.triedRead
    accounted := by
      refine fun e he => (s.accounted e he).imp id fun h => ⟨h.1, fun r hr => ?_⟩
      rcases List.mem_cons.mp hr with rfl | hr
      · exact s.born e he
      · exact h.2 r hr }

/-- What a read of a `stat` leaves. -/
def read (s : State) (pid : Nat) (purpose : Purpose) : State :=
  if purpose = .check .stop then (s.noteTry pid).noteRead pid purpose
  else s.noteRead pid purpose

/-- A signal reaches the process. -/
def signalled (s : State) (sig : Signal) (b : Birth) : State :=
  s.alter (Entry.hear sig b) (Entry.hear_birth sig b)

def noteStop (s : State) (b : Birth) (hb : b.id < s.nextBirth) : State :=
  { s with
    stops := b :: s.stops
    held := b :: s.held
    stopsBorn := by
      intro x hx
      rcases List.mem_cons.mp hx with rfl | hx
      · exact hb
      · exact s.stopsBorn x hx }

def deliver (s : State) (sig : Signal) (b : Birth) : State :=
  if h : sig = .stop ∧ b.id < s.nextBirth then (s.signalled sig b).noteStop b h.2
  else s.signalled sig b

end State

/-- What each operation does. -/
def exec : (o : Op) → State → Except Error o.Ret × State
  | .isFile board, s => (.ok (s.boards board).isSome, s)
  | .task board card, s =>
    (match s.boards board with
      | some tasks => .ok (tasks card)
      | none => .error .database, s)
  | .time, s => (.ok (s.now / 1000), s)
  | .monotonic, s => (.ok s.now, s)
  | .sleep ms, s => (.ok (), { s with now := s.now + ms })
  | .iterdir l, s => (.ok (s.entries.map Entry.pid), s.list l)
  | .ownerOf pid, s =>
    (match s.at? pid with
      | some e => .ok e.birth.uid
      | none => .error .fileNotFound, s)
  | .readStat pid purpose, s =>
    (match s.at? pid with
      | some e => .ok e.identity
      | none => .error .fileNotFound, s.read pid purpose)
  | .readEnviron pid, s =>
    -- a zombie has no memory left to read
    (match s.at? pid with
      | some e => .ok (if e.mode = .zombie then [] else e.birth.environ)
      | none => .error .fileNotFound, s)
  | .pidfdOpen pid sig, s =>
    (if s.pidfdOpen then
      match s.at? pid with
      | some e => .ok e.birth
      | none => .error .processLookup
    else .error .unsupported, if sig = .stop then s.noteTry pid else s)
  | .pidfdSend b sig, s =>
    if s.pidfdSend then
      match s.at? b.pid with
      | some e => if e.birth = b then (.ok (), s.deliver sig b) else (.error .processLookup, s)
      | none => (.error .processLookup, s)
    else (.error .unsupported, s)
  | .kill pid sig, s =>
    match s.at? pid with
    | some e => (.ok (), s.deliver sig e.birth)
    | none => (.error .processLookup, s)

def machine : Machine Op Op.Ret Error State where
  exec := exec

/-! ## What the operations leave -/

theorem Entry.receive_zombie {sig : Signal} {e : Entry} (h : (e.receive sig).mode ≠ .zombie) :
    e.mode ≠ .zombie := by
  unfold receive at h
  split at h
  · next hmode => simp [hmode]
  · next hmode => simp [hmode]
  · exact h

namespace State

/-- The second state is the first with more notes of reads. -/
structure Annotated (s t : State) : Prop where
  entries : t.entries = s.entries
  nextBirth : t.nextBirth = s.nextBirth
  births : t.births = s.births
  scanned : t.scanned = s.scanned
  stops : t.stops = s.stops
  held : t.held = s.held
  pidfdOpen : t.pidfdOpen = s.pidfdOpen
  pidfdSend : t.pidfdSend = s.pidfdSend
  tries : s.tried ⊆ t.tried

theorem noteTry_annotated (s : State) (pid : Nat) : s.Annotated (s.noteTry pid) :=
  ⟨rfl, rfl, rfl, rfl, rfl, rfl, rfl, rfl, List.subset_append_right _ _⟩

theorem noteRead_annotated (s : State) (pid : Nat) (purpose : Purpose) :
    s.Annotated (s.noteRead pid purpose) :=
  ⟨rfl, rfl, rfl, rfl, rfl, rfl, rfl, rfl, List.Subset.refl _⟩

theorem read_annotated (s : State) (pid : Nat) (purpose : Purpose) :
    s.Annotated (s.read pid purpose) := by
  unfold read
  split
  · exact { noteRead_annotated (s.noteTry pid) pid purpose with
      tries := List.subset_append_right _ _ }
  · exact s.noteRead_annotated pid purpose

theorem open_annotated (s : State) (pid : Nat) (sig : Signal) :
    s.Annotated (exec (.pidfdOpen pid sig) s).2 := by
  simp only [exec]
  split
  · exact s.noteTry_annotated pid
  · exact ⟨rfl, rfl, rfl, rfl, rfl, rfl, rfl, rfl, List.Subset.refl _⟩

theorem Annotated.live_iff {s t : State} (h : s.Annotated t) {b : Birth} : t.Live b ↔ s.Live b := by
  rw [Live, Live, h.entries]

theorem Annotated.halted_iff {s t : State} (h : s.Annotated t) {b : Birth} :
    t.Halted b ↔ s.Halted b := by
  rw [Halted, Halted, h.entries, h.stops]

theorem Annotated.leads {s t : State} (h : s.Annotated t) : s.Leads t where
  next := Nat.le_of_eq h.nextBirth.symm
  tries := h.tries
  live _ hb := .inl (h.live_iff.mp hb)

theorem signalled_leads (s : State) (sig : Signal) (b : Birth) : s.Leads (s.signalled sig b) := by
  refine alter_leads fun e h => ?_
  unfold Entry.hear at h
  split at h
  · exact Entry.receive_zombie h
  · exact h

theorem deliver_leads (s : State) (sig : Signal) (b : Birth) : s.Leads (s.deliver sig b) := by
  unfold deliver
  split
  · exact { s.signalled_leads sig b with }
  · exact s.signalled_leads sig b

/-- A signal changes the processes and the notes of the stops only. -/
theorem deliver_rest (s : State) (sig : Signal) (b : Birth) :
    (s.deliver sig b).scanned = s.scanned ∧ (s.deliver sig b).births = s.births ∧
      (s.deliver sig b).reads = s.reads ∧ (s.deliver sig b).tried = s.tried ∧
      (s.deliver sig b).pidfdOpen = s.pidfdOpen ∧ (s.deliver sig b).pidfdSend = s.pidfdSend := by
  unfold deliver
  split <;> exact ⟨rfl, rfl, rfl, rfl, rfl, rfl⟩

theorem signalled_birth {s : State} {sig : Signal} {b : Birth} {e : Entry}
    (h : e ∈ (s.deliver sig b).entries) : ∃ x ∈ s.entries, x.birth = e.birth := by
  have hmap : e ∈ s.entries.map (Entry.hear sig b) := by
    unfold deliver at h
    split at h <;> exact h
  obtain ⟨x, hx, rfl⟩ := List.mem_map.mp hmap
  exact ⟨x, hx, (x.hear_birth sig b).symm⟩

end State

/-- An operation makes no process. -/
theorem exec_birth {o : Op} {s : State} {e : Entry} (h : e ∈ (exec o s).2.entries) :
    ∃ x ∈ s.entries, x.birth = e.birth := by
  cases o with
  | iterdir l => cases l <;> exact ⟨e, h, rfl⟩
  | readStat pid purpose => exact ⟨e, (s.read_annotated pid purpose).entries ▸ h, rfl⟩
  | pidfdOpen pid sig => exact ⟨e, (s.open_annotated pid sig).entries ▸ h, rfl⟩
  | pidfdSend b sig =>
    simp only [exec] at h
    split at h
    · split at h
      · split at h
        · exact State.signalled_birth h
        · exact ⟨e, h, rfl⟩
      · exact ⟨e, h, rfl⟩
    · exact ⟨e, h, rfl⟩
  | kill pid sig =>
    simp only [exec] at h
    split at h
    · exact State.signalled_birth h
    · exact ⟨e, h, rfl⟩
  | _ => exact ⟨e, h, rfl⟩

theorem exec_leads (o : Op) (s : State) : s.Leads (exec o s).2 := by
  cases o with
  | readStat pid purpose => exact (s.read_annotated pid purpose).leads
  | pidfdOpen pid sig => exact (s.open_annotated pid sig).leads
  | iterdir l => cases l <;> exact { State.Leads.refl s with }
  | sleep ms => exact { State.Leads.refl s with }
  | pidfdSend b sig =>
    simp only [exec]
    split
    · split
      · split
        · exact s.deliver_leads sig b
        · exact .refl s
      · exact .refl s
    · exact .refl s
  | kill pid sig =>
    simp only [exec]
    split
    · exact s.deliver_leads sig _
    · exact .refl s
  | _ => exact .refl s

/-- An operation that is no listing for the attempt. -/
def Op.Plain (o : Op) : Prop := o ≠ .iterdir .attempt

theorem exec_scanned {o : Op} (ho : o.Plain) (s : State) : (exec o s).2.scanned = s.scanned := by
  cases o with
  | iterdir l =>
    cases l with
    | attempt => exact absurd rfl ho
    | tree => rfl
  | readStat pid purpose => exact (s.read_annotated pid purpose).scanned
  | pidfdOpen pid sig => exact (s.open_annotated pid sig).scanned
  | pidfdSend b sig =>
    simp only [exec]
    split
    · split
      · split
        · exact (s.deliver_rest sig b).1
        · rfl
      · rfl
    · rfl
  | kill pid sig =>
    simp only [exec]
    split
    · exact (s.deliver_rest sig _).1
    · rfl
  | _ => rfl

/-- The errors an operation can meet besides those its answer gives. -/
def Op.mayFail : Op → Error → Bool
  | .time, _ | .monotonic, _ | .sleep _, _ => false
  | .task _ _, e => e == .database
  | .readStat _ _, e => e == .os || e == .unparsable || e == .uncaught
  | _, e => e == .os

end HollysysController.WorkerSupervisor
