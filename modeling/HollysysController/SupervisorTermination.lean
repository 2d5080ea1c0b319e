import HollysysController.Descendants

/-! # What a termination leaves

The Supervisor reads the process table one process at a time while the processes move. What it
answers about the attempt is true of the processes it could see: those that were born before its
last listing, and under no pid that it had chosen to stop for another process. -/

namespace HollysysController.WorkerSupervisor

open Durable
open Python (Text Value codePoints)
open Supervisor (SupervisorObservation)

/-- The processes move as they like before each operation, and each operation may fail. -/
def interfering : Setting Op Error State where
  others s s' := ∃ as, s' = s.acts as
  faults _ o f := f = .none ∨ ∃ e, f = .failBefore e ∧ o.mayFail e = true

theorem interfering_early : interfering.FailsEarly := by
  rintro s o f (rfl | ⟨e, rfl, _⟩)
  · exact .inl rfl
  · exact .inr ⟨e, rfl⟩

theorem interfering_moved {s s' : State} (h : interfering.others s s') : s.Moved s' := by
  obtain ⟨as, rfl⟩ := h
  exact s.acts_moved as

/-- The runs of `p` from `s` that answer end as `Q` says. -/
abbrev Gives {α : Type} (p : Server α) (Q : α → State → Prop) (s : State) : Prop :=
  Ends machine interfering p Q (fun _ _ => True) s

theorem gives_and {α : Type} {p : Server α} {Q Q' : α → State → Prop} {s : State}
    (h : Gives p Q s) (h' : Gives p Q' s) : Gives p (fun a s' => Q a s' ∧ Q' a s') s :=
  (h.and h').mono (fun _ _ hq => hq) fun _ _ _ => trivial

/-! ## Assertions that last -/

/-- Whatever the request and the processes do, `P` stays. -/
def Firm (P : State → Prop) : Prop := ∀ s t, s.Leads t → P s → P t

/-- `P` stays until the next listing for the attempt. -/
def Steady (P : State → Prop) : Prop :=
  ∀ s t, s.Leads t → t.scanned = s.scanned → P s → P t

theorem Firm.steady {P : State → Prop} (h : Firm P) : Steady P := fun s t hl _ hs => h s t hl hs

theorem Firm.and {P P' : State → Prop} (h : Firm P) (h' : Firm P') : Firm fun s => P s ∧ P' s :=
  fun s t hl hs => ⟨h s t hl hs.1, h' s t hl hs.2⟩

theorem Steady.and {P P' : State → Prop} (h : Steady P) (h' : Steady P') :
    Steady fun s => P s ∧ P' s :=
  fun s t hl hsc hs => ⟨h s t hl hsc hs.1, h' s t hl hsc hs.2⟩

theorem Steady.others {P : State → Prop} (h : Steady P) {s s' : State} (hs : P s)
    (ho : interfering.others s s') : P s' :=
  h s s' (interfering_moved ho).toLeads (interfering_moved ho).scanned hs

theorem Steady.effect {P : State → Prop} (h : Steady P) {o : Op} (ho : o.Plain) {s : State}
    (hs : P s) : P (machine.exec o s).2 :=
  h s _ (exec_leads o s) (exec_scanned ho s) hs

theorem Steady.ends {P : State → Prop} (h : Steady P) {α : Type} {p : Server α}
    (hp : p.Uses Op.Plain) {s : State} (hs : P s) :
    Ends machine interfering p (fun _ s' => P s') (fun _ s' => P s') s :=
  Ends.keeping (fun _ _ hs ho => h.others hs ho) (fun _ _ ho hs => h.effect ho hs) hp hs

theorem Steady.gives {P : State → Prop} (h : Steady P) {α : Type} {p : Server α}
    (hp : p.Uses Op.Plain) {s : State} (hs : P s) : Gives p (fun _ s' => P s') s :=
  (h.ends hp hs).mono (fun _ _ h => h) fun _ _ _ => trivial

/-- One operation from a steady assertion. -/
theorem Steady.asks {P : State → Prop} (h : Steady P) {o : Op} {Q : o.Ret → State → Prop}
    {R : Error → State → Prop} {s : State} (hs : P s)
    (hfail : ∀ s₁ e, P s₁ → o.mayFail e = true → R e s₁)
    (hok : ∀ s₁ a s₂, P s₁ → exec o s₁ = (.ok a, s₂) → Q a s₂)
    (herror : ∀ s₁ e s₂, P s₁ → exec o s₁ = (.error e, s₂) → R e s₂) :
    Ends machine interfering (ask o) Q R s := by
  refine Ends.op interfering_early (fun s₁ ho => h.others hs ho) ?_ hok herror
  rintro s₁ e h₁ (hnone | ⟨e', he, hfault⟩)
  · cases hnone
  · cases he
    exact hfail s₁ e h₁ hfault

theorem uses_any {α : Type} (p : Server α) : p.Uses fun _ => True := by
  induction p with
  | pure a => trivial
  | raise e => trivial
  | perform o k ih => exact ⟨trivial, ih⟩

theorem Firm.gives {P : State → Prop} (h : Firm P) {α : Type} (p : Server α) {s : State}
    (hs : P s) : Gives p (fun _ s' => P s') s :=
  (Ends.keeping (fun _ _ hs ho => h.steady.others hs ho)
    (fun o s _ hs => h s _ (exec_leads o s) hs) (uses_any p) hs).mono
    (fun _ _ h => h) fun _ _ _ => trivial

/-! ## What the request knows -/

section Knowledge

variable (cfg : Config) (i : Identity)

/-- The process is the one that was read. -/
def ProcessIdentity.Names (p : ProcessIdentity) (b : Birth) : Prop :=
  p.pid = b.pid ∧ p.startTicks = b.startTicks

/-- A process of the attempt that runs under the Supervisor's owner. -/
def Target (b : Birth) : Prop := i.names b.environ = true ∧ b.uid = cfg.expectedUid

/-- Where the request chose to stop a process under the pid, it had read that process after the
birth. -/
def State.Untaken (s : State) (b : Birth) : Prop :=
  ∀ r ∈ s.tried, r.pid = b.pid → b.id < r.births

/-- A living process of the attempt that the last listing could show, and that no other process
hides. -/
def Due (s : State) (b : Birth) : Prop :=
  s.Live b ∧ Target cfg i b ∧ b.id < s.scanned ∧ s.Untaken b

/-- Each of them is among the processes. -/
def Covers (ps : List ProcessIdentity) (s : State) : Prop :=
  ∀ b, Due cfg i s b → ∃ p ∈ ps, p.Names b

/-- Of those born before `n`, nobody but the process that was read lives under its pid. -/
def Known (p : ProcessIdentity) (n : Nat) (s : State) : Prop :=
  n ≤ s.nextBirth ∧ ∀ b, s.Live b → b.pid = p.pid → b.id < n → p.Names b

/-- The request chose to stop the process, as it had last read it. -/
def Tried (p : ProcessIdentity) (s : State) : Prop :=
  ∃ r ∈ s.tried, r.pid = p.pid ∧ Known p r.births s

/-- The process is as the last read of its pid gave it, and was read after the last listing. -/
def Recent (p : ProcessIdentity) (s : State) : Prop :=
  ∃ r, s.lastRead p.pid = some r ∧ s.scanned ≤ r.births ∧ Known p r.births s

variable {cfg i}

theorem Due.back {s t : State} {b : Birth} (h : Due cfg i t b) (hl : s.Leads t)
    (hsc : t.scanned = s.scanned) : Due cfg i s b := by
  obtain ⟨hlive, htarget, hid, hfree⟩ := h
  rw [hsc] at hid
  exact ⟨hl.old hlive (Nat.lt_of_lt_of_le hid s.scannedBorn), htarget, hid,
    fun r hr => hfree r (hl.tries hr)⟩

/-- What is said of every process that is due stays. -/
theorem steady_due (P : Birth → Prop) : Steady fun s => ∀ b, Due cfg i s b → P b :=
  fun _ _ hl hsc hs b hb => hs b (hb.back hl hsc)

theorem known_firm (p : ProcessIdentity) (n : Nat) : Firm (Known p n) := by
  rintro s t hl ⟨hn, hnames⟩
  exact ⟨hn.trans hl.next, fun b hlive hpid hid =>
    hnames b (hl.old hlive (Nat.lt_of_lt_of_le hid hn)) hpid hid⟩

theorem tried_firm (p : ProcessIdentity) : Firm (Tried p) := by
  rintro s t hl ⟨r, hr, hpid, hknown⟩
  exact ⟨r, hl.tries hr, hpid, known_firm p r.births s t hl hknown⟩

/-- Whoever is due under the pid of a process that was tried is that process. -/
theorem Tried.due {p : ProcessIdentity} {s : State} {b : Birth} (h : Tried p s)
    (hb : Due cfg i s b) (hpid : p.pid = b.pid) : p.Names b := by
  obtain ⟨r, hr, hsame, hknown⟩ := h
  exact hknown.2 b hb.1 hpid.symm (hb.2.2.2 r hr (hsame.trans hpid))

theorem triedAll_firm (ps : List ProcessIdentity) : Firm fun s => ∀ p ∈ ps, Tried p s :=
  fun s t hl hs p hp => tried_firm p s t hl (hs p hp)

end Knowledge

/-! ## Reads -/

section Reads

variable {cfg : Config} {i : Identity} {P : State → Prop} {s : State}

/-- What a read of a pid tells. -/
def ReadsPid (cfg : Config) (i : Identity) (pid : Nat) (r : Option ProcessIdentity)
    (s : State) : Prop :=
  (∀ p, r = some p → p.pid = pid) ∧
    ∀ b, Due cfg i s b → b.pid = pid → ∃ p, r = some p ∧ p.exited = false ∧ p.Names b

/-- What a read of a pid has just told of those born before it. -/
def ReadsNow (pid : Nat) (r : Option ProcessIdentity) (s : State) : Prop :=
  (∀ p, r = some p → p.pid = pid) ∧
    ∃ rd, s.lastRead pid = some rd ∧ s.scanned ≤ rd.births ∧ rd.births ≤ s.nextBirth ∧
      ∀ b, s.Live b → b.pid = pid → b.id < rd.births →
        ∃ p, r = some p ∧ p.exited = false ∧ p.Names b

theorem ReadsNow.readsPid {pid : Nat} {r : Option ProcessIdentity} (h : ReadsNow pid r s) :
    ReadsPid cfg i pid r s := by
  obtain ⟨hpid, rd, -, hscanned, -, hlive⟩ := h
  exact ⟨hpid, fun b hb hsame => hlive b hb.1 hsame (Nat.lt_of_lt_of_le hb.2.2.1 hscanned)⟩

/-- Nobody who is due lives under the pid. -/
def Absent (cfg : Config) (i : Identity) (pid : Nat) (s : State) : Prop :=
  ∀ b, Due cfg i s b → b.pid ≠ pid

theorem at?_live {b : Birth} (h : s.Live b) :
    ∃ e, s.at? b.pid = some e ∧ e.birth = b ∧ e.mode ≠ .zombie := by
  obtain ⟨e, he, rfl, hmode⟩ := h
  exact ⟨e, State.at?_of_mem he, rfl, hmode⟩

theorem absent_of_none {pid : Nat} (h : s.at? pid = none) : Absent cfg i pid s := by
  rintro b hb rfl
  obtain ⟨e, he, _⟩ := at?_live hb.1
  rw [h] at he
  cases he

theorem lastRead_read (s : State) (pid : Nat) (purpose : Purpose) :
    (s.read pid purpose).lastRead pid = some { pid, births := s.nextBirth, purpose } := by
  unfold State.read
  split <;> simp [State.lastRead, State.noteRead, State.noteTry]

/-- The entry under a pid is what the read of its `stat` gives. -/
theorem readsNow_exec (pid : Nat) (purpose : Purpose) :
    ReadsNow pid ((s.at? pid).map Entry.identity) (s.read pid purpose) := by
  have hnotes := s.read_annotated pid purpose
  refine ⟨fun p hp => ?_, _, lastRead_read s pid purpose, ?_, ?_, fun b hb hpid _ => ?_⟩
  · obtain ⟨e, he, rfl⟩ := Option.map_eq_some_iff.mp hp
    exact (State.at?_some he).2
  · rw [hnotes.scanned]
    exact s.scannedBorn
  · rw [hnotes.nextBirth]
  · obtain ⟨e, he, rfl, hmode⟩ := at?_live (hnotes.live_iff.mp hb)
    refine ⟨e.identity, by rw [← hpid, he]; rfl, ?_, rfl, rfl⟩
    simpa [ProcessIdentity.exited, Entry.identity] using hmode

theorem firm_true : Firm fun _ => True := fun _ _ _ _ => trivial

theorem steady_true : Steady fun _ => True := firm_true.steady

theorem readStat_ends (pid : Nat) (purpose : Purpose) :
    Ends machine interfering (ask (.readStat pid purpose)) (fun p s' => ReadsNow pid (some p) s')
      (fun e s' => e = .fileNotFound → ReadsNow pid none s') s := by
  refine steady_true.asks trivial ?_ ?_ ?_
  · rintro s₁ e - hfail rfl
    cases hfail
  · rintro s₁ p s₂ - hx
    simp only [exec, Prod.mk.injEq] at hx
    obtain ⟨hx, rfl⟩ := hx
    have hread := readsNow_exec (s := s₁) pid purpose
    cases h : s₁.at? pid with
    | none => simp [h] at hx
    | some e =>
      rw [h] at hx hread
      obtain rfl := Except.ok.inj hx
      exact hread
  · rintro s₁ e s₂ - hx -
    simp only [exec, Prod.mk.injEq] at hx
    obtain ⟨hx, rfl⟩ := hx
    have hread := readsNow_exec (s := s₁) pid purpose
    cases h : s₁.at? pid with
    | none =>
      rw [h] at hread
      exact hread
    | some e => simp [h] at hx

theorem readProcess_ends (pid : Nat) (purpose : Purpose) :
    Ends machine interfering (readProcess pid purpose) (fun r s' => ReadsNow pid r s')
      (fun e _ => e ≠ .fileNotFound ∧ e ≠ .processLookup) s := by
  refine (readStat_ends pid purpose).attempt (fun p s' h => h) fun e s' h => ?_
  cases e with
  | fileNotFound => exact h rfl
  | uncaught => exact Ends.raise (by simp)
  | _ => exact Ends.raise (by simp)

theorem readProcess_gives (cfg : Config) (i : Identity) (hP : Steady P) (pid : Nat) (hs : P s) :
    Gives (readProcess pid) (fun r s' => P s' ∧ ReadsPid cfg i pid r s') s :=
  gives_and (hP.gives (uses_readProcess (by simp [Op.Plain])) hs)
    ((readProcess_ends pid .look).mono (fun _ _ h => h.readsPid) fun _ _ _ => trivial)

/-! ## Finding the processes of the attempt -/

/-- What a look at a pid tells of the process that is due there. -/
structure Inspects (cfg : Config) (i : Identity) (pid : Nat)
    (r : Option (ProcessIdentity × List (Text × Text))) (s : State) : Prop where
  under : ∀ p environment, r = some (p, environment) → p.pid = pid
  due : ∀ b, Due cfg i s b → b.pid = pid → ∃ p, r = some (p, b.environ) ∧ p.Names b

theorem ownerOf_ends (pid : Nat) :
    Ends machine interfering (ask (.ownerOf pid))
      (fun uid s' => ∀ b, Due cfg i s' b → b.pid = pid → uid = cfg.expectedUid)
      (fun e s' => e = .fileNotFound → Absent cfg i pid s') s := by
  refine steady_true.asks trivial ?_ ?_ ?_
  · rintro s₁ e - hfail rfl
    cases hfail
  · rintro s₁ uid s₂ - hx b hb rfl
    simp only [exec, Prod.mk.injEq] at hx
    obtain ⟨hx, rfl⟩ := hx
    obtain ⟨e, he, rfl, -⟩ := at?_live hb.1
    rw [he] at hx
    obtain rfl := Except.ok.inj hx
    exact hb.2.1.2
  · rintro s₁ e s₂ - hx -
    simp only [exec, Prod.mk.injEq] at hx
    obtain ⟨hx, rfl⟩ := hx
    cases h : s₁.at? pid with
    | none => exact absent_of_none h
    | some e => simp [h] at hx

/-- The environment of a process that is due is its own. -/
theorem readEnviron_ends {pid : Nat} {p : ProcessIdentity} (hpid : p.pid = pid)
    (h : ∀ b, Due cfg i s b → b.pid = pid → p.Names b) :
    Ends machine interfering (ask (.readEnviron pid))
      (fun environment s' => Inspects cfg i pid (some (p, environment)) s')
      (fun e s' => e = .fileNotFound → Absent cfg i pid s') s := by
  refine (steady_due (fun b => b.pid = pid → p.Names b)).asks h ?_ ?_ ?_
  · rintro s₁ e - hfail rfl
    cases hfail
  · rintro s₁ environment s₂ hnames hx
    simp only [exec, Prod.mk.injEq] at hx
    obtain ⟨hx, rfl⟩ := hx
    refine ⟨fun q environ hq => ?_, fun b hb hbpid => ⟨p, ?_, hnames b hb hbpid⟩⟩
    · cases hq
      exact hpid
    · obtain ⟨e, he, rfl, hmode⟩ := at?_live hb.1
      rw [← hbpid, he] at hx
      exact congrArg (fun x => some (p, x)) ((Except.ok.inj hx).symm.trans (if_neg hmode))
  · rintro s₁ e s₂ - hx -
    simp only [exec, Prod.mk.injEq] at hx
    obtain ⟨hx, rfl⟩ := hx
    cases h : s₁.at? pid with
    | none => exact absent_of_none h
    | some e => simp [h] at hx

/-- To find nothing says that nobody is due under the pid. -/
theorem Inspects.nothing {pid : Nat} (h : Absent cfg i pid s) : Inspects cfg i pid none s :=
  ⟨by simp, fun b hb hpid => absurd hpid (h b hb)⟩

theorem inspect_ends (cfg : Config) (i : Identity) (pid : Nat) :
    Ends machine interfering (inspect cfg pid) (fun r s' => Inspects cfg i pid r s')
      (fun e s' => e = .fileNotFound → Absent cfg i pid s') s := by
  refine (ownerOf_ends pid).bind fun uid s₁ howner => ?_
  split
  · next hne => exact Ends.pure (.nothing fun b hb hpid => hne (howner b hb hpid))
  · refine Ends.bind (T := ReadsPid cfg i pid)
      ((readProcess_ends pid .look).mono (fun _ _ h => h.readsPid) fun e _ h he => absurd he h.1)
      fun r s₂ hread => ?_
    split
    · refine Ends.pure (.nothing fun b hb hpid => ?_)
      obtain ⟨p, hp, -⟩ := hread.2 b hb hpid
      cases hp
    · next p =>
      split
      · next hexited =>
        refine Ends.pure (.nothing fun b hb hpid => ?_)
        obtain ⟨q, hq, hlive, -⟩ := hread.2 b hb hpid
        obtain rfl := Option.some.inj hq
        rw [hexited] at hlive
        cases hlive
      · refine (readEnviron_ends (p := p) (hread.1 p rfl) fun b hb hpid => ?_).bind
          fun environment s₃ hinspect => Ends.pure hinspect
        obtain ⟨q, hq, -, hnames⟩ := hread.2 b hb hpid
        obtain rfl := Option.some.inj hq
        exact hnames

/-- Each process that is due is still to be looked at, or found. -/
def Sought (cfg : Config) (i : Identity) (pids : List Nat) (found : List ProcessIdentity)
    (s : State) : Prop :=
  ∀ b, Due cfg i s b → b.pid ∈ pids ∨ ∃ p ∈ found, p.Names b

/-- A process found under a pid takes the place of what was found there. -/
theorem names_put {found : List ProcessIdentity} {p q : ProcessIdentity} {b : Birth}
    (hq : q ∈ found) (hnames : q.Names b) (hp : p.pid = b.pid → p.Names b) :
    ∃ x ∈ put found p, x.Names b := by
  by_cases hpid : q.pid = p.pid
  · exact ⟨p, put_mem found p, hp (hpid ▸ hnames.1)⟩
  · exact ⟨q, mem_put_of hq hpid, hnames⟩

/-- Nobody is due under a pid that shows nothing. -/
theorem Sought.absent {pid : Nat} {pids : List Nat} {found : List ProcessIdentity}
    (h : Sought cfg i (pid :: pids) found s) (habsent : Absent cfg i pid s) :
    Sought cfg i pids found s := by
  intro b hb
  rcases h b hb with hmem | hfound
  · rcases List.mem_cons.mp hmem with hpid | hmem
    · exact absurd hpid (habsent b hb)
    · exact .inl hmem
  · exact .inr hfound

/-- A process that names whoever is due under its pid is found. -/
theorem Sought.found {pid : Nat} {pids : List Nat} {found : List ProcessIdentity}
    {p : ProcessIdentity} (h : Sought cfg i (pid :: pids) found s) (hpid : p.pid = pid)
    (hp : ∀ b, Due cfg i s b → b.pid = pid → p.Names b) :
    Sought cfg i pids (put found p) s := by
  intro b hb
  rcases h b hb with hmem | ⟨q, hq, hnames⟩
  · rcases List.mem_cons.mp hmem with hsame | hmem
    · exact .inr ⟨p, put_mem found p, hp b hb hsame⟩
    · exact .inl hmem
  · exact .inr (names_put hq hnames fun hsame => hp b hb (hsame.symm.trans hpid))

theorem matchProcess_gives {pid : Nat} {pids : List Nat} {found : List ProcessIdentity}
    (hs : Sought cfg i (pid :: pids) found s) :
    Gives (matchProcess cfg i found pid) (fun found' s' => Sought cfg i pids found' s') s := by
  have hsteady : Steady (Sought cfg i (pid :: pids) found) := steady_due _
  have hplain := (uses_inspect cfg pid).mono fun _ => Op.Looks.plain
  refine ((hsteady.ends hplain hs).and (inspect_ends cfg i pid)).attempt ?_ ?_
  · rintro r s' ⟨hsought, hinspect⟩
    cases r with
    | none =>
      refine Ends.pure (hsought.absent fun b hb hpid => ?_)
      obtain ⟨p, hp, -⟩ := hinspect.due b hb hpid
      cases hp
    | some r =>
      obtain ⟨p, environment⟩ := r
      have hhere : ∀ b, Due cfg i s' b → b.pid = pid → environment = b.environ ∧ p.Names b := by
        intro b hb hpid
        obtain ⟨q, hq, hnames⟩ := hinspect.due b hb hpid
        cases hq
        exact ⟨rfl, hnames⟩
      refine Ends.pure ?_
      split
      · exact hsought.found (hinspect.under p environment rfl) fun b hb hpid => (hhere b hb hpid).2
      · next hnot =>
        refine hsought.absent fun b hb hpid => hnot ?_
        rw [(hhere b hb hpid).1]
        exact hb.2.1.1
  · rintro e s' ⟨hsought, habsent⟩
    cases e with
    | fileNotFound => exact Ends.pure (hsought.absent (habsent rfl))
    | _ => exact True.intro

/-- The listing shows everybody who lives. -/
theorem sought_listed (t : State) (hentries : t.entries = s.entries) :
    Sought cfg i (s.entries.map Entry.pid) [] t := by
  rintro b ⟨⟨e, he, rfl, -⟩, -⟩
  rw [hentries] at he
  exact .inl (List.mem_map_of_mem he)

/-- **The scan finds every process of the attempt that was there when it began.** -/
theorem matchingAttemptProcesses_gives (cfg : Config) (i : Identity) :
    Gives (matchingAttemptProcesses cfg i) (fun found s' => Covers cfg i found s') s := by
  refine Ends.attempt (T := fun (pids : List Nat) s' => Sought cfg i pids [] s')
    (U := fun _ _ => True) ?_ ?_ ?_
  · refine steady_true.asks trivial (fun _ _ _ _ => trivial) ?_ fun _ _ _ _ _ => trivial
    rintro s₁ pids s₂ - hx
    simp only [exec, Prod.mk.injEq] at hx
    obtain ⟨hpids, rfl⟩ := hx
    obtain rfl := Except.ok.inj hpids
    exact sought_listed _ rfl
  · intro pids s₁ h
    refine (Ends.foldlM (I := Sought cfg i)
      (fun pid pids found s' hs => matchProcess_gives hs) h).mono (fun found s' hs => ?_)
      fun _ _ _ => trivial
    intro b hb
    rcases hs b hb with hmem | hfound
    · cases hmem
    · exact hfound
  · intro e s₁ _
    cases e <;> exact True.intro

/-! ## Freezing -/

/-- An operation that does not read the pid. -/
def Op.Spares (pid : Nat) (o : Op) : Prop := o.Plain ∧ ∀ purpose, o ≠ .readStat pid purpose

theorem lastRead_noteTry (s : State) (pid pid' : Nat) :
    (s.noteTry pid).lastRead pid' = s.lastRead pid' := rfl

theorem lastRead_noteRead {pid pid' : Nat} (h : pid' ≠ pid) (purpose : Purpose) :
    (s.noteRead pid' purpose).lastRead pid = s.lastRead pid := by
  simp [State.lastRead, State.noteRead, h]

theorem lastRead_exec {pid : Nat} {o : Op} (h : o.Spares pid) :
    (exec o s).2.lastRead pid = s.lastRead pid := by
  cases o with
  | readStat pid' purpose =>
    have hne : pid' ≠ pid := fun hpid => h.2 purpose (by rw [hpid])
    simp only [exec, State.read]
    split
    · rw [lastRead_noteRead hne, lastRead_noteTry]
    · exact lastRead_noteRead hne purpose
  | iterdir l => cases l <;> rfl
  | pidfdOpen pid' sig =>
    simp only [exec]
    split <;> rfl
  | pidfdSend b sig =>
    simp only [exec]
    split
    · split
      · split
        · exact congrArg (List.find? _) (s.deliver_rest sig b).2.2.1
        · rfl
      · rfl
    · rfl
  | kill pid' sig =>
    simp only [exec]
    split
    · exact congrArg (List.find? _) (s.deliver_rest sig _).2.2.1
    · rfl
  | _ => rfl

/-- What was last read of a pid stays known until the pid is read again. -/
theorem recent_ends {α : Type} {p : ProcessIdentity} {q : Server α}
    (hq : q.Uses (Op.Spares p.pid)) (hs : Recent p s) :
    Ends machine interfering q (fun _ s' => Recent p s') (fun _ s' => Recent p s') s := by
  refine Ends.keeping ?_ ?_ hq hs
  · rintro t t' ⟨r, hr, hsc, hknown⟩ ho
    have hmoved := interfering_moved ho
    refine ⟨r, ?_, hmoved.scanned ▸ hsc, known_firm p r.births t t' hmoved.toLeads hknown⟩
    exact (congrArg (List.find? _) hmoved.reads).trans hr
  · rintro o t ho ⟨r, hr, hsc, hknown⟩
    refine ⟨r, (lastRead_exec ho).trans hr, exec_scanned ho.1 t ▸ hsc, ?_⟩
    exact known_firm p r.births t _ (exec_leads o t) hknown

theorem uses_spares {pid pid' : Nat} {sig : Signal} (hne : pid' ≠ pid) {o : Op}
    (h : o.Signals pid' sig) : o.Spares pid := by
  refine ⟨h.plain, fun purpose ho => hne ?_⟩
  subst ho
  exact h.symm

/-- What the read finds is known by it. -/
theorem ReadsNow.recent {pid : Nat} {p : ProcessIdentity} (h : ReadsNow pid (some p) s) :
    Recent p s := by
  obtain ⟨hpid, rd, hrd, hsc, hnext, hlive⟩ := h
  obtain rfl := hpid p rfl
  refine ⟨rd, hrd, hsc, hnext, fun b hb hsame hid => ?_⟩
  obtain ⟨q, hq, -, hnames⟩ := hlive b hb hsame hid
  cases hq
  exact hnames

/-- A read that finds nobody alive leaves nobody to know. -/
theorem ReadsNow.vacant {r : Option ProcessIdentity} {q : ProcessIdentity}
    (h : ReadsNow q.pid r s) (hr : ∀ p, r = some p → p.exited = true) : Recent q s := by
  obtain ⟨-, rd, hrd, hsc, hnext, hlive⟩ := h
  refine ⟨rd, hrd, hsc, hnext, fun b hb hsame hid => ?_⟩
  obtain ⟨p, hp, hexited, -⟩ := hlive b hb hsame hid
  rw [hr p hp] at hexited
  cases hexited

/-- What the snapshot holds so far. -/
structure Gathers (cfg : Config) (i : Identity) (pids : List Nat) (ps : List ProcessIdentity)
    (s : State) : Prop where
  sought : Sought cfg i pids ps s
  keyed : Keyed ps
  recent : ∀ p ∈ ps, Recent p s

theorem mem_put_keyed {ps : List ProcessIdentity} (h : Keyed ps) {p q : ProcessIdentity}
    (hq : q ∈ put ps p) : q = p ∨ q ∈ ps ∧ q.pid ≠ p.pid := by
  rcases of_mem_put hq with rfl | hmem
  · exact .inl rfl
  · by_cases hpid : q.pid = p.pid
    · exact .inl (List.inj_on_of_nodup_map (put_keyed h p) hq (put_mem ps p) hpid)
    · exact .inr ⟨hmem, hpid⟩

theorem readInto_gives {pid : Nat} {pids : List Nat} {ps : List ProcessIdentity}
    (hs : Gathers cfg i (pid :: pids) ps s) :
    Gives (readInto ps pid) (Gathers cfg i pids) s := by
  have hsteady : Steady (Sought cfg i (pid :: pids) ps) := steady_due _
  -- the processes under other pids are as recent as before
  have hothers : Gives (readProcess pid)
      (fun _ s' => ∀ q : { q // q ∈ ps ∧ q.pid ≠ pid }, Recent q.val s') s := by
    have hone : ∀ q : { q // q ∈ ps ∧ q.pid ≠ pid }, Ends machine interfering (readProcess pid)
        (fun _ s' => Recent q.val s') (fun _ s' => Recent q.val s') s := by
      rintro ⟨q, hq, hne⟩
      refine recent_ends (uses_readProcess ⟨by simp [Op.Plain], fun purpose ho => hne ?_⟩)
        (hs.recent q hq)
      exact (Op.readStat.inj ho).1.symm
    exact (Ends.all hone).mono (fun _ _ h => h) fun _ _ _ => trivial
  have hread : Gives (readProcess pid) (fun r s' => ReadsNow pid r s') s :=
    (readProcess_ends pid .look).mono (fun _ _ h => h) fun _ _ _ => trivial
  have hplain : (readProcess pid).Uses Op.Plain := uses_readProcess (by simp [Op.Plain])
  have hsought := hsteady.gives hplain hs.sought
  refine (gives_and hsought (gives_and hothers hread)).bind ?_
  rintro r s' ⟨hsought, hothers, hread⟩
  have hdue : ∀ b, Due cfg i s' b → b.pid = pid → ∃ p, r = some p ∧ p.exited = false ∧ p.Names b :=
    hread.readsPid.2
  have hkeep : (∀ p, r = some p → p.exited = true) → Gathers cfg i pids ps s' := by
    intro hgone
    refine ⟨hsought.absent fun b hb hpid => ?_, hs.keyed, fun q hq => ?_⟩
    · obtain ⟨p, hp, hlive, -⟩ := hdue b hb hpid
      rw [hgone p hp] at hlive
      cases hlive
    · by_cases hpid : q.pid = pid
      · subst hpid
        exact hread.vacant hgone
      · exact hothers ⟨q, hq, hpid⟩
  cases r with
  | none => exact Ends.pure (hkeep nofun)
  | some p =>
    refine Ends.pure ?_
    split
    · next hexited => exact hkeep fun q hq => Option.some.inj hq ▸ hexited
    · have hpid := hread.1 p rfl
      refine ⟨hsought.found hpid fun b hb hsame => ?_, put_keyed hs.keyed p, fun q hq => ?_⟩
      · obtain ⟨q, hq, -, hnames⟩ := hdue b hb hsame
        cases hq
        exact hnames
      · rcases mem_put_keyed hs.keyed hq with rfl | ⟨hq, hne⟩
        · exact hread.recent
        · exact hothers ⟨q, hq, hpid ▸ hne⟩

/-- A tree that covers the processes that are due, read one process a pid. -/
structure Found (cfg : Config) (i : Identity) (ps : List ProcessIdentity) (s : State) : Prop where
  covers : Covers cfg i ps s
  recent : ∀ p ∈ ps, Recent p s
  single : ∀ p ∈ ps, ∀ q ∈ ps, p.pid = q.pid → p = q

theorem descendants_gives {roots : List Nat} (hs : ∀ b, Due cfg i s b → b.pid ∈ roots) :
    Gives (descendants cfg roots) (Found cfg i) s := by
  refine Ends.bind
    (T := fun (pids : List Nat) s' => (∀ b, Due cfg i s' b → b.pid ∈ roots) ∧
      Sought cfg i pids [] s') ?_ ?_
  · refine (steady_due _).asks hs (fun _ _ _ _ => trivial) ?_ fun _ _ _ _ _ => trivial
    rintro s₁ pids s₂ hroots hx
    simp only [exec, Prod.mk.injEq] at hx
    obtain ⟨hpids, rfl⟩ := hx
    obtain rfl := Except.ok.inj hpids
    exact ⟨hroots, sought_listed _ rfl⟩
  · rintro pids s₁ ⟨hroots, hsought⟩
    have hread : Gives (List.foldlM readInto [] pids) (Gathers cfg i []) s₁ :=
      Ends.foldlM (I := Gathers cfg i) (fun pid pids ps s' hs => readInto_gives hs)
        ⟨hsought, List.nodup_nil, fun p hp => by cases hp⟩
    refine (gives_and ((steady_due _).gives (uses_foldlM_readInto pids []) hroots) hread).bind ?_
    rintro processes s₂ ⟨hroots, hsought, hkeyed, hrecent⟩
    -- what is picked is in the snapshot, and so is every root that was read
    have hpick := descend_pick cfg (selectAll_saturates ⟨processes, hkeyed⟩ roots)
    refine Ends.pure ⟨fun b hb => ?_, fun p hp => hrecent p ((hpick.mem_iff p).mp hp).1,
      fun p hp q hq => List.inj_on_of_nodup_map hkeyed ((hpick.mem_iff p).mp hp).1
        ((hpick.mem_iff q).mp hq).1⟩
    rcases hsought b hb with hmem | ⟨p, hp, hnames⟩
    · cases hmem
    · exact ⟨p, (hpick.mem_iff p).mpr ⟨hp, p.pid, hnames.1 ▸ hroots b hb, .refl⟩, hnames⟩

theorem findTree_gives (initial : List ProcessIdentity) :
    Gives (findTree cfg i initial) (Found cfg i) s := by
  refine Ends.bind (firm_true.gives _ trivial) fun seeds s₁ _ => ?_
  refine (matchingAttemptProcesses_gives cfg i).bind fun found s₂ hfound => ?_
  refine descendants_gives fun b hb => ?_
  obtain ⟨p, hp, hnames⟩ := hfound b hb
  obtain ⟨q, hq, hpid⟩ := hasPid_puts (l := seeds) found (.inr ⟨p, hp, hnames.1⟩)
  exact List.mem_map.mpr ⟨q, hq, hpid⟩

theorem tried_stays {α : Type} {r : Read} (hs : r ∈ s.tried) (q : Server α) :
    Ends machine interfering q (fun _ s' => r ∈ s'.tried) (fun _ s' => r ∈ s'.tried) s :=
  Ends.keeping (fun _ _ hr ho => (interfering_moved ho).tries hr)
    (fun o t _ hr => (exec_leads o t).tries hr) (uses_any q) hs

/-- A pid keeps its last read while the others move. -/
theorem lastRead_others {pid : Nat} {r : Read} {t : State} (hs : s.lastRead pid = some r)
    (ho : interfering.others s t) : t.lastRead pid = some r :=
  (congrArg (List.find? _) (interfering_moved ho).reads).trans hs

theorem noteTry_tries {pid : Nat} {r : Read} (hs : s.lastRead pid = some r) :
    r ∈ (s.noteTry pid).tried := by
  simp [State.noteTry, hs]

theorem pidfdOpen_tries {pid : Nat} {r : Read} (hs : s.lastRead pid = some r) :
    Ends machine interfering (ask (.pidfdOpen pid .stop)) (fun _ s' => r ∈ s'.tried)
      (fun e s' => e ≠ .os → r ∈ s'.tried) s := by
  have hexec : ∀ t : State, t.lastRead pid = some r →
      r ∈ (machine.exec (.pidfdOpen pid .stop) t).2.tried := fun t ht => noteTry_tries ht
  refine Ends.op interfering_early (fun t ho => lastRead_others hs ho) ?_ ?_ ?_
  · rintro t e - (hnone | ⟨e', he, hfault⟩) hos
    · cases hnone
    · cases he
      exact absurd (by simpa [Op.mayFail] using hfault) hos
  · rintro t b t' ht hx
    have hr := hexec t ht
    rwa [hx] at hr
  · rintro t e t' ht hx -
    have hr := hexec t ht
    rwa [hx] at hr

theorem readStat_tries {pid : Nat} {r : Read} (hs : s.lastRead pid = some r) :
    Ends machine interfering (ask (.readStat pid (.check .stop))) (fun _ s' => r ∈ s'.tried)
      (fun e s' => e = .fileNotFound → r ∈ s'.tried) s := by
  have hexec : ∀ t : State, t.lastRead pid = some r →
      r ∈ (machine.exec (.readStat pid (.check .stop)) t).2.tried := fun t ht => noteTry_tries ht
  refine Ends.op interfering_early (fun t ho => lastRead_others hs ho) ?_ ?_ ?_
  · rintro t e - (hnone | ⟨e', he, hfault⟩) rfl
    · cases hnone
    · cases he
      cases hfault
  · rintro t p t' ht hx
    have hr := hexec t ht
    rwa [hx] at hr
  · rintro t e t' ht hx -
    have hr := hexec t ht
    rwa [hx] at hr

theorem signalProcessByStartTicks_tries {p : ProcessIdentity} {r : Read}
    (hs : s.lastRead p.pid = some r) :
    Ends machine interfering (signalProcessByStartTicks p .stop) (fun _ s' => r ∈ s'.tried)
      (fun e s' => e = .processLookup ∨ e = .fileNotFound → r ∈ s'.tried) s := by
  have hread : Ends machine interfering (readProcess p.pid (.check .stop))
      (fun _ s' => r ∈ s'.tried) (fun e _ => e ≠ .processLookup ∧ e ≠ .fileNotFound) s := by
    refine (readStat_tries hs).attempt (fun _ _ h => h) fun e s' h => ?_
    cases e with
    | fileNotFound => exact h rfl
    | uncaught => exact Ends.raise (by simp)
    | _ => exact Ends.raise (by simp)
  refine Ends.bind (T := fun _ s' => r ∈ s'.tried)
    (hread.mono (fun _ _ h => h) fun e _ h he => ?_) fun current s' hr => ?_
  · exact (he.elim h.1 h.2).elim
  · exact (tried_stays hr _).mono (fun _ _ h => h) fun _ _ h _ => h

/-- The attempt to stop a process is noted, unless it fails. -/
theorem signalProcess_tries {p : ProcessIdentity} {r : Read} (hs : s.lastRead p.pid = some r) :
    Ends machine interfering (signalProcess cfg p .stop) (fun _ s' => r ∈ s'.tried)
      (fun e s' => e = .processLookup ∨ e = .fileNotFound → r ∈ s'.tried) s := by
  have hopen := pidfdOpen_tries hs
  have hstart := signalProcessByStartTicks_tries hs
  unfold signalProcess
  split
  · exact hstart
  · refine hopen.attempt (fun b s' hr => ?_) fun e s' hr => ?_
    · exact (tried_stays hr _).mono (fun _ _ h => h) fun _ _ h _ => h
    · cases e with
      | processLookup => exact hr (by simp)
      | unsupported => exact (tried_stays (hr (by simp)) _).mono (fun _ _ h => h) fun _ _ h _ => h
      | fileNotFound => exact fun _ => hr (by simp)
      | _ => exact Ends.raise (by simp)

/-- Where a signal to stop a process ends with nothing to report, so does the freezing. -/
theorem freezeProcess_gives {frozen : List ProcessIdentity} {p : ProcessIdentity}
    (h : Ends machine interfering (signalProcess cfg p .stop) (fun _ s' => P s')
      (fun e s' => e = .processLookup ∨ e = .fileNotFound → P s') s) :
    Gives (freezeProcess cfg frozen p) (fun _ s' => P s') s := by
  refine h.attempt (fun _ _ h => h) fun e s' h => ?_
  cases e with
  | processLookup => exact h (.inl rfl)
  | fileNotFound => exact h (.inr rfl)
  | unsupported => exact Ends.bind (firm_true.gives _ trivial) fun _ _ _ => trivial
  | os => exact Ends.bind (firm_true.gives _ trivial) fun _ _ _ => trivial
  | _ => exact True.intro

/-- A process is tried when its turn comes, and is known until then. -/
theorem freezeProcess_tried {frozen fresh rest : List ProcessIdentity} {q : ProcessIdentity}
    (hsingle : ∀ p ∈ fresh, p.pid = q.pid → p = q)
    (hs : ∀ p ∈ fresh, (p ∈ q :: rest ∧ Recent p s) ∨ Tried p s) :
    Gives (freezeProcess cfg frozen q)
      (fun _ s' => ∀ p ∈ fresh, (p ∈ rest ∧ Recent p s') ∨ Tried p s') s := by
  have hone : ∀ p : { p // p ∈ fresh }, Ends machine interfering (signalProcess cfg q .stop)
      (fun _ s' => (p.val ∈ rest ∧ Recent p.val s') ∨ Tried p.val s')
      (fun e s' => e = .processLookup ∨ e = .fileNotFound →
        (p.val ∈ rest ∧ Recent p.val s') ∨ Tried p.val s') s := by
    rintro ⟨p, hp⟩
    have hplain := (uses_signalProcess cfg q .stop).mono fun _ => Op.Signals.plain
    rcases hs p hp with ⟨hmem, hrecent⟩ | htried
    · by_cases hpid : p.pid = q.pid
      · obtain rfl := hsingle p hp hpid
        obtain ⟨r, hr, -, hknown⟩ := hrecent
        have hfirm := (known_firm p r.births).steady.ends hplain hknown
        have hsame : r.pid = p.pid := by simpa using List.find?_some hr
        refine ((signalProcess_tries hr).and hfirm).mono (fun _ s' h => .inr ?_)
          fun e s' h he => .inr ?_
        · exact ⟨r, h.1, hsame, h.2⟩
        · exact ⟨r, h.1 he, hsame, h.2⟩
      · have hrest : p ∈ rest := (List.mem_cons.mp hmem).resolve_left fun h => hpid (h ▸ rfl)
        have hspares := (uses_signalProcess cfg q .stop).mono fun _ => uses_spares (Ne.symm hpid)
        exact (recent_ends hspares hrecent).mono (fun _ _ h => .inl ⟨hrest, h⟩)
          fun _ _ h _ => .inl ⟨hrest, h⟩
    · exact ((tried_firm p).steady.ends hplain htried).mono (fun _ _ h => .inr h)
        fun _ _ h _ => .inr h
  refine freezeProcess_gives ((Ends.all hone).mono (fun _ _ h p hp => h ⟨p, hp⟩) ?_)
  exact fun _ _ h he p hp => h ⟨p, hp⟩ he

theorem freeze_tried {frozen fresh : List ProcessIdentity}
    (hsingle : ∀ p ∈ fresh, ∀ q ∈ fresh, p.pid = q.pid → p = q)
    (hs : ∀ p ∈ fresh, Recent p s) :
    Gives (fresh.forM (freezeProcess cfg frozen)) (fun _ s' => ∀ p ∈ fresh, Tried p s') s := by
  have hloop : Gives (fresh.forM (freezeProcess cfg frozen))
      (fun _ s' => [] ⊆ fresh ∧ ∀ p ∈ fresh, (p ∈ [] ∧ Recent p s') ∨ Tried p s') s := by
    refine Ends.forM (I := fun rest s' =>
      rest ⊆ fresh ∧ ∀ p ∈ fresh, (p ∈ rest ∧ Recent p s') ∨ Tried p s') ?_
      ⟨List.Subset.refl _, fun p hp => .inl ⟨hp, hs p hp⟩⟩
    rintro q rest s₁ ⟨hsub, h₁⟩
    rw [List.cons_subset] at hsub
    refine (freezeProcess_tried (fun p hp => hsingle p hp q hsub.1) h₁).mono (fun _ _ h => ?_)
      fun _ _ _ => trivial
    exact ⟨hsub.2, h⟩
  refine hloop.mono (fun _ s' h p hp => ?_) fun _ _ _ => trivial
  rcases h.2 p hp with ⟨hnil, -⟩ | htried
  · cases hnil
  · exact htried

/-- **What is frozen names every process of the attempt that is due.** -/
theorem freezeRounds_gives {initial : List ProcessIdentity} {n : Nat}
    {frozen : List ProcessIdentity} (hs : ∀ p ∈ frozen, Tried p s) :
    Gives (freezeRounds cfg i initial n frozen) (fun ps s' => Covers cfg i ps s') s := by
  induction n generalizing frozen s with
  | zero => exact Ends.bind (firm_true.gives _ trivial) fun _ _ _ => trivial
  | succ n ih =>
    refine (gives_and ((triedAll_firm frozen).gives _ hs) (findTree_gives initial)).bind ?_
    rintro current s₁ ⟨hfrozen, hcovers, hrecent, hsingle⟩
    have hfresh : ∀ p ∈ current.filter (fun p => !hasPid frozen p.pid), p ∈ current :=
      fun p hp => List.mem_of_mem_filter hp
    have hsteady : Steady fun t => Covers cfg i current t ∧ ∀ p ∈ frozen, Tried p t :=
      (steady_due _).and (triedAll_firm frozen).steady
    refine (gives_and (hsteady.gives (uses_forM (uses_freezeProcess cfg frozen) _)
      ⟨hcovers, hfrozen⟩) (freeze_tried (fun p hp q hq => hsingle p (hfresh p hp) q (hfresh q hq))
        fun p hp => hrecent p (hfresh p hp))).bind ?_
    rintro _ s₂ ⟨⟨hcovers, hfrozen⟩, htried⟩
    split
    · next hempty =>
      refine Ends.pure fun b hb => ?_
      obtain ⟨p, hp, hnames⟩ := hcovers b hb
      have hpid : hasPid frozen p.pid = true := by
        by_contra hnot
        have hmem : p ∈ current.filter fun p => !hasPid frozen p.pid :=
          List.mem_filter.mpr ⟨hp, by simpa using hnot⟩
        rw [hempty] at hmem
        cases hmem
      obtain ⟨q, hq, hsame⟩ := List.any_eq_true.mp hpid
      exact ⟨q, hq, (hfrozen q hq).due hb ((beq_iff_eq.mp hsame).trans hnames.1)⟩
    · refine ih fun p hp => ?_
      rcases of_mem_puts hp with hp | hp
      · exact htried p hp
      · exact hfrozen p hp

/-! ## Waiting -/

/-- Each process that is due is named by one that is still to be read, or by one that is left. -/
def Awaited (cfg : Config) (i : Identity) (ps left : List ProcessIdentity) (s : State) : Prop :=
  ∀ b, Due cfg i s b → (∃ p ∈ ps, p.Names b) ∨ ∃ p ∈ left, p.Names b

theorem stillThere_gives {expected : ProcessIdentity} {ps left : List ProcessIdentity}
    (hs : Awaited cfg i (expected :: ps) left s) :
    Gives (stillThere left expected) (fun left' s' => Awaited cfg i ps left' s') s := by
  refine (readProcess_gives cfg i (steady_due _) expected.pid hs).bind ?_
  rintro r s' ⟨hawaited, hread⟩
  refine Ends.pure fun b hb => ?_
  -- what was read names whoever is due under the pid
  have hhere : b.pid = expected.pid → ∃ p, r = some p ∧ p.exited = false ∧ p.Names b :=
    hread.2 b hb
  cases r with
  | none =>
    rcases hawaited b hb with ⟨q, hq, hnames⟩ | hleft
    · rcases List.mem_cons.mp hq with rfl | hq
      · obtain ⟨p, hp, -⟩ := hhere hnames.1.symm
        cases hp
      · exact .inl ⟨q, hq, hnames⟩
    · exact .inr hleft
  | some p =>
    have hp : p.pid = b.pid → p.Names b := by
      intro hsame
      obtain ⟨q, hq, -, hnames⟩ := hhere (hsame.symm.trans (hread.1 p rfl))
      cases hq
      exact hnames
    simp only
    split
    · rcases hawaited b hb with ⟨q, hq, hnames⟩ | ⟨q, hq, hnames⟩
      · rcases List.mem_cons.mp hq with rfl | hq
        · exact .inr ⟨p, put_mem left p, hp ((hread.1 p rfl).trans hnames.1)⟩
        · exact .inl ⟨q, hq, hnames⟩
      · exact .inr (names_put hq hnames hp)
    · next hgone =>
      rcases hawaited b hb with ⟨q, hq, hnames⟩ | hleft
      · rcases List.mem_cons.mp hq with rfl | hq
        · refine absurd ?_ hgone
          obtain ⟨x, hx, hlive, hsame⟩ := hhere hnames.1.symm
          cases hx
          simp [confirms, hlive, hsame.2.trans hnames.2.symm]
        · exact .inl ⟨q, hq, hnames⟩
      · exact .inr hleft

theorem remaining_gives {ps : List ProcessIdentity} (hs : Covers cfg i ps s) :
    Gives (remaining ps) (fun left s' => Covers cfg i left s') s := by
  have hloop : Gives (remaining ps) (fun left s' => Awaited cfg i [] left s') s :=
    Ends.foldlM (I := Awaited cfg i) (fun p ps left s' hs => stillThere_gives hs)
      fun b hb => .inl (hs b hb)
  refine hloop.mono (fun left s' h b hb => ?_) fun _ _ _ => trivial
  rcases h b hb with ⟨p, hp, -⟩ | hleft
  · cases hp
  · exact hleft

theorem covers_steady (cfg : Config) (i : Identity) (ps : List ProcessIdentity) :
    Steady (Covers cfg i ps) := steady_due _

theorem waitRounds_gives {deadline n : Nat} {ps : List ProcessIdentity}
    (hs : Covers cfg i ps s) :
    Gives (waitRounds deadline n ps) (fun left s' => Covers cfg i left s') s := by
  induction n generalizing ps s with
  | zero => exact Ends.pure hs
  | succ n ih =>
    unfold waitRounds
    split
    · exact Ends.pure hs
    · refine ((covers_steady cfg i ps).gives (uses_ask (by simp [Op.Plain])) hs).bind
        fun now s₁ h₁ => ?_
      split
      · refine ((covers_steady cfg i ps).gives (uses_ask (by simp [Op.Plain])) h₁).bind
          fun _ s₂ h₂ => ?_
        exact (remaining_gives h₂).bind fun left s₃ h₃ => ih h₃
      · exact Ends.pure h₁

/-- **Who is due and not left has exited.** -/
theorem waitForExit_gives {timeout : Nat} {ps : List ProcessIdentity} (hs : Covers cfg i ps s) :
    Gives (waitForExit ps timeout) (fun left s' => Covers cfg i left s') s := by
  refine ((covers_steady cfg i ps).gives (uses_ask (by simp [Op.Plain])) hs).bind
    fun now s₁ h₁ => ?_
  exact (remaining_gives h₁).bind fun left s₂ h₂ => waitRounds_gives h₂

theorem killRemaining_gives {left : List ProcessIdentity} (hs : Covers cfg i left s) :
    Gives (killRemaining cfg left) (fun left s' => Covers cfg i left s') s := by
  unfold killRemaining
  split
  · exact Ends.pure hs
  · refine ((covers_steady cfg i left).gives (plain_signalTree cfg left .kill) hs).bind
      fun _ s₁ h₁ => ?_
    exact waitForExit_gives h₁

/-! ## The request -/

/-- An answer that confirms the exit leaves nobody who is due. -/
def Vacated (cfg : Config) (i : Identity) (o : SupervisorObservation) (s : State) : Prop :=
  o.exitConfirmed = true → ∀ b, ¬ Due cfg i s b

theorem vacated_of_covers {o : SupervisorObservation} (hs : Covers cfg i [] s) :
    Vacated cfg i o s := by
  intro _ b hb
  obtain ⟨p, hp, -⟩ := hs b hb
  cases hp

/-- The last look at the clock, when nobody is left. -/
theorem answer_gives {f : Nat → SupervisorObservation} (hs : Covers cfg i [] s) :
    Gives ((ask .time).bind fun observedAt => .pure (f observedAt)) (Vacated cfg i) s :=
  ((covers_steady cfg i []).gives (uses_ask (by simp [Op.Plain])) hs).bind
    fun _ _ h => Ends.pure (vacated_of_covers h)

theorem terminate_gives {root : Option ProcessIdentity} {processes : List ProcessIdentity} :
    Gives (terminate cfg i root processes) (Vacated cfg i) s := by
  refine (freezeRounds_gives (fun p hp => by cases hp)).bind fun ps s₁ h₁ => ?_
  split
  · next hempty =>
    subst hempty
    exact answer_gives h₁
  · refine ((covers_steady cfg i ps).gives (plain_signalTree cfg ps .term) h₁).bind
      fun _ s₂ h₂ => ?_
    refine ((covers_steady cfg i ps).gives (plain_resumeTree cfg ps) h₂).bind fun _ s₃ h₃ => ?_
    refine (waitForExit_gives h₃).bind fun left s₄ h₄ => ?_
    refine (killRemaining_gives h₄).bind fun left' s₅ h₅ => ?_
    split
    · trivial
    · next hempty =>
      rw [not_not] at hempty
      subst hempty
      exact answer_gives h₅

theorem handleRequest_gives {request : List (Text × Value)} {method : Method}
    (hparse : parseRequest cfg request = .ok (method, i)) :
    Gives (handleRequest cfg request) (Vacated cfg i) s := by
  unfold handleRequest
  rw [hparse]
  refine Ends.bind (firm_true.gives _ trivial) fun process s₁ _ => ?_
  refine (matchingAttemptProcesses_gives cfg i).bind fun found s₂ h₂ => ?_
  refine ((covers_steady cfg i found).gives (uses_ask (by simp [Op.Plain])) h₂).bind
    fun observedAt s₃ h₃ => ?_
  split
  · next hempty =>
    subst hempty
    exact Ends.pure (vacated_of_covers h₃)
  · cases method with
    | probe => exact Ends.pure fun h => by cases h
    | terminate => exact terminate_gives

end Reads

/-! ## Owners -/

/-- The processes of the attempt run under the Supervisor's owner. -/
def Owned (cfg : Config) (i : Identity) (s : State) : Prop :=
  ∀ e ∈ s.entries, i.names e.birth.environ = true → e.birth.uid = cfg.expectedUid

theorem owned_acts {cfg : Config} {i : Identity} {s : State} (h : Owned cfg i s)
    (as : List State.Act) : Owned cfg i (s.acts as) := by
  induction as generalizing s with
  | nil => exact h
  | cons a as ih =>
    refine ih fun e he hnames => ?_
    obtain ⟨x, hx, huid, henviron⟩ := State.act_heir he
    rw [← huid]
    exact h x hx (henviron ▸ hnames)

theorem owned_exec {cfg : Config} {i : Identity} {o : Op} {s : State} (h : Owned cfg i s) :
    Owned cfg i (exec o s).2 := by
  intro e he hnames
  obtain ⟨x, hx, hbirth⟩ := exec_birth he
  rw [← hbirth] at hnames ⊢
  exact h x hx hnames

/-- Forks inherit the owner, so that the whole run keeps it. -/
theorem owned_run {cfg : Config} {i : Identity} {α : Type} {p : Server α} {s s' : State}
    {r : Durable.Outcome Error α} (h : Owned cfg i s) (hrun : Runs machine interfering p s r s') :
    Owned cfg i s' := by
  have hkeeps : wp machine interfering p (fun _ t => Owned cfg i t) s := by
    refine wp_invariant ?_ (fun o t _ ht => owned_exec ht) (uses_any p) h
    rintro t t' ht ⟨as, rfl⟩
    exact owned_acts ht as
  exact hrun.sound hkeeps

/-! ## The answer -/

/-- No living process carries the attempt's environment. -/
def Gone (i : Identity) (s : State) : Prop :=
  ∀ e ∈ s.entries, e.mode ≠ .zombie → i.names e.birth.environ = false

/-- Each process of the attempt that was born while the request ran was born before the request
last listed the processes of the attempt, and under no pid for which the request had read, and then
chose to stop, another process. -/
def BornInTime (i : Identity) (s : State) : Prop :=
  ∀ b ∈ s.births, i.names b.environ = true → b.id < s.scanned ∧ s.Untaken b

/-- **A confirmed exit is one.** Whatever forks, exits and reuse of pids run between the
operations, an answer `exited` or `terminated` leaves no living process of the attempt, if those
born during the request were born in time. -/
theorem exitConfirmed_gone {cfg : Config} {request : List (Text × Value)} {method : Method}
    {i : Identity} {s s' : State} {o : SupervisorObservation}
    (hparse : parseRequest cfg request = .ok (method, i)) (howned : Owned cfg i s)
    (hrun : Runs machine interfering (handleRequest cfg request) s (.returned o) s')
    (hexit : o.exitConfirmed = true) (hborn : BornInTime i s') : Gone i s' := by
  intro e he hlive
  by_contra hnames
  rw [Bool.not_eq_false] at hnames
  have hdue := (handleRequest_gives hparse).returned hrun hexit e.birth
  have huid := owned_run howned hrun e he hnames
  refine hdue ⟨⟨e, he, rfl, hlive⟩, ⟨hnames, huid⟩, ?_⟩
  rcases s'.accounted e he with hbirth | ⟨hid, hreads⟩
  · exact hborn e.birth hbirth hnames
  · exact ⟨hid, fun r hr _ => hreads r (s'.triedRead hr)⟩

/-! ## A worker that forks -/

instance (s : State) (b : Birth) : Decidable (s.Untaken b) :=
  inferInstanceAs (Decidable (∀ r ∈ s.tried, r.pid = b.pid → b.id < r.births))

instance (i : Identity) (s : State) : Decidable (BornInTime i s) :=
  inferInstanceAs (Decidable (∀ b ∈ s.births, i.names b.environ = true →
    b.id < s.scanned ∧ s.Untaken b))

instance (cfg : Config) (i : Identity) (s : State) : Decidable (Owned cfg i s) :=
  inferInstanceAs (Decidable (∀ e ∈ s.entries, i.names e.birth.environ = true →
    e.birth.uid = cfg.expectedUid))

instance (i : Identity) (s : State) : Decidable (Gone i s) :=
  inferInstanceAs (Decidable (∀ e ∈ s.entries, e.mode ≠ .zombie → i.names e.birth.environ = false))

def sampleConfig : Config where
  expectedUid := 1000
  termGrace := 0
  killGrace := 0
  pidfd := true
  isUuid _ := true
  sets := { order := id, perm := fun pids => .refl pids }

def sampleIdentity : Identity where
  board := codePoints "default"
  cardId := codePoints "t"
  runId := 4
  workerPid := 100

def sampleRequest : List (Text × Value) :=
  [(codePoints "v", .int 1), (codePoints "id", .str []),
    (codePoints "method", .str (codePoints "terminate")),
    (codePoints "params", .dict [(codePoints "board", .str (codePoints "default")),
      (codePoints "card_id", .str (codePoints "t")), (codePoints "run_id", .int 4),
      (codePoints "worker_pid", .int 100)])]

theorem sampleRequest_parses :
    parseRequest sampleConfig sampleRequest = .ok (.terminate, sampleIdentity) := rfl

def sampleWorker : Entry where
  birth :=
    { id := 0, pid := 100, startTicks := 7, uid := 1000
      environ := sampleIdentity.expectedEnvironment }
  parent := 1
  group := 100
  mode := .running

def sampleNeighbour : Entry where
  birth := { id := 1, pid := 50, startTicks := 3, uid := 0, environ := [] }
  parent := 1
  group := 50
  mode := .running

def sampleRow : TaskRow where
  status := codePoints "running"
  createdBy := codePoints "hollysys-controller"
  currentRunId := some 4
  workerPid := some 100

/-- The worker beside a process of another owner. -/
def sampleState : State where
  entries := [sampleNeighbour, sampleWorker]
  nextBirth := 2
  boards _ := some fun _ => some sampleRow
  pidfdOpen := true
  pidfdSend := true
  now := 0
  reads := []
  tried := []
  births := []
  scanned := 2
  stops := []
  held := []
  distinct := by decide
  born := by decide
  stopsBorn := nofun
  scannedBorn := by decide
  readsBorn := nofun
  triedRead := nofun
  accounted := by simp [sampleWorker, sampleNeighbour]

/-- The request while the processes act as a script has it, before one operation after another. -/
def underScript (script : List (List State.Act)) :
    Durable.Outcome Error SupervisorObservation × State :=
  machine.interleaved (handleRequest sampleConfig sampleRequest)
    (script.map fun as s => s.acts as) sampleState

theorem underScript_runs (script : List (List State.Act)) :
    Runs machine interfering (handleRequest sampleConfig sampleRequest) sampleState
      (underScript script).1 (underScript script).2 := by
  have hstill : ∀ s, interfering.others s s := fun s => ⟨[], rfl⟩
  have hsound : ∀ s o, interfering.faults s o .none := fun _ _ => .inl rfl
  refine interleaved_runs hstill hsound _ _ (fun m hm s => ?_) _
  obtain ⟨as, -, rfl⟩ := List.mem_map.mp hm
  exact ⟨as, rfl⟩

/-- The worker forks before the request lists the processes, and both exit on their signals. -/
def forksEarly : List (List State.Act) :=
  List.replicate 5 [] ++ [[State.Act.fork 100 101 9]] ++ List.replicate 54 [] ++
    [[State.Act.exit 100, .exit 101]]

/-- The worker is resumed, forks in the handler of its signal, and exits. -/
def forksLate : List (List State.Act) :=
  List.replicate 38 [] ++ [[State.Act.fork 100 101 9, .exit 100]]

/-- What the request answers when it has signalled its processes once. -/
def sampleAnswer (processes : Nat) : SupervisorObservation where
  state := .terminated
  observedAt := 0
  workerPid := 100
  processStartTicks := some 7
  signal := some (codePoints "SIGTERM")
  processCount := processes

theorem forksEarly_gone :
    (sampleAnswer 2).exitConfirmed = true ∧ Gone sampleIdentity (underScript forksEarly).2 := by
  have hearly : Owned sampleConfig sampleIdentity sampleState ∧
      (underScript forksEarly).1 = .returned (sampleAnswer 2) ∧
      BornInTime sampleIdentity (underScript forksEarly).2 := by
    decide +kernel
  obtain ⟨howned, hanswer, hborn⟩ := hearly
  have hrun := underScript_runs forksEarly
  rw [hanswer] at hrun
  exact ⟨rfl, exitConfirmed_gone sampleRequest_parses howned hrun rfl hborn⟩

/-- The answer of the Supervisor confirms the exit while the child of the worker lives. -/
theorem forksLate_lives :
    ∃ s', Runs machine interfering (handleRequest sampleConfig sampleRequest) sampleState
        (.returned (sampleAnswer 1)) s' ∧
      (sampleAnswer 1).exitConfirmed = true ∧ ¬ Gone sampleIdentity s' := by
  have hlate : (underScript forksLate).1 = .returned (sampleAnswer 1) ∧
      ¬ Gone sampleIdentity (underScript forksLate).2 := by
    decide +kernel
  have hrun := underScript_runs forksLate
  rw [hlate.1] at hrun
  exact ⟨_, hrun, rfl, hlate.2⟩

end HollysysController.WorkerSupervisor
