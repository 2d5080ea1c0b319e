import HollysysController.SupervisorTermination

/-! # What an error leaves stopped

A termination stops the tree before it signals it. An error on the way leaves processes stopped
unless it comes where the code resumes them: when a signal to stop fails before it stopped anybody
in its round, when the tree does not hold still, or once the tree has been resumed. -/

namespace HollysysController.WorkerSupervisor

open Durable
open Python (Text Value)
open Supervisor (SupervisorObservation)

namespace State

/-- Nobody whom the request stopped is stopped still. -/
def Calm (s : State) : Prop := ∀ b, ¬ s.Halted b

/-- The signals go by pid: the interpreter or the kernel lacks those by descriptor. -/
def ByPid (cfg : Config) (s : State) : Prop :=
  ¬ (cfg.pidfd = true ∧ s.pidfdOpen = true ∧ s.pidfdSend = true)

/-- The request has checked the process under the pid, and is about to signal the pid while
somebody is stopped. -/
def Contested (cfg : Config) (s : State) (pid : Nat) : Prop :=
  s.ByPid cfg ∧ ¬ s.Calm ∧
    ∃ r sig, s.reads.head? = some r ∧ r.pid = pid ∧ r.purpose = .check sig ∧ sig ≠ .cont

end State

/-- A signal to stop. -/
def Op.stopping : Op → Bool
  | .pidfdOpen _ .stop | .pidfdSend _ .stop | .kill _ .stop => true
  | _ => false

/-- An operation of a signal to resume the process under the pid. -/
def Op.Resumes (pid : Nat) : Op → Prop
  | .pidfdOpen pid' .cont | .kill pid' .cont => pid' = pid
  | .pidfdSend b .cont => b.pid = pid
  | .readStat pid' (.check .cont) | .readStat pid' (.recheck .cont) => pid' = pid
  | _ => False

/-- Where a failure of the operation does no harm: nobody is stopped; or a signal to stop fails,
and nobody of its round is stopped; or a signal to resume fails, with an error that is passed
over, and nobody is stopped under its pid. -/
def Harmless (s : State) (o : Op) (e : Error) : Prop :=
  s.Calm ∨ (o.stopping = true ∧ ∀ b ∈ s.held, ¬ s.Halted b) ∨
    (e ≠ .uncaught ∧ ∃ pid, o.Resumes pid ∧ ∀ b, s.Halted b → b.pid ≠ pid)

/-- No process is born under a contested pid. -/
def Uncontested (cfg : Config) : State → List State.Act → Prop
  | _, [] => True
  | s, a :: as =>
    (∀ parent pid ticks, a = .fork parent pid ticks → ¬ s.Contested cfg pid) ∧
      Uncontested cfg (s.act a) as

/-- The processes move as they like but for births under a contested pid, and an operation may
fail where that does no harm. -/
def sparing (cfg : Config) : Setting Op Error State where
  others s s' := ∃ as, s' = s.acts as ∧ Uncontested cfg s as
  faults s o f := f = .none ∨ ∃ e, f = .failBefore e ∧ o.mayFail e = true ∧ Harmless s o e

/-- It is part of what can happen. -/
theorem sparing_interfering {cfg : Config} {α : Type} {p : Server α} {s s' : State}
    {r : Durable.Outcome Error α} (h : Runs machine (sparing cfg) p s r s') :
    Runs machine interfering p s r s' := by
  induction h with
  | pure => exact .pure
  | raise => exact .raise
  | answered ho hf hm _ ih =>
    obtain ⟨as, has, -⟩ := ho
    exact .answered ⟨as, has⟩ (hf.imp id fun ⟨e, he, hmay, _⟩ => ⟨e, he, hmay⟩) hm ih
  | stopped ho hf hm =>
    obtain ⟨as, has, -⟩ := ho
    exact .stopped ⟨as, has⟩ (hf.imp id fun ⟨e, he, hmay, _⟩ => ⟨e, he, hmay⟩) hm

section Sparing

variable {cfg : Config} {s t : State} {b : Birth} {P : State → Prop}

theorem sparing_moved (h : (sparing cfg).others s t) : s.Moved t := by
  obtain ⟨as, rfl, -⟩ := h
  exact s.acts_moved as

/-! ## Stopped processes -/

/-- An operation that stops nobody. -/
def Op.NoStop : Op → Prop
  | .pidfdSend _ .stop | .kill _ .stop => False
  | _ => True

theorem Op.Signals.noStop {pid : Nat} {sig : Signal} (hsig : sig ≠ .stop) {o : Op}
    (h : o.Signals pid sig) : o.NoStop := by
  cases o with
  | pidfdSend b sig' =>
    obtain rfl : sig' = sig := h
    cases sig' <;> trivial
  | kill pid' sig' =>
    rcases h with rfl | rfl
    · cases sig' <;> trivial
    · trivial
  | _ => trivial

theorem Op.Looks.noStop {pid : Nat} {o : Op} (h : o.Looks pid) : o.NoStop := by
  cases o <;> trivial

theorem halted_at (h : s.Halted b) :
    ∃ e, s.at? b.pid = some e ∧ e.birth = b ∧ e.mode = .stopped := by
  obtain ⟨-, e, he, rfl, hmode⟩ := h
  exact ⟨e, State.at?_of_mem he, rfl, hmode⟩

/-- Whoever is stopped under the pid is the process there. -/
theorem halted_eq {e : Entry} {pid : Nat} (h : s.Halted b) (hpid : b.pid = pid)
    (he : s.at? pid = some e) : e.birth = b ∧ e.mode = .stopped := by
  obtain ⟨x, hx, hbirth, hmode⟩ := halted_at h
  obtain rfl := Option.some.inj (he.symm.trans (hpid ▸ hx))
  exact ⟨hbirth, hmode⟩

theorem signalled_entry {sig : Signal} {d : Birth} {e : Entry}
    (h : e ∈ (s.deliver sig d).entries) : ∃ x ∈ s.entries, e = x.hear sig d := by
  have hmap : e ∈ s.entries.map (Entry.hear sig d) := by
    unfold State.deliver at h
    split at h <;> exact h
  obtain ⟨x, hx, rfl⟩ := List.mem_map.mp hmap
  exact ⟨x, hx, rfl⟩

theorem deliver_stops (sig : Signal) (d : Birth) :
    b ∈ (s.deliver sig d).stops → b ∈ s.stops ∨ sig = .stop ∧ b = d := by
  unfold State.deliver
  split
  · next h =>
    intro hb
    exact (List.mem_cons.mp hb).symm.imp id fun hb => ⟨h.1, hb⟩
  · exact .inl

/-- A signal stops at most the process it is for. -/
theorem deliver_halted {sig : Signal} {d : Birth} (h : (s.deliver sig d).Halted b) :
    s.Halted b ∨ sig = .stop ∧ b = d := by
  obtain ⟨hstops, e, he, hbirth, hmode⟩ := h
  by_cases hsame : sig = .stop ∧ b = d
  · exact .inr hsame
  · refine .inl ⟨(deliver_stops sig d hstops).resolve_right hsame, ?_⟩
    obtain ⟨x, hx, rfl⟩ := signalled_entry he
    rw [x.hear_birth] at hbirth
    refine ⟨x, hx, hbirth, ?_⟩
    unfold Entry.hear at hmode
    split at hmode
    · next hd =>
      have hstop : sig ≠ .stop := fun hsig => hsame ⟨hsig, hbirth.symm.trans hd⟩
      unfold Entry.receive at hmode
      split at hmode
      · exact absurd rfl hstop
      · cases hmode
      · exact hmode
    · exact hmode

theorem deliver_cont : ¬ (s.deliver .cont b).Halted b := by
  rintro ⟨-, e, he, hbirth, hmode⟩
  obtain ⟨x, hx, rfl⟩ := signalled_entry he
  rw [x.hear_birth] at hbirth
  rw [Entry.hear, if_pos hbirth] at hmode
  unfold Entry.receive at hmode
  split at hmode
  · next hsig _ => cases hsig
  · cases hmode
  · next hnot => exact hnot rfl hmode

theorem deliver_held {sig : Signal} {d : Birth} (h : b ∈ s.held) : b ∈ (s.deliver sig d).held := by
  unfold State.deliver
  split
  · exact List.mem_cons_of_mem _ h
  · exact h

theorem deliver_held_self {e : Entry} (he : e ∈ s.entries) :
    e.birth ∈ (s.deliver .stop e.birth).held := by
  rw [State.deliver, dif_pos ⟨rfl, s.born e he⟩]
  exact List.mem_cons_self

/-- An operation that stops nobody leaves at most those who were stopped. -/
theorem exec_halted {o : Op} (ho : o.NoStop) (h : (exec o s).2.Halted b) : s.Halted b := by
  cases o with
  | readStat pid purpose => exact (s.read_annotated pid purpose).halted_iff.mp h
  | pidfdOpen pid sig => exact (s.open_annotated pid sig).halted_iff.mp h
  | iterdir l => cases l <;> exact h
  | pidfdSend d sig =>
    simp only [exec] at h
    split at h
    · split at h
      · split at h
        · rcases deliver_halted h with h | ⟨rfl, -⟩
          · exact h
          · exact ho.elim
        · exact h
      · exact h
    · exact h
  | kill pid sig =>
    simp only [exec] at h
    split at h
    · rcases deliver_halted h with h | ⟨rfl, -⟩
      · exact h
      · exact ho.elim
    · exact h
  | _ => exact h

/-! ## Operations -/

theorem sparing_early : (sparing cfg).FailsEarly := by
  rintro s o f (rfl | ⟨e, rfl, _⟩)
  · exact .inl rfl
  · exact .inr ⟨e, rfl⟩

/-- One operation. It fails where that does no harm. -/
theorem asks_spared {o : Op} {Q : o.Ret → State → Prop} {R : Error → State → Prop}
    (hs : ∀ t, (sparing cfg).others s t → P t)
    (hfail : ∀ t e, P t → o.mayFail e = true → Harmless t o e → R e t)
    (hok : ∀ t a t', P t → exec o t = (.ok a, t') → Q a t')
    (herror : ∀ t e t', P t → exec o t = (.error e, t') → R e t') :
    Ends machine (sparing cfg) (ask o) Q R s := by
  refine Ends.op sparing_early hs ?_ hok herror
  rintro t e h (hnone | ⟨e', he, hmay, hharm⟩)
  · cases hnone
  · cases he
    exact hfail t e h hmay hharm

/-- What the moves of the processes keep, and every operation that stops nobody. -/
structure Rests (cfg : Config) (P : State → Prop) : Prop where
  others : ∀ s t, (sparing cfg).others s t → P s → P t
  exec : ∀ o s, o.NoStop → P s → P (exec o s).2

theorem Rests.ends (h : Rests cfg P) {α : Type} {p : Server α} (hp : p.Uses Op.NoStop)
    (hs : P s) : Ends machine (sparing cfg) p (fun _ t => P t) (fun _ t => P t) s :=
  Ends.keeping (fun _ _ hs ho => h.others _ _ ho hs) h.exec hp hs

/-- What is said of those who are stopped still holds while nobody else is stopped. -/
theorem rests_halted (F : Birth → Prop) : Rests cfg fun s => ∀ b, s.Halted b → F b where
  others _ _ ho hs b hb := hs b ((sparing_moved ho).halted b hb)
  exec _ _ ho hs b hb := hs b (exec_halted ho hb)

theorem rests_calm : Rests cfg State.Calm := rests_halted fun _ => False

theorem rests_loose (b : Birth) : Rests cfg fun s => ¬ s.Halted b where
  others _ _ ho hs hb := hs ((sparing_moved ho).halted b hb)
  exec _ _ ho hs hb := hs (exec_halted ho hb)

theorem Rests.and {P' : State → Prop} (h : Rests cfg P) (h' : Rests cfg P') :
    Rests cfg fun s => P s ∧ P' s where
  others s t ho hs := ⟨h.others s t ho hs.1, h'.others s t ho hs.2⟩
  exec o s ho hs := ⟨h.exec o s ho hs.1, h'.exec o s ho hs.2⟩

/-- A failure that only calm excuses. -/
theorem Harmless.calm {o : Op} {e : Error} (h : Harmless s o e) (hstop : o.stopping = false)
    (hresume : ∀ pid, ¬ o.Resumes pid) : s.Calm := by
  rcases h with h | ⟨h, -⟩ | ⟨-, pid, h, -⟩
  · exact h
  · rw [hstop] at h
    cases h
  · exact (hresume pid h).elim

/-- The signal that the operation opens, sends or checks for. -/
def Op.signal : Op → Option Signal
  | .pidfdOpen _ sig | .pidfdSend _ sig | .kill _ sig => some sig
  | .readStat _ (.check sig) | .readStat _ (.recheck sig) => some sig
  | _ => none

theorem Op.Resumes.signal {o : Op} {pid : Nat} (h : o.Resumes pid) : o.signal = some .cont := by
  unfold Op.Resumes at h
  split at h
  all_goals first | rfl | cases h

theorem Op.not_resumes {o : Op} {pid : Nat} (h : o.signal ≠ some .cont) : ¬ o.Resumes pid :=
  fun hresumes => h hresumes.signal

theorem Op.not_stopping {o : Op} (h : o.signal ≠ some .stop) : o.stopping = false := by
  unfold Op.stopping
  split
  all_goals first | rfl | cases h rfl

/-- What `_read_process` gives, from an assertion that the moves of the processes leave. -/
theorem readProcess_spared {pid : Nat} {purpose : Purpose}
    (hs : ∀ t, (sparing cfg).others s t → P t) :
    Ends machine (sparing cfg) (readProcess pid purpose)
      (fun r t => ∃ t₀, P t₀ ∧ t = t₀.read pid purpose ∧ r = (t₀.at? pid).map Entry.identity)
      (fun e t => P t ∧ (e = .uncaught ∧ Harmless t (.readStat pid purpose) .uncaught ∨
        (∃ code, e = .request code) ∧ ∃ e', Harmless t (.readStat pid purpose) e')) s := by
  have hstat : Ends machine (sparing cfg) (ask (.readStat pid purpose))
      (fun p t => ∃ t₀ e, P t₀ ∧ t₀.at? pid = some e ∧ t = t₀.read pid purpose ∧ p = e.identity)
      (fun e t => (e = .fileNotFound ∧ ∃ t₀, P t₀ ∧ t₀.at? pid = none ∧ t = t₀.read pid purpose) ∨
        P t ∧ (e = .os ∨ e = .unparsable ∨ e = .uncaught) ∧
          Harmless t (.readStat pid purpose) e) s := by
    refine asks_spared hs ?_ ?_ ?_
    · rintro t e ht hmay hharm
      refine .inr ⟨ht, ?_, hharm⟩
      simpa [Op.mayFail, or_assoc] using hmay
    · rintro t p t' ht hx
      simp only [WorkerSupervisor.exec, Prod.mk.injEq] at hx
      obtain ⟨hx, rfl⟩ := hx
      cases h : t.at? pid with
      | none => simp [h] at hx
      | some e =>
        rw [h] at hx
        exact ⟨t, e, ht, h, rfl, (Except.ok.inj hx).symm⟩
    · rintro t e t' ht hx
      simp only [WorkerSupervisor.exec, Prod.mk.injEq] at hx
      obtain ⟨hx, rfl⟩ := hx
      cases h : t.at? pid with
      | none =>
        rw [h] at hx
        exact .inl ⟨(Except.error.inj hx).symm, t, ht, h, rfl⟩
      | some e => simp [h] at hx
  refine hstat.attempt ?_ ?_
  · rintro p t ⟨t₀, e, ht, hat, rfl, rfl⟩
    exact ⟨t₀, ht, rfl, by rw [hat]; rfl⟩
  · rintro e t (⟨rfl, t₀, ht, hat, rfl⟩ | ⟨ht, rfl | rfl | rfl, hharm⟩)
    · exact ⟨t₀, ht, rfl, by rw [hat]; rfl⟩
    · exact ⟨ht, .inr ⟨⟨_, rfl⟩, _, hharm⟩⟩
    · exact ⟨ht, .inr ⟨⟨_, rfl⟩, _, hharm⟩⟩
    · exact ⟨ht, .inl ⟨rfl, hharm⟩⟩

theorem pidfdOpen_spared {pid : Nat} {sig : Signal}
    (hs : ∀ t, (sparing cfg).others s t → P t) :
    Ends machine (sparing cfg) (ask (.pidfdOpen pid sig))
      (fun d t => ∃ t₀ e, P t₀ ∧ t₀.Annotated t ∧ t₀.at? pid = some e ∧ d = e.birth)
      (fun e t => (∃ t₀, P t₀ ∧ t₀.Annotated t ∧
          (e = .unsupported ∧ t₀.pidfdOpen = false ∨ e = .processLookup ∧ t₀.at? pid = none)) ∨
        P t ∧ e = .os ∧ Harmless t (.pidfdOpen pid sig) e) s := by
  refine asks_spared hs ?_ ?_ ?_
  · rintro t e ht hmay hharm
    exact .inr ⟨ht, by simpa [Op.mayFail] using hmay, hharm⟩
  · rintro t d t' ht hx
    have hnotes := t.open_annotated pid sig
    rw [hx] at hnotes
    have hfst := congrArg Prod.fst hx
    simp only [WorkerSupervisor.exec] at hfst
    split at hfst
    · cases h : t.at? pid with
      | none => simp [h] at hfst
      | some e =>
        rw [h] at hfst
        exact ⟨t, e, ht, hnotes, h, (Except.ok.inj hfst).symm⟩
    · cases hfst
  · rintro t e t' ht hx
    have hnotes := t.open_annotated pid sig
    rw [hx] at hnotes
    have hfst := congrArg Prod.fst hx
    simp only [WorkerSupervisor.exec] at hfst
    split at hfst
    · cases h : t.at? pid with
      | none =>
        rw [h] at hfst
        exact .inl ⟨t, ht, hnotes, .inr ⟨(Except.error.inj hfst).symm, h⟩⟩
      | some e => simp [h] at hfst
    · next hopen =>
      exact .inl ⟨t, ht, hnotes, .inl ⟨(Except.error.inj hfst).symm, by simpa using hopen⟩⟩

theorem pidfdSend_spared {d : Birth} {sig : Signal} (hs : ∀ t, (sparing cfg).others s t → P t) :
    Ends machine (sparing cfg) (ask (.pidfdSend d sig))
      (fun _ t => ∃ t₀ e, P t₀ ∧ t₀.at? d.pid = some e ∧ e.birth = d ∧ t = t₀.deliver sig d)
      (fun e t => P t ∧ (e = .processLookup ∧ (∀ x, t.at? d.pid = some x → x.birth ≠ d) ∨
        e = .unsupported ∧ t.pidfdSend = false ∨
        e = .os ∧ Harmless t (.pidfdSend d sig) e)) s := by
  refine asks_spared hs ?_ ?_ ?_
  · rintro t e ht hmay hharm
    exact ⟨ht, .inr (.inr ⟨by simpa [Op.mayFail] using hmay, hharm⟩)⟩
  · rintro t _ t' ht hx
    simp only [WorkerSupervisor.exec] at hx
    split at hx
    · split at hx
      · next e he =>
        split at hx
        · next hbirth =>
          obtain ⟨-, rfl⟩ := Prod.mk.inj hx
          exact ⟨t, e, ht, he, hbirth, rfl⟩
        · cases hx
      · cases hx
    · cases hx
  · rintro t e t' ht hx
    simp only [WorkerSupervisor.exec] at hx
    split at hx
    · split at hx
      · next x he =>
        split at hx
        · cases hx
        · next hne =>
          cases hx
          refine ⟨ht, .inl ⟨rfl, fun y hy => ?_⟩⟩
          obtain rfl := Option.some.inj (he.symm.trans hy)
          exact hne
      · next hnone =>
        cases hx
        exact ⟨ht, .inl ⟨rfl, fun y hy => by rw [hnone] at hy; cases hy⟩⟩
    · next hsend =>
      cases hx
      exact ⟨ht, .inr (.inl ⟨rfl, by simpa using hsend⟩)⟩

theorem kill_spared {pid : Nat} {sig : Signal} (hs : ∀ t, (sparing cfg).others s t → P t) :
    Ends machine (sparing cfg) (ask (.kill pid sig))
      (fun _ t => ∃ t₀ e, P t₀ ∧ t₀.at? pid = some e ∧ t = t₀.deliver sig e.birth)
      (fun e t => P t ∧ (e = .processLookup ∧ t.at? pid = none ∨
        e = .os ∧ Harmless t (.kill pid sig) e)) s := by
  refine asks_spared hs ?_ ?_ ?_
  · rintro t e ht hmay hharm
    exact ⟨ht, .inr ⟨by simpa [Op.mayFail] using hmay, hharm⟩⟩
  · rintro t _ t' ht hx
    simp only [WorkerSupervisor.exec] at hx
    split at hx
    · next e he =>
      obtain ⟨-, rfl⟩ := Prod.mk.inj hx
      exact ⟨t, e, ht, he, rfl⟩
    · cases hx
  · rintro t e t' ht hx
    simp only [WorkerSupervisor.exec] at hx
    split at hx
    · cases hx
    · next hnone =>
      cases hx
      exact ⟨ht, .inl ⟨rfl, hnone⟩⟩

/-! ## Resuming -/

/-- A failure that leaves nobody stopped under the pid. -/
theorem Harmless.loose {o : Op} {e : Error} (h : Harmless s o e) (hstop : o.stopping = false)
    (hresume : ∀ pid, o.Resumes pid → pid = b.pid) : ¬ s.Halted b := by
  intro hb
  rcases h with h | ⟨h, -⟩ | ⟨-, pid, h, hpid⟩
  · exact h b hb
  · rw [hstop] at h
    cases h
  · exact hpid b hb (hresume pid h).symm

section Resume

variable {p : ProcessIdentity}

/-- A stopped process is confirmed by the read of its pid. -/
theorem confirms_halted (hb : p.Names b) (h : s.Halted b) :
    confirms p ((s.at? p.pid).map Entry.identity) = true := by
  obtain ⟨e, he, rfl, hmode⟩ := halted_at h
  rw [hb.1, he]
  simp [confirms, Entry.identity, ProcessIdentity.exited, hmode, hb.2]

/-- The check before a signal to resume: the process is confirmed, or it is not stopped. -/
theorem check_resumes (hb : p.Names b) (hP : ∀ t, (sparing cfg).others s t → P t) :
    Ends machine (sparing cfg) (readProcess p.pid (.check .cont))
      (fun r t => ∃ t₀, P t₀ ∧ t₀.Annotated t ∧ (confirms p r = true ∨ ¬ t.Halted b))
      (fun _ t => ¬ t.Halted b) s := by
  refine (readProcess_spared hP).mono ?_ ?_
  · rintro r t ⟨t₀, ht, rfl, rfl⟩
    have hnotes := t₀.read_annotated p.pid (.check .cont)
    refine ⟨t₀, ht, hnotes, ?_⟩
    by_cases h : t₀.Halted b
    · exact .inl (confirms_halted hb h)
    · exact .inr fun h' => h (hnotes.halted_iff.mp h')
  · have hloose : ∀ t e, Harmless t (.readStat p.pid (.check .cont)) e → ¬ t.Halted b :=
      fun t e h => h.loose rfl fun pid hpid => Eq.trans (Eq.symm hpid) hb.1
    rintro e t ⟨-, ⟨-, h⟩ | ⟨-, e', h⟩⟩
    · exact hloose t _ h
    · exact hloose t e' h

theorem signalProcessByStartTicks_resumes (hb : p.Names b) :
    Ends machine (sparing cfg) (signalProcessByStartTicks p .cont) (fun _ t => ¬ t.Halted b)
      (fun _ t => ¬ t.Halted b) s := by
  refine (check_resumes (P := fun _ => True) hb fun _ _ => trivial).bind ?_
  rintro current t ⟨-, -, -, hcurrent⟩
  split
  · next hnot => exact Ends.pure (hcurrent.resolve_left hnot)
  · refine (kill_spared (P := fun _ => True) fun _ _ => trivial).attempt ?_ ?_
    · rintro _ t' ⟨t₀, e, -, he, rfl⟩
      refine (rests_loose b).ends ((uses_recheckSignalled p .cont).mono fun _ =>
        Op.Signals.noStop (by simp)) fun h => ?_
      rcases deliver_halted h with hhalted | ⟨hsig, -⟩
      · rw [(halted_eq hhalted hb.1.symm he).1] at h
        exact deliver_cont h
      · cases hsig
    · rintro e t' ⟨-, ⟨rfl, hnone⟩ | ⟨rfl, hharm⟩⟩
      · refine Ends.pure fun h => ?_
        obtain ⟨x, hx, -⟩ := halted_at h
        rw [← hb.1, hnone] at hx
        cases hx
      · exact Ends.raise (hharm.loose rfl fun pid hpid => Eq.trans (Eq.symm hpid) hb.1)

/-- **A signal to resume reaches whoever is stopped**, unless it fails where nobody is. -/
theorem signalProcess_resumes (hb : p.Names b) :
    Ends machine (sparing cfg) (signalProcess cfg p .cont) (fun _ t => ¬ t.Halted b)
      (fun _ t => ¬ t.Halted b) s := by
  unfold signalProcess
  split
  · exact signalProcessByStartTicks_resumes hb
  · refine (pidfdOpen_spared (P := fun _ => True) fun _ _ => trivial).attempt ?_ ?_
    · rintro d t ⟨t₀, e, -, hnotes, he, rfl⟩
      -- who is stopped is the process of the descriptor
      have hopen : t.Halted b → e.birth = b :=
        fun h => (halted_eq (hnotes.halted_iff.mp h) hb.1.symm he).1
      refine (check_resumes (P := fun t' => t'.Halted b → e.birth = b) hb
        fun t' ho h => hopen ((sparing_moved ho).halted b h)).bind ?_
      rintro current t₁ ⟨t', ht', hnotes', hcurrent⟩
      have hsame : t₁.Halted b → e.birth = b := fun h => ht' (hnotes'.halted_iff.mp h)
      split
      · next hnot => exact Ends.pure (hcurrent.resolve_left hnot)
      · refine (pidfdSend_spared (P := fun t' => t'.Halted b → e.birth = b)
          fun t' ho h => hsame ((sparing_moved ho).halted b h)).attempt ?_ ?_
        · rintro _ t₂ ⟨t', x, ht', hx, hbirth, rfl⟩
          refine Ends.pure fun h => ?_
          rcases deliver_halted h with hhalted | ⟨hsig, -⟩
          · rw [ht' hhalted] at h
            exact deliver_cont h
          · cases hsig
        · rintro err t₂ ⟨ht', ⟨rfl, hgone⟩ | ⟨rfl, -⟩ | ⟨rfl, hharm⟩⟩
          · refine Ends.raise fun h => ?_
            obtain ⟨x, hx, hbirth, -⟩ := halted_at h
            rw [ht' h] at hgone
            exact hgone x hx hbirth
          · exact signalProcessByStartTicks_resumes hb
          · refine Ends.raise fun h => ?_
            refine hharm.loose rfl (fun pid hpid => ?_) h
            rw [← ht' h]
            exact Eq.symm hpid
    · rintro err t (⟨t₀, -, hnotes, ⟨rfl, -⟩ | ⟨rfl, hnone⟩⟩ | ⟨-, rfl, hharm⟩)
      · exact signalProcessByStartTicks_resumes hb
      · refine Ends.pure fun h => ?_
        obtain ⟨x, hx, -⟩ := halted_at (hnotes.halted_iff.mp h)
        rw [← hb.1, hnone] at hx
        cases hx
      · exact Ends.raise (hharm.loose rfl fun pid hpid => Eq.trans (Eq.symm hpid) hb.1)

/-- An error that `_resume_tree` passes over. -/
def Error.Passed (e : Error) : Prop := e.isOs = true ∨ ∃ code, e = .request code

theorem readProcess_passed {pid : Nat} {purpose : Purpose} :
    Ends machine (sparing cfg) (readProcess pid purpose) (fun _ _ => True)
      (fun e t => e.Passed ∨ t.Calm) s := by
  refine (readProcess_spared (P := fun _ => True) fun _ _ => trivial).mono (fun _ _ _ => trivial) ?_
  rintro e t ⟨-, ⟨rfl, hharm⟩ | ⟨hcode, -⟩⟩
  · rcases hharm with h | ⟨h, -⟩ | ⟨h, -⟩
    · exact .inr h
    · cases h
    · exact absurd rfl h
  · exact .inl (.inr hcode)

theorem signalProcessByStartTicks_passed {sig : Signal} :
    Ends machine (sparing cfg) (signalProcessByStartTicks p sig) (fun _ _ => True)
      (fun e t => e.Passed ∨ t.Calm) s := by
  refine readProcess_passed.bind fun current t _ => ?_
  split
  · trivial
  · refine (kill_spared (P := fun _ => True) fun _ _ => trivial).attempt ?_ ?_
    · rintro _ t' -
      refine readProcess_passed.bind fun r t'' _ => ?_
      split
      · trivial
      · split
        · split
          · refine (kill_spared (P := fun _ => True) fun _ _ => trivial).attempt ?_ ?_
            · exact fun _ _ _ => Ends.raise (.inl (.inr ⟨_, rfl⟩))
            · rintro e t₃ ⟨-, ⟨rfl, -⟩ | ⟨rfl, -⟩⟩
              · exact Ends.raise (.inl (.inr ⟨_, rfl⟩))
              · exact Ends.raise (.inl (.inr ⟨_, rfl⟩))
          · exact Ends.raise (.inl (.inr ⟨_, rfl⟩))
        · trivial
    · rintro e t' ⟨-, ⟨rfl, -⟩ | ⟨rfl, -⟩⟩
      · trivial
      · exact Ends.raise (.inl (.inl rfl))

theorem signalProcess_passed {sig : Signal} :
    Ends machine (sparing cfg) (signalProcess cfg p sig) (fun _ _ => True)
      (fun e t => e.Passed ∨ t.Calm) s := by
  unfold signalProcess
  split
  · exact signalProcessByStartTicks_passed
  · refine (pidfdOpen_spared (P := fun _ => True) fun _ _ => trivial).attempt ?_ ?_
    · rintro d t -
      refine readProcess_passed.bind fun current t₁ _ => ?_
      split
      · trivial
      · refine (pidfdSend_spared (P := fun _ => True) fun _ _ => trivial).attempt ?_ ?_
        · exact fun _ _ _ => trivial
        · rintro e t₂ ⟨-, ⟨rfl, -⟩ | ⟨rfl, -⟩ | ⟨rfl, -⟩⟩
          · exact Ends.raise (.inl (.inl rfl))
          · exact signalProcessByStartTicks_passed
          · exact Ends.raise (.inl (.inl rfl))
    · rintro e t (⟨-, -, -, ⟨rfl, -⟩ | ⟨rfl, -⟩⟩ | ⟨-, rfl, -⟩)
      · exact signalProcessByStartTicks_passed
      · trivial
      · exact Ends.raise (.inl (.inl rfl))

/-- Everybody who is stopped is among the processes. -/
def Stopped (ps : List ProcessIdentity) (s : State) : Prop :=
  ∀ b, s.Halted b → ∃ p ∈ ps, p.Names b

theorem rests_stopped (ps : List ProcessIdentity) : Rests cfg (Stopped ps) := rests_halted _

theorem State.Calm.stopped {ps : List ProcessIdentity} (h : s.Calm) : Stopped ps s :=
  fun b hb => absurd hb (h b)

theorem resumeProcess_ends {rest : List ProcessIdentity} (hs : Stopped (p :: rest) s) :
    Ends machine (sparing cfg) (resumeProcess cfg p) (fun _ t => Stopped rest t)
      (fun _ t => t.Calm) s := by
  have hstopped : Ends machine (sparing cfg) (signalProcess cfg p .cont)
      (fun _ t => Stopped rest t) (fun _ t => Stopped rest t) s := by
    refine Ends.all fun b => ?_
    by_cases hrest : ∃ q ∈ rest, q.Names b
    · exact (Ends.any _ s).mono (fun _ _ _ _ => hrest) fun _ _ _ _ => hrest
    · have hloose : Ends machine (sparing cfg) (signalProcess cfg p .cont)
          (fun _ t => ¬ t.Halted b) (fun _ t => ¬ t.Halted b) s := by
        by_cases hb : p.Names b
        · exact signalProcess_resumes hb
        · refine (rests_loose b).ends ((uses_signalProcess cfg p .cont).mono fun _ =>
            Op.Signals.noStop (by simp)) fun h => ?_
          obtain ⟨q, hq, hnames⟩ := hs b h
          rcases List.mem_cons.mp hq with rfl | hq
          · exact hb hnames
          · exact hrest ⟨q, hq, hnames⟩
      exact hloose.mono (fun _ _ h hb => absurd hb h) fun _ _ h hb => absurd hb h
  refine (hstopped.and signalProcess_passed).attempt (fun _ _ h => h.1) ?_
  rintro e t ⟨hrest, hpassed | hcalm⟩
  · rcases hpassed with hos | ⟨code, rfl⟩
    · cases e <;> first | exact hrest | cases hos
    · exact hrest
  · cases e <;> first | exact hcalm.stopped | exact hcalm

/-- **Resuming the tree leaves nobody of it stopped.** -/
theorem resumeTree_ends {ps : List ProcessIdentity} (hs : Stopped ps s) :
    Ends machine (sparing cfg) (resumeTree cfg ps) (fun _ t => t.Calm) (fun _ t => t.Calm) s := by
  have hloop : Ends machine (sparing cfg) (resumeTree cfg ps) (fun _ t => Stopped [] t)
      (fun _ t => t.Calm) s :=
    Ends.forM (I := Stopped) (fun p rest t ht => resumeProcess_ends ht) hs
  refine hloop.mono (fun _ t h b hb => ?_) fun _ _ h => h
  obtain ⟨p, hp, -⟩ := h b hb
  cases hp

end Resume

/-! ## Stopping -/

section Stop

variable {p : ProcessIdentity} {sig : Signal} {F G : Prop}

/-- A process that is stopped is one of those with `F`, or was stopped in this round and is one of
those with `G`. -/
def Covered (F G : Prop) (b : Birth) (s : State) : Prop := s.Halted b → F ∨ b ∈ s.held ∧ G

/-- What an error of a signal leaves: after a lookup what there was, after another `OSError` those
of earlier rounds when the signal was to stop, and else nothing. -/
def Reports (sig : Signal) (F G : Prop) (b : Birth) (e : Error) (s : State) : Prop :=
  match e with
  | .processLookup => Covered F G b s
  | .fileNotFound | .unsupported | .os => if sig = .stop then s.Halted b → F else ¬ s.Halted b
  | _ => ¬ s.Halted b

/-- Since the check of the process, nobody else was born under its pid while `b` was stopped. -/
def Window (p : ProcessIdentity) (sig : Signal) (b : Birth) (s : State) : Prop :=
  s.Halted b → (∃ r, s.reads.head? = some r ∧ r.pid = p.pid ∧ r.purpose = .check sig) ∧
    ∀ e ∈ s.entries, e.pid = p.pid → e.birth.startTicks = p.startTicks

theorem covered_moved (h : s.Moved t) (hs : Covered F G b s) : Covered F G b t := by
  intro hb
  rw [h.held]
  exact hs (h.halted b hb)

theorem covered_annotated (h : s.Annotated t) (hs : Covered F G b s) : Covered F G b t := by
  intro hb
  rw [h.held]
  exact hs (h.halted_iff.mp hb)

theorem byPid_moved (h : s.Moved t) (hs : s.ByPid cfg) : t.ByPid cfg := by
  rwa [State.ByPid, h.pidfdOpen, h.pidfdSend]

theorem byPid_annotated (h : s.Annotated t) (hs : s.ByPid cfg) : t.ByPid cfg := by
  rwa [State.ByPid, h.pidfdOpen, h.pidfdSend]

theorem window_act {a : State.Act} (hsig : sig ≠ .cont) (hby : s.ByPid cfg)
    (hfree : ∀ parent pid ticks, a = .fork parent pid ticks → ¬ s.Contested cfg pid)
    (hs : Window p sig b s) : Window p sig b (s.act a) := by
  intro hb
  have hbefore := (s.act_moved a).halted b hb
  obtain ⟨⟨r, hr, hpid, hpurpose⟩, hticks⟩ := hs hbefore
  refine ⟨⟨r, by rw [(s.act_moved a).reads, hr], hpid, hpurpose⟩, fun e he hsame => ?_⟩
  rcases State.act_birth he with ⟨x, hx, hbirth⟩ | ⟨parent, ticks, rfl⟩
  · rw [← hbirth]
    refine hticks x hx ?_
    rw [Entry.pid, hbirth]
    exact hsame
  · have hcontested : s.Contested cfg e.pid :=
      ⟨hby, fun h => h b hbefore, r, sig, hr, hpid.trans hsame.symm, hpurpose, hsig⟩
    exact absurd hcontested (hfree parent e.pid ticks rfl)

theorem window_others (hsig : sig ≠ .cont) (hby : s.ByPid cfg) (hs : Window p sig b s)
    (ho : (sparing cfg).others s t) : Window p sig b t := by
  obtain ⟨as, rfl, hfree⟩ := ho
  induction as generalizing s with
  | nil => exact hs
  | cons a as ih =>
    exact ih (byPid_moved (s.act_moved a) hby) (window_act hsig hby hfree.1 hs) hfree.2

/-- A check that fails leaves nobody stopped. -/
theorem check_calm (hsig : sig ≠ .cont) {pid : Nat} {purpose : Purpose}
    (hpurpose : purpose = .check sig ∨ purpose = .recheck sig ∨ purpose = .look) {e : Error}
    (h : Harmless s (.readStat pid purpose) e) : s.Calm := by
  refine h.calm rfl fun pid' => Op.not_resumes ?_
  rcases hpurpose with rfl | rfl | rfl
  · exact fun h => hsig (Option.some.inj h)
  · exact fun h => hsig (Option.some.inj h)
  · intro h
    cases h

/-- Whoever is stopped under the pid of a process with its start is that process. -/
theorem names_of_halted {e : Entry} (h : s.Halted b) (hpid : b.pid = p.pid)
    (he : s.at? p.pid = some e) (hticks : e.birth.startTicks = p.startTicks) : p.Names b := by
  obtain ⟨rfl, -⟩ := halted_eq h hpid he
  exact ⟨hpid.symm, hticks.symm⟩

theorem not_halted_of_none {pid : Nat} (hpid : b.pid = pid) (hnone : s.at? pid = none) :
    ¬ s.Halted b := by
  intro h
  obtain ⟨x, hx, -⟩ := halted_at h
  rw [hpid, hnone] at hx
  cases hx

/-- After the signal: a process that was stopped by mistake is resumed, and an error tells that
nobody else was stopped. -/
theorem recheck_reports (hsig : sig ≠ .cont) (hby : s.ByPid cfg) (hG : p.Names b → G)
    (hs : s.Halted b → F ∨ b ∈ s.held ∧ (b.pid = p.pid ∨ G))
    (hw : sig = .stop ∧ b.pid = p.pid ∨ Window p sig b s) :
    Ends machine (sparing cfg) (recheckSignalled p sig) (fun _ t => Covered F G b t)
      (fun _ t => ¬ t.Halted b) s := by
  have hothers : ∀ t, (sparing cfg).others s t →
      (t.Halted b → F ∨ b ∈ t.held ∧ (b.pid = p.pid ∨ G)) ∧
        (sig = .stop ∧ b.pid = p.pid ∨ Window p sig b t) := by
    refine fun t ho => ⟨fun h => ?_, hw.imp id fun hw => window_others hsig hby hw ho⟩
    rw [(sparing_moved ho).held]
    exact hs ((sparing_moved ho).halted b h)
  refine Ends.bind ((readProcess_spared hothers).mono (fun _ _ h => h) ?_) ?_
  · rintro e t ⟨-, ⟨-, hharm⟩ | ⟨-, e', hharm⟩⟩
    · exact check_calm hsig (.inr (.inl rfl)) hharm b
    · exact check_calm hsig (.inr (.inl rfl)) hharm b
  · rintro r t ⟨t₀, ⟨hs, hw⟩, rfl, rfl⟩
    have hnotes := t₀.read_annotated p.pid (.recheck sig)
    cases he : t₀.at? p.pid with
    | none =>
      refine Ends.pure fun h => ?_
      rw [hnotes.halted_iff] at h
      rw [hnotes.held]
      refine (hs h).imp id fun hheld => ⟨hheld.1, hheld.2.resolve_left fun hpid => ?_⟩
      exact not_halted_of_none hpid he h
    | some e =>
      have hepid : e.pid = p.pid := (State.at?_some he).2
      simp only [Option.map_some]
      split
      · next hticks =>
        -- the pid was given to another process: only that one may be stopped
        have hloose : ¬ (sig = .stop ∧ b.pid = p.pid) → ¬ t₀.Halted b := by
          intro hnot h
          exact hticks (((hw.resolve_left hnot) h).2 e (State.at?_some he).1 hepid)
        split
        · refine (kill_spared (P := fun t => t.Halted b → b.pid = p.pid) fun t ho h => ?_).attempt
            ?_ ?_
          · by_contra hpid
            refine hloose (fun hboth => hpid hboth.2) ?_
            exact hnotes.halted_iff.mp ((sparing_moved ho).halted b h)
          · rintro _ t₁ ⟨t', x, hpid, hx, rfl⟩
            refine Ends.raise fun h => ?_
            rcases deliver_halted h with hhalted | ⟨hcont, -⟩
            · rw [(halted_eq hhalted ((hpid hhalted).trans hepid.symm) hx).1] at h
              exact deliver_cont h
            · cases hcont
          · rintro err t₁ ⟨hpid, ⟨rfl, hnone⟩ | ⟨rfl, hharm⟩⟩
            · refine Ends.raise fun h => ?_
              exact not_halted_of_none ((hpid h).trans hepid.symm) hnone h
            · refine Ends.raise fun h => hharm.loose rfl (fun pid hresume => ?_) h
              exact (Eq.symm hresume).trans (hepid.trans (hpid h).symm)
        · next hnot =>
          refine Ends.raise fun h => ?_
          exact hloose (fun hboth => hnot hboth.1) (hnotes.halted_iff.mp h)
      · next hticks =>
        rw [not_not] at hticks
        refine Ends.pure fun h => ?_
        rw [hnotes.halted_iff] at h
        rw [hnotes.held]
        refine (hs h).imp id fun hheld => ⟨hheld.1, hheld.2.elim (fun hpid => ?_) id⟩
        exact hG (names_of_halted h hpid he hticks)

/-- A process that is not stopped is no matter of any error. -/
theorem reports_loose {e : Error} (h : ¬ s.Halted b) : Reports sig F G b e s := by
  unfold Reports
  split
  · exact fun hb => absurd hb h
  iterate 3
    split
    · exact fun hb => absurd hb h
    · exact h
  exact h

/-- What a signal that fails with another `OSError` leaves. -/
theorem reports_os {o : Op} {e : Error} (h : Harmless s o e)
    (ho : o.signal = some sig) (hsig : sig ≠ .cont) (hs : Covered F G b s) :
    Reports sig F G b .os s := by
  have hresume : ∀ pid, ¬ o.Resumes pid := fun pid =>
    Op.not_resumes (by rwa [ho, ne_eq, Option.some.injEq])
  unfold Reports
  by_cases hstop : sig = .stop
  · simp only [hstop, if_true]
    intro hb
    rcases h with h | ⟨-, hheld⟩ | ⟨-, pid, h, -⟩
    · exact absurd hb (h b)
    · exact (hs hb).resolve_right fun hin => hheld b hin.1 hb
    · exact (hresume pid h).elim
  · simp only [hstop, if_false]
    exact h.calm (Op.not_stopping (by rwa [ho, ne_eq, Option.some.injEq])) hresume b

theorem check_reports (hsig : sig ≠ .cont) {e : Error}
    (h : e = .uncaught ∧ Harmless s (.readStat p.pid (.check sig)) .uncaught ∨
      (∃ code, e = .request code) ∧ ∃ e', Harmless s (.readStat p.pid (.check sig)) e') :
    Reports sig F G b e s := by
  rcases h with ⟨rfl, hharm⟩ | ⟨⟨code, rfl⟩, e', hharm⟩
  · exact check_calm hsig (.inl rfl) hharm b
  · exact check_calm hsig (.inl rfl) hharm b

/-- The check opens the window. -/
theorem window_check (hconfirms : confirms p ((s.at? p.pid).map Entry.identity) = true) :
    Window p sig b (s.read p.pid (.check sig)) := by
  have hnotes := s.read_annotated p.pid (.check sig)
  intro _
  refine ⟨⟨{ pid := p.pid, births := s.nextBirth, purpose := .check sig }, ?_, rfl, rfl⟩, ?_⟩
  · unfold State.read
    split <;> rfl
  · intro e he hpid
    rw [hnotes.entries] at he
    rw [← hpid, State.at?_of_mem he] at hconfirms
    simp only [confirms, Option.map_some, Bool.and_eq_true, beq_iff_eq] at hconfirms
    exact hconfirms.2

theorem window_deliver {e : Entry} (he : s.at? p.pid = some e)
    (hs : Window p sig b s) :
    sig = .stop ∧ b.pid = p.pid ∨ Window p sig b (s.deliver sig e.birth) := by
  by_cases hsame : sig = .stop ∧ b.pid = p.pid
  · exact .inl hsame
  · refine .inr fun hb => ?_
    have hbefore : s.Halted b := by
      rcases deliver_halted hb with h | ⟨hstop, rfl⟩
      · exact h
      · exact absurd ⟨hstop, (State.at?_some he).2⟩ hsame
    obtain ⟨hhead, hticks⟩ := hs hbefore
    refine ⟨by rwa [(s.deliver_rest sig e.birth).2.2.1], fun x hx hpid => ?_⟩
    obtain ⟨y, hy, hbirth⟩ := State.signalled_birth hx
    rw [← hbirth]
    refine hticks y hy ?_
    rw [Entry.pid, hbirth]
    exact hpid

theorem signalProcessByStartTicks_reports (hsig : sig ≠ .cont) (hby : s.ByPid cfg)
    (hG : p.Names b → G) (hs : Covered F G b s) :
    Ends machine (sparing cfg) (signalProcessByStartTicks p sig) (fun _ t => Covered F G b t)
      (fun e t => Reports sig F G b e t) s := by
  have hothers : ∀ t, (sparing cfg).others s t → Covered F G b t ∧ t.ByPid cfg := fun t ho =>
    ⟨covered_moved (sparing_moved ho) hs, byPid_moved (sparing_moved ho) hby⟩
  refine Ends.bind ((readProcess_spared hothers).mono (fun _ _ h => h)
    fun e t h => check_reports hsig h.2) ?_
  rintro current t ⟨t₀, ⟨hs, hby⟩, rfl, rfl⟩
  have hnotes := t₀.read_annotated p.pid (.check sig)
  split
  · exact Ends.pure (covered_annotated hnotes hs)
  · next hconfirms =>
    rw [not_not] at hconfirms
    refine (kill_spared (P := fun t => (Covered F G b t ∧ t.ByPid cfg) ∧ Window p sig b t)
      fun t ho => ?_).attempt ?_ ?_
    · have hmoved := sparing_moved ho
      have hby := byPid_annotated hnotes hby
      exact ⟨⟨covered_moved hmoved (covered_annotated hnotes hs), byPid_moved hmoved hby⟩,
        window_others hsig hby (window_check hconfirms) ho⟩
    · rintro _ t₁ ⟨t', e, ⟨⟨hs, hby⟩, hw⟩, he, rfl⟩
      have hrest := t'.deliver_rest sig e.birth
      refine (recheck_reports hsig ?_ hG (fun hb => ?_) (window_deliver he hw)).mono
        (fun _ _ h => h) fun err t₂ h => ?_
      · rwa [State.ByPid, hrest.2.2.2.2.1, hrest.2.2.2.2.2]
      · rcases deliver_halted hb with h | ⟨rfl, rfl⟩
        · exact (hs h).imp id fun hheld => ⟨deliver_held hheld.1, .inr hheld.2⟩
        · exact .inr ⟨deliver_held_self (State.at?_some he).1, .inl (State.at?_some he).2⟩
      · exact reports_loose h
    · rintro err t₁ ⟨⟨⟨hs, -⟩, -⟩, ⟨rfl, -⟩ | ⟨rfl, hharm⟩⟩
      · exact Ends.pure hs
      · exact Ends.raise (reports_os hharm rfl hsig hs)

/-- **What a signal leaves stopped.** -/
theorem signalProcess_reports (hsig : sig ≠ .cont) (hG : p.Names b → G) (hs : Covered F G b s) :
    Ends machine (sparing cfg) (signalProcess cfg p sig) (fun _ t => Covered F G b t)
      (fun e t => Reports sig F G b e t) s := by
  have hothers : ∀ t, (sparing cfg).others s t → Covered F G b t :=
    fun t ho => covered_moved (sparing_moved ho) hs
  unfold signalProcess
  split
  · next hpidfd => exact signalProcessByStartTicks_reports hsig (fun h => hpidfd h.1) hG hs
  · refine (pidfdOpen_spared hothers).attempt ?_ ?_
    · rintro d t ⟨t₀, e, hs, hnotes, he, rfl⟩
      obtain ⟨hmem, hepid⟩ := State.at?_some he
      have hborn : e.birth.id < t.nextBirth := by
        rw [hnotes.nextBirth]
        exact t₀.born e hmem
      have hs := covered_annotated hnotes hs
      refine Ends.bind ((readProcess_spared (P := fun t => Covered F G b t ∧
        e.birth.id < t.nextBirth) fun t' ho => ?_).mono (fun _ _ h => h)
        fun e t h => check_reports hsig h.2) ?_
      · have hmoved := sparing_moved ho
        exact ⟨covered_moved hmoved hs, Nat.lt_of_lt_of_le hborn hmoved.next⟩
      rintro current t₁ ⟨t', ⟨hs, hborn⟩, rfl, rfl⟩
      have hnotes' := t'.read_annotated p.pid (.check sig)
      have hs := covered_annotated hnotes' hs
      split
      · exact Ends.pure hs
      · next hconfirms =>
        rw [not_not] at hconfirms
        -- while the process of the descriptor lives, it is the one that was checked
        have hchecked : t'.Live e.birth → e.birth.startTicks = p.startTicks := by
          intro hlive
          obtain ⟨x, hx, hbirth, -⟩ := at?_live hlive
          rw [show e.birth.pid = p.pid from hepid] at hx
          rw [hx] at hconfirms
          simp only [confirms, Option.map_some, Bool.and_eq_true, beq_iff_eq] at hconfirms
          rw [← hbirth]
          exact hconfirms.2
        refine (pidfdSend_spared (P := fun t => Covered F G b t ∧
          (t.Live e.birth → e.birth.startTicks = p.startTicks)) fun t₂ ho => ?_).attempt ?_ ?_
        · have hmoved := sparing_moved ho
          refine ⟨covered_moved hmoved hs, fun hlive => hchecked ?_⟩
          refine hnotes'.live_iff.mp (hmoved.old hlive ?_)
          rwa [hnotes'.nextBirth]
        · rintro _ t₃ ⟨t₂, x, ⟨hs, hticks⟩, hx, hbirth, rfl⟩
          obtain ⟨hxmem, -⟩ := State.at?_some hx
          refine Ends.pure fun hb => ?_
          rcases deliver_halted hb with h | ⟨rfl, rfl⟩
          · exact (hs h).imp id fun hheld => ⟨deliver_held hheld.1, hheld.2⟩
          · have hlive : t₂.Live e.birth :=
              (t₂.deliver_leads .stop e.birth).old hb.live (hbirth ▸ t₂.born x hxmem)
            refine .inr ⟨?_, hG ⟨hepid.symm, (hticks hlive).symm⟩⟩
            rw [← hbirth]
            exact deliver_held_self hxmem
        · rintro err t₃ ⟨⟨hs, -⟩, ⟨rfl, -⟩ | ⟨rfl, hsend⟩ | ⟨rfl, hharm⟩⟩
          · exact Ends.raise hs
          · refine signalProcessByStartTicks_reports hsig (fun h => ?_) hG hs
            rw [hsend] at h
            cases h.2.2
          · exact Ends.raise (reports_os hharm rfl hsig hs)
    · rintro err t (⟨t₀, hs, hnotes, ⟨rfl, hopen⟩ | ⟨rfl, -⟩⟩ | ⟨hs, rfl, hharm⟩)
      · refine signalProcessByStartTicks_reports hsig (fun h => ?_) hG (covered_annotated hnotes hs)
        rw [hnotes.pidfdOpen, hopen] at h
        cases h.2.1
      · exact Ends.pure (covered_annotated hnotes hs)
      · exact Ends.raise (reports_os hharm rfl hsig hs)

/-- The processes of earlier rounds, and those of this one. -/
def Freezing (frozen fresh : List ProcessIdentity) (s : State) : Prop :=
  ∀ b, Covered (∃ q ∈ frozen, q.Names b) (∃ q ∈ fresh, q.Names b) b s

/-- An error in a round is reported once those of earlier rounds have been resumed. -/
theorem freezeProcess_ends {frozen fresh : List ProcessIdentity} (hp : p ∈ fresh)
    (hs : Freezing frozen fresh s) :
    Ends machine (sparing cfg) (freezeProcess cfg frozen p) (fun _ t => Freezing frozen fresh t)
      (fun _ t => t.Calm) s := by
  have hsignal : Ends machine (sparing cfg) (signalProcess cfg p .stop)
      (fun _ t => Freezing frozen fresh t) (fun e t => ∀ b, Reports .stop
        (∃ q ∈ frozen, q.Names b) (∃ q ∈ fresh, q.Names b) b e t) s :=
    Ends.all fun b => signalProcess_reports (by simp) (fun hnames => ⟨p, hp, hnames⟩) (hs b)
  refine hsignal.attempt (fun _ _ h => h) fun e t h => ?_
  cases e with
  | processLookup => exact h
  | fileNotFound => exact fun b hb => .inl (h b hb)
  | unsupported => exact (resumeTree_ends h).bind fun _ _ hcalm => Ends.raise hcalm
  | os => exact (resumeTree_ends h).bind fun _ _ hcalm => Ends.raise hcalm
  | _ => exact Ends.raise h

theorem freezeAll_ends {frozen fresh : List ProcessIdentity} (hs : Stopped frozen s) :
    Ends machine (sparing cfg) (fresh.forM (freezeProcess cfg frozen))
      (fun _ t => Freezing frozen fresh t) (fun _ t => t.Calm) s := by
  refine (Ends.forM (I := fun rest t => (∀ p ∈ rest, p ∈ fresh) ∧ Freezing frozen fresh t)
    (fun p rest t h => ?_) ⟨fun _ h => h, fun b hb => .inl (hs b hb)⟩).mono (fun _ _ h => h.2)
    fun _ _ h => h
  exact (freezeProcess_ends (h.1 p List.mem_cons_self) h.2).mono
    (fun _ _ ht => ⟨fun q hq => h.1 q (List.mem_cons_of_mem p hq), ht⟩) fun _ _ h => h

theorem signalOne_ends {ps : List ProcessIdentity} (hs : Stopped ps s) :
    Ends machine (sparing cfg) (signalOne cfg .term p) (fun _ t => Stopped ps t)
      (fun _ t => t.Calm) s := by
  have hkeep : Ends machine (sparing cfg) (signalProcess cfg p .term)
      (fun _ t => Stopped ps t) (fun _ t => Stopped ps t) s :=
    (rests_stopped ps).ends ((uses_signalProcess cfg p .term).mono fun _ =>
      Op.Signals.noStop (by simp)) hs
  have hsignal : Ends machine (sparing cfg) (signalProcess cfg p .term) (fun _ _ => True)
      (fun e t => ∀ b, Reports .term True True b e t) s :=
    (Ends.all fun b => signalProcess_reports (by simp) (fun _ => trivial) fun _ =>
      .inl trivial).mono (fun _ _ _ => trivial) fun _ _ h => h
  refine (hkeep.and hsignal).attempt (fun _ _ h => h.1) fun e t h => ?_
  cases e with
  | processLookup => exact h.1
  | _ => exact Ends.raise h.2

theorem signalTree_ends {ps qs : List ProcessIdentity} (hs : Stopped ps s) :
    Ends machine (sparing cfg) (signalTree cfg qs .term) (fun _ t => Stopped ps t)
      (fun _ t => t.Calm) s :=
  Ends.forM (I := fun _ t => Stopped ps t) (fun _ _ _ ht => signalOne_ends ht) hs

end Stop

/-! ## Reading -/

section Read

variable {i : Identity}

/-- What holds of the runs among processes that interfere holds of those that are spared. -/
theorem spared_of_gives {α : Type} {p : Server α} {Q : α → State → Prop}
    {R : Error → State → Prop} (h : Ends machine interfering p Q R s) :
    Ends machine (sparing cfg) p Q R s :=
  wp_of_runs fun _ _ hrun => (sparing_interfering hrun).sound h

/-- An operation that reads fails where nobody is stopped, or as what it reads has it. -/
theorem asks_rests (h : Rests cfg P) (o : Op) (ho : o.NoStop) (hstop : o.stopping = false)
    (hresume : ∀ pid, ¬ o.Resumes pid) (hs : P s) :
    Ends machine (sparing cfg) (ask o) (fun _ t => P t)
      (fun e t => P t ∧ ((∃ t₀, (exec o t₀).1 = .error e) ∨ t.Calm)) s := by
  have hexec : ∀ t, P t → P (exec o t).2 := fun t ht => h.exec o t ho ht
  refine asks_spared (fun t hothers => h.others s t hothers hs) ?_ ?_ ?_
  · exact fun t e ht _ hharm => ⟨ht, .inr (hharm.calm hstop hresume)⟩
  · rintro t a t' ht hx
    have ht' := hexec t ht
    rwa [hx] at ht'
  · rintro t e t' ht hx
    have ht' := hexec t ht
    rw [hx] at ht'
    exact ⟨ht', .inl ⟨t, by rw [hx]⟩⟩

theorem readProcess_rests (h : Rests cfg P) {pid : Nat} (hs : P s) :
    Ends machine (sparing cfg) (readProcess pid) (fun _ t => P t) (fun _ t => P t ∧ t.Calm) s := by
  refine (readProcess_spared fun t ho => h.others s t ho hs).mono ?_ ?_
  · rintro r t ⟨t₀, ht, rfl, -⟩
    exact h.exec (.readStat pid .look) t₀ trivial ht
  · rintro e t ⟨ht, ⟨-, hharm⟩ | ⟨-, e', hharm⟩⟩
    · exact ⟨ht, hharm.calm rfl fun _ hresume => hresume⟩
    · exact ⟨ht, hharm.calm rfl fun _ hresume => hresume⟩

theorem inspect_rests (h : Rests cfg P) {pid : Nat} (hs : P s) :
    Ends machine (sparing cfg) (inspect cfg pid) (fun _ t => P t)
      (fun e t => P t ∧ (e = .fileNotFound ∨ t.Calm)) s := by
  have howner : ∀ {e : Error}, (∃ t, (exec (.ownerOf pid) t).1 = .error e) →
      e = .fileNotFound := by
    rintro e ⟨t, hx⟩
    simp only [exec] at hx
    split at hx
    · cases hx
    · exact (Except.error.inj hx).symm
  have henviron : ∀ {e : Error}, (∃ t, (exec (.readEnviron pid) t).1 = .error e) →
      e = .fileNotFound := by
    rintro e ⟨t, hx⟩
    simp only [exec] at hx
    split at hx
    · cases hx
    · exact (Except.error.inj hx).symm
  refine Ends.bind ((asks_rests h (.ownerOf pid) trivial rfl (fun _ h => h) hs).mono
    (fun _ _ h => h) fun e t he => ⟨he.1, he.2.imp howner id⟩)
    fun uid t ht => ?_
  split
  · exact Ends.pure ht
  · refine Ends.bind ((readProcess_rests h ht).mono (fun _ _ h => h)
      fun _ _ he => ⟨he.1, .inr he.2⟩) fun r t₁ ht₁ => ?_
    split
    · exact Ends.pure ht₁
    · split
      · exact Ends.pure ht₁
      · exact Ends.bind ((asks_rests h (.readEnviron pid) trivial rfl (fun _ h => h) ht₁).mono
          (fun _ _ h => h) fun e t he => ⟨he.1, he.2.imp henviron id⟩)
          fun _ _ ht₂ => Ends.pure ht₂

theorem matchProcess_rests (h : Rests cfg P) {found : List ProcessIdentity} {pid : Nat}
    (hs : P s) :
    Ends machine (sparing cfg) (matchProcess cfg i found pid) (fun _ t => P t)
      (fun _ t => t.Calm) s := by
  refine (inspect_rests h hs).attempt (fun r t ht => ?_) fun e t he => ?_
  · rcases r with _ | ⟨process, environment⟩
    · exact ht
    · exact ht
  · rcases he with ⟨ht, rfl | hcalm⟩
    · exact ht
    · cases e with
      | fileNotFound => exact ht
      | _ => exact Ends.raise hcalm

theorem matchingAttemptProcesses_rests (h : Rests cfg P) (hs : P s) :
    Ends machine (sparing cfg) (matchingAttemptProcesses cfg i) (fun _ t => P t)
      (fun _ t => t.Calm) s := by
  refine (asks_rests h (.iterdir .attempt) trivial rfl (fun _ h => h) hs).attempt
    (fun pids t ht => ?_) fun e t he => ?_
  · exact Ends.foldlM (I := fun _ _ t => P t) (fun _ _ _ _ ht => matchProcess_rests h ht) ht
  · rcases he with ⟨-, ⟨t₀, hx⟩ | hcalm⟩
    · cases hx
    · cases e <;> exact Ends.raise hcalm

theorem descendants_rests (h : Rests cfg P) {roots : List Nat} (hs : P s) :
    Ends machine (sparing cfg) (descendants cfg roots) (fun _ t => P t) (fun _ t => t.Calm) s := by
  refine Ends.bind ((asks_rests h (.iterdir .tree) trivial rfl (fun _ h => h) hs).mono
    (fun _ _ h => h) ?_) fun pids t ht => ?_
  · rintro e t ⟨-, ⟨t₀, hx⟩ | hcalm⟩
    · cases hx
    · exact hcalm
  · refine Ends.bind (Ends.foldlM (I := fun _ _ t => P t) (fun pid _ ps t ht => ?_) ht)
      fun _ _ ht => Ends.pure ht
    refine Ends.bind ((readProcess_rests h ht).mono (fun _ _ h => h) fun _ _ he => he.2)
      fun r t₁ ht₁ => ?_
    cases r <;> exact Ends.pure ht₁

theorem findTree_rests (h : Rests cfg P) {initial : List ProcessIdentity} (hs : P s) :
    Ends machine (sparing cfg) (findTree cfg i initial) (fun _ t => P t) (fun _ t => t.Calm) s := by
  refine Ends.bind (Ends.foldlM (I := fun _ _ t => P t) (fun p _ ps t ht => ?_) hs)
    fun seeds t ht => ?_
  · exact Ends.bind ((readProcess_rests h ht).mono (fun _ _ h => h) fun _ _ he => he.2)
      fun r t₁ ht₁ => Ends.pure ht₁
  · exact (matchingAttemptProcesses_rests h ht).bind fun _ _ ht => descendants_rests h ht

end Read

/-! ## The request -/

section Request

variable {i : Identity}

theorem puts_stay {frozen fresh : List ProcessIdentity} {q : ProcessIdentity} (hq : q ∈ frozen)
    (hne : ∀ p ∈ fresh, q.pid ≠ p.pid) : q ∈ fresh.foldl put frozen := by
  induction fresh generalizing frozen with
  | nil => exact hq
  | cons p fresh ih =>
    exact ih (mem_put_of hq (hne p List.mem_cons_self))
      fun x hx => hne x (List.mem_cons_of_mem _ hx)

theorem puts_mem {frozen fresh : List ProcessIdentity} {q : ProcessIdentity} (hq : q ∈ fresh)
    (hsingle : ∀ p ∈ fresh, p.pid = q.pid → p = q) : q ∈ fresh.foldl put frozen := by
  induction fresh generalizing frozen with
  | nil => cases hq
  | cons p fresh ih =>
    by_cases hmem : q ∈ fresh
    · exact ih hmem fun x hx => hsingle x (List.mem_cons_of_mem _ hx)
    · obtain rfl := (List.mem_cons.mp hq).resolve_right hmem
      rw [List.foldl_cons]
      refine puts_stay (put_mem frozen q) fun x hx hpid => hmem ?_
      rw [← hsingle x (List.mem_cons_of_mem q hx) hpid.symm]
      exact hx

/-- A round ends with those of the round among the processes. -/
theorem stopped_puts {frozen current : List ProcessIdentity}
    (hsingle : ∀ p ∈ current, ∀ q ∈ current, p.pid = q.pid → p = q)
    (hs : Freezing frozen (current.filter fun p => !hasPid frozen p.pid) s) :
    Stopped ((current.filter fun p => !hasPid frozen p.pid).foldl put frozen) s := by
  intro b hb
  rcases hs b hb with ⟨q, hq, hnames⟩ | ⟨-, q, hq, hnames⟩
  · refine ⟨q, puts_stay hq fun p hp hpid => ?_, hnames⟩
    have hfree := (List.mem_filter.mp hp).2
    simp only [hasPid, Bool.not_eq_eq_eq_not, Bool.not_true, List.any_eq_false, beq_iff_eq] at hfree
    exact hfree q hq hpid
  · exact ⟨q, puts_mem hq fun p hp => hsingle p (List.mem_of_mem_filter hp) q
      (List.mem_of_mem_filter hq), hnames⟩

/-- **The freezing ends with everybody who is stopped in the tree**, or in an error with nobody. -/
theorem freezeRounds_ends {initial : List ProcessIdentity} {n : Nat}
    {frozen : List ProcessIdentity} (hs : Stopped frozen s) :
    Ends machine (sparing cfg) (freezeRounds cfg i initial n frozen) (fun ps t => Stopped ps t)
      (fun _ t => t.Calm) s := by
  induction n generalizing s frozen with
  | zero => exact (resumeTree_ends hs).bind fun _ _ hcalm => Ends.raise hcalm
  | succ n ih =>
    have hfound : Ends machine (sparing cfg) (findTree cfg i initial)
        (fun ps _ => ∀ p ∈ ps, ∀ q ∈ ps, p.pid = q.pid → p = q) (fun _ _ => True) s :=
      spared_of_gives ((findTree_gives initial).mono (fun _ _ h => h.single) fun _ _ h => h)
    refine Ends.bind (((findTree_rests (rests_stopped frozen) hs).and hfound).mono
      (fun _ _ h => h) fun _ _ h => h.1) ?_
    rintro current t ⟨ht, hsingle⟩
    refine (freezeAll_ends ht).bind fun _ t₁ ht₁ => ?_
    split
    · next hempty =>
      rw [hempty] at ht₁
      refine Ends.pure fun b hb => ?_
      rcases ht₁ b hb with h | ⟨-, q, hq, -⟩
      · exact h
      · cases hq
    · exact ih (stopped_puts hsingle ht₁)

theorem uses_remaining (ps : List ProcessIdentity) : (remaining ps).Uses Op.NoStop := by
  refine Prog.Uses.foldlM (fun left p => ?_) ps []
  exact Prog.Uses.bind (uses_readProcess trivial) fun _ => trivial

theorem uses_waitForExit (ps : List ProcessIdentity) (timeout : Nat) :
    (waitForExit ps timeout).Uses Op.NoStop := by
  have hrounds : ∀ (deadline n : Nat) (left : List ProcessIdentity),
      (waitRounds deadline n left).Uses Op.NoStop := by
    intro deadline n
    induction n with
    | zero => exact fun _ => trivial
    | succ n ih =>
      intro left
      unfold waitRounds
      split
      · trivial
      · refine Prog.Uses.bind (uses_ask trivial) fun now => ?_
        split
        · exact Prog.Uses.bind (uses_ask trivial) fun _ => (uses_remaining left).bind (ih ·)
        · trivial
  exact Prog.Uses.bind (uses_ask trivial) fun now => (uses_remaining ps).bind fun left =>
    hrounds _ _ left

theorem uses_killRemaining (left : List ProcessIdentity) :
    (killRemaining cfg left).Uses Op.NoStop := by
  unfold killRemaining
  split
  · trivial
  · refine ((uses_signalTree cfg left .kill).mono fun o ⟨pid, h⟩ => ?_).bind fun _ =>
      uses_waitForExit left cfg.killGrace
    exact h.noStop (by simp)

/-- **A termination that fails leaves nobody stopped.** -/
theorem terminate_ends {root : Option ProcessIdentity} {processes : List ProcessIdentity}
    (hs : s.Calm) :
    Ends machine (sparing cfg) (terminate cfg i root processes) (fun _ _ => True)
      (fun _ t => t.Calm) s := by
  refine (freezeRounds_ends hs.stopped).bind fun ps t ht => ?_
  split
  · next hempty =>
    subst hempty
    have hcalm : t.Calm := fun b hb => by
      obtain ⟨p, hp, -⟩ := ht b hb
      cases hp
    refine (rests_calm.ends ?_ hcalm).mono (fun _ _ _ => trivial) fun _ _ h => h
    exact Prog.Uses.bind (uses_ask trivial) fun _ => trivial
  · refine (signalTree_ends ht).bind fun _ t₁ ht₁ => ?_
    refine (resumeTree_ends ht₁).bind fun _ t₂ ht₂ => ?_
    -- nobody is stopped any more
    refine (rests_calm.ends ?_ ht₂).mono (fun _ _ _ => trivial) fun _ _ h => h
    refine (uses_waitForExit ps _).bind fun left => (uses_killRemaining left).bind fun left' => ?_
    split
    · trivial
    · exact Prog.Uses.bind (uses_ask trivial) fun _ => trivial

theorem uses_validateIdentity : (validateIdentity cfg i).Uses Op.NoStop := by
  refine Prog.Uses.bind (uses_ask trivial) fun isFile => ?_
  split
  · trivial
  · refine Prog.Uses.bind (uses_ask trivial).attempt fun r => ?_
    split
    · trivial
    · trivial
    · trivial
    · split
      · trivial
      · refine Prog.Uses.bind (uses_readProcess trivial) fun process => ?_
        split
        · trivial
        · have hevidence : (evidence i.workerPid.toNat).Uses Op.NoStop :=
            Prog.Uses.bind (uses_ask trivial) fun _ =>
              Prog.Uses.bind (uses_ask trivial) fun _ => trivial
          refine hevidence.attempt.bind fun r => ?_
          split
          · split <;> trivial
          · split <;> trivial

end Request

end Sparing

/-- **An error leaves nobody stopped.** Whatever forks, exits and reuse of pids run between the
operations, and wherever the request raises, each process that it stopped has been resumed or has
exited, if operations fail only where that does no harm and no process is born under a contested
pid. -/
theorem raised_calm {cfg : Config} {request : List (Text × Value)} {s s' : State} {e : Error}
    (hstops : s.stops = [])
    (hrun : Runs machine (sparing cfg) (handleRequest cfg request) s (.raised e) s') :
    s'.Calm := by
  have hcalm : s.Calm := fun b hb => by
    have hmem := hb.1
    rw [hstops] at hmem
    cases hmem
  refine Ends.raised (R := fun _ t => t.Calm) (Q := fun _ _ => True) ?_ hrun
  unfold handleRequest
  cases parseRequest cfg request with
  | error e => exact Ends.raise hcalm
  | ok parsed =>
    obtain ⟨method, i⟩ := parsed
    refine (rests_calm.ends uses_validateIdentity hcalm).bind fun process s₁ h₁ => ?_
    refine (matchingAttemptProcesses_rests rests_calm h₁).bind fun found s₂ h₂ => ?_
    refine Ends.bind ((asks_rests rests_calm .time trivial rfl (fun _ h => h) h₂).mono
      (fun _ _ h => h) fun _ _ h => h.1) fun observedAt s₃ h₃ => ?_
    split
    · trivial
    · cases method with
      | probe => trivial
      | terminate => exact terminate_ends h₃

/-- The undisturbed request: the worker handles its signals and stays. It has been resumed. -/
theorem stubbornWorker_calm :
    (machine.eval (handleRequest sampleConfig sampleRequest) sampleState).2.Calm := by
  have hstill : ∀ s, (sparing sampleConfig).others s s := fun s => ⟨[], rfl, trivial⟩
  have hsound : ∀ s o, (sparing sampleConfig).faults s o .none := fun _ _ => .inl rfl
  have hrun := eval_runs (M := machine) hstill hsound (handleRequest sampleConfig sampleRequest)
    sampleState
  have herror : (machine.eval (handleRequest sampleConfig sampleRequest) sampleState).1 =
      .raised (.request "termination_failed") := by decide +kernel
  rw [herror] at hrun
  exact raised_calm rfl hrun

instance (s : State) (b : Birth) : Decidable (s.Halted b) :=
  inferInstanceAs (Decidable (b ∈ s.stops ∧ ∃ e ∈ s.entries, e.birth = b ∧ e.mode = .stopped))

/-- The neighbour exits while its `stat` is read in the second round. -/
def lateFault : List (Fault Error) :=
  List.replicate 30 Fault.none ++ [Fault.failBefore .os]

/-- The faults an operation can meet. -/
def mayMeet (o : Op) : Fault Error → Bool
  | .none => true
  | .failBefore e => o.mayFail e
  | _ => false

/-- A read that fails in the second round leaves the worker stopped. -/
theorem lateFault_halts :
    ∃ s', Runs machine interfering (handleRequest sampleConfig sampleRequest) sampleState
        (.raised (.request "process_evidence_unavailable")) s' ∧
      s'.Halted sampleWorker.birth := by
  have hstill : ∀ s, interfering.others s s := fun s => ⟨[], rfl⟩
  have hmay : ∀ s o f, mayMeet o f = true → interfering.faults s o f := by
    intro s o f h
    cases f with
    | none => exact .inl rfl
    | failBefore e => exact .inr ⟨e, rfl, h⟩
    | _ => cases h
  have hreplay : machine.permitted mayMeet (handleRequest sampleConfig sampleRequest) lateFault
          sampleState = true ∧
      (machine.replay (handleRequest sampleConfig sampleRequest) lateFault sampleState).1 =
          .raised (.request "process_evidence_unavailable") ∧
      (machine.replay (handleRequest sampleConfig sampleRequest) lateFault
          sampleState).2.Halted sampleWorker.birth := by
    decide +kernel
  obtain ⟨hpermitted, herror, hhalted⟩ := hreplay
  have hrun := replay_runs_permitted hstill hmay hpermitted
  rw [herror] at hrun
  exact ⟨_, hrun, hhalted⟩

end HollysysController.WorkerSupervisor
