import HollysysController.TerminalNotices

/-! # Leaving degradation

A degraded run leaves through the recovery of an outage it is tied to. The close
of an outage and the reactivation of its runs are separate commits, and so are
the record of a failure and the degradation of its run. -/

namespace HollysysController

open Durable

/-! ## Runs and their outages -/

/-- `^hollysys-[a-z0-9]{20}$`. -/
def isRunKey (k : String) : Bool :=
  let rest := k.toList.drop 9
  "hollysys-".toList.isPrefixOf k.toList && rest.length == 20 &&
    rest.all fun c => c.isLower || c.isDigit

/-- An open outage is associated with the run. -/
def HasOutage (k : String) (s : Store) : Prop :=
  s.runOutages k ≠ []

/-- Every degraded run has an open outage, so its recovery returns the run to active. -/
def Leavable (w : World) : Prop :=
  ∀ k, isRunKey k = true → stateOf k w = .dependencyDegraded → HasOutage k w.store

/-- The outage of the dependency is open under this id. -/
def OpenRow (s : Store) (dependency : String) (outageId : Nat) : Prop :=
  ∃ o ∈ s.outages, o.isOpen = true ∧ o.dependency = dependency ∧ o.outageId = outageId

/-- The dependency is the key of the table of outages. -/
def Keyed (s : Store) : Prop :=
  ∀ o ∈ s.outages, ∀ o' ∈ s.outages, o.dependency = o'.dependency → o = o'

/-- No run is tied to the outages of requests. -/
def Tied (s : Store) : Prop :=
  ∀ a ∈ s.outageRuns, isRunKey a.2.2 = true → ∀ d : String, a.1 ≠ s!"{d}:request"

/-- What holds between the handlings of outages. -/
structure Sound (w : World) : Prop where
  leavable : Leavable w
  keyed : Keyed w.store
  tied : Tied w.store

theorem hasOutage_iff {k : String} {s : Store} :
    HasOutage k s ↔ ∃ d i, OpenRow s d i ∧ (d, i, k) ∈ s.outageRuns := by
  unfold HasOutage
  constructor
  · intro h
    obtain ⟨o, ho⟩ := List.exists_mem_of_ne_nil _ h
    simp only [Store.runOutages, List.mem_filter, Bool.and_eq_true, List.contains_iff_mem] at ho
    exact ⟨o.dependency, o.outageId, ⟨o, ho.1, ho.2.1, rfl, rfl⟩, ho.2.2⟩
  · rintro ⟨d, i, ⟨o, ho, hopen, rfl, rfl⟩, htie⟩
    refine List.ne_nil_of_mem (a := o) ?_
    simp only [Store.runOutages, List.mem_filter, Bool.and_eq_true, List.contains_iff_mem]
    exact ⟨ho, hopen, htie⟩

/-! ## Steps that strand no run -/

/-- Outages stay open and tied, and what becomes degraded has one. -/
structure Grows (w w' : World) : Prop where
  opened : ∀ d i, OpenRow w.store d i → OpenRow w'.store d i
  ties : ∀ a ∈ w.store.outageRuns, a ∈ w'.store.outageRuns
  degraded : ∀ k, isRunKey k = true → stateOf k w' = .dependencyDegraded →
    stateOf k w = .dependencyDegraded ∨ HasOutage k w'.store
  keyed : Keyed w'.store
  tied : Tied w.store → Tied w'.store

variable {w w' : World}

theorem Grows.hasOutage (h : Grows w w') {k : String} (hk : HasOutage k w.store) :
    HasOutage k w'.store := by
  rw [hasOutage_iff] at hk ⊢
  obtain ⟨d, i, hopen, htie⟩ := hk
  exact ⟨d, i, h.opened d i hopen, h.ties _ htie⟩

theorem Grows.leavable (h : Grows w w') (hw : Leavable w) : Leavable w' := by
  intro k hkey hk
  rcases h.degraded k hkey hk with hbefore | hout
  · exact h.hasOutage (hw k hkey hbefore)
  · exact hout

theorem Grows.sound (h : Grows w w') (hw : Sound w) : Sound w' :=
  ⟨h.leavable hw.leavable, h.keyed, h.tied hw.tied⟩

/-- A step that leaves the outages alone and degrades no run. -/
theorem grows_of_same (hw : Keyed w.store) (houtages : w'.store.outages = w.store.outages)
    (hruns : w'.store.outageRuns = w.store.outageRuns)
    (hstate : ∀ k, stateOf k w' = .dependencyDegraded → stateOf k w = .dependencyDegraded) :
    Grows w w' := by
  refine ⟨fun d i h => ?_, fun a ha => ?_, fun k _ hk => .inl (hstate k hk), ?_, fun h => ?_⟩
  · rwa [OpenRow, houtages]
  · rwa [hruns]
  · rwa [Keyed, houtages]
  · rwa [Tied, hruns]

/-- The operations outside the handling of outages. -/
def Op.Apart : Op → Prop
  | .store (.transitionRun t) => t.newState ≠ .dependencyDegraded
  | .store (.associateOutageRun _ _ _) | .store (.recoverDependency _) => False
  | _ => True

/-- Apart from the handling of outages, no run becomes degraded. -/
theorem apart_avoids {o : StoreOp} (ho : (Op.store o).Apart) (now : Nat) (s : Store) (k : String)
    (h : (((o.exec now s).2.runControl k).getD {}).state = .dependencyDegraded) :
    ((s.runControl k).getD {}).state = .dependencyDegraded := by
  have hne : ∀ s : RunState, s.isScheduled = false → s ≠ .dependencyDegraded := by
    rintro s hs rfl
    cases hs
  by_cases hw : Column.control ∈ o.writes
  · cases o <;> simp only [StoreOp.writes, List.mem_cons, List.not_mem_nil, reduceCtorEq,
      or_self, or_false, false_or] at hw
    case ensureRunControl key => exact (ensureRunControl_avoids (hne _ rfl) key).commit s k h
    case confirmAbortRequest c => exact confirmAbortRequest_avoids (hne _ rfl) c now s k h
    case transitionRun t => exact (transitionRun_avoids ho now).commit s k h
    case setRunException key reason =>
      exact (setRunException_avoids (hne _ rfl) key reason now).commit s k h
    case markFlowCompleted key state head reason =>
      by_cases hstate : state = .dependencyDegraded
      · subst hstate
        exact h
      · exact (markFlowCompleted_avoids hstate key head reason now).commit s k h
    case markCompleted key external compliance head merge reason =>
      exact (markCompleted_avoids (hne _ rfl) key external compliance head merge reason now).commit
        s k h
    case markAborting key => exact (markAborting_avoids (hne _ rfl) key).commit s k h
    case finishAbort key merged head merge =>
      refine (finishAbort_avoids (hne _ ?_) key head merge now).commit s k h
      cases merged <;> rfl
  · have hget := o.exec_get (c := .control) now s hw
    simp only [Column.get] at hget
    rwa [hget] at h

/-- A failure goes on with the open outage. -/
theorem recordDependencyFailure_grows (f : DependencyFailure) (hw : Keyed w.store) :
    Grows w (machine.exec (.store (.recordDependencyFailure f)) w).2 := by
  have hrows : ∀ o ∈ w.store.outages, o.isOpen = true → o.dependency = f.dependency →
      w.store.outages.find? (fun o => o.dependency == f.dependency && o.isOpen) = some o := by
    intro o ho hopen hdep
    cases hfind : w.store.outages.find? (fun o => o.dependency == f.dependency && o.isOpen) with
    | none =>
      have := List.find?_eq_none.mp hfind o ho
      simp [hopen, hdep] at this
    | some o' =>
      have hmem := List.mem_of_find?_eq_some hfind
      have hsome := List.find?_some hfind
      simp only [Bool.and_eq_true, beq_iff_eq] at hsome
      rw [hw o' hmem o ho (hsome.1.trans hdep.symm)]
  rw [exec_store]
  refine ⟨fun d i h => ?_, fun a ha => ha, fun k _ hk => .inl hk, ?_, fun h => h⟩
  · obtain ⟨o, ho, hopen, rfl, rfl⟩ := h
    by_cases hdep : o.dependency = f.dependency
    · simp [OpenRow, StoreOp.exec, Txn.commit, recordDependencyFailure, hrows o ho hopen hdep, hdep]
    · refine ⟨o, ?_, hopen, rfl, rfl⟩
      simp [StoreOp.exec, Txn.commit, recordDependencyFailure, ho, hdep]
  · intro o ho o' ho' hsame
    simp only [StoreOp.exec, Txn.commit, recordDependencyFailure, List.mem_append, List.mem_filter,
      List.mem_singleton, bne_iff_ne, ne_eq] at ho ho'
    rcases ho with ⟨ho, hne⟩ | rfl <;> rcases ho' with ⟨ho', hne'⟩ | rfl
    · exact hw o ho o' ho' hsame
    · exact absurd hsame hne
    · exact absurd hsame.symm hne'
    · rfl

/-- What happens apart from the handling of outages strands no run. -/
theorem apart_grows {o : Op} (ho : o.Apart) (hw : Keyed w.store) :
    Grows w (machine.exec o w).2 := by
  cases o with
  | store o =>
    by_cases hout : Column.outages ∈ o.writes
    · cases o <;> simp only [StoreOp.writes, List.mem_cons, List.not_mem_nil, reduceCtorEq,
        or_self, or_false] at hout <;> first
        | exact ho.elim
        | exact recordDependencyFailure_grows _ hw
    · have hget := o.exec_get (c := .outages) w.now w.store hout
      simp only [Column.get, Prod.mk.injEq] at hget
      exact grows_of_same hw hget.1 hget.2.1 fun k => apart_avoids ho w.now w.store k
  | hermes o => exact grows_of_same hw rfl rfl fun _ => id
  | gitlab o => exact grows_of_same hw rfl rfl fun _ => id
  | host o => exact grows_of_same hw rfl rfl fun _ => id

/-- A run is tied to an outage that is not a request's. -/
theorem associate_grows {d k : String} (i : Nat)
    (hd : isRunKey k = true → ∀ base : String, d ≠ s!"{base}:request") (hw : Keyed w.store) :
    Grows w (machine.exec (.store (.associateOutageRun d i k)) w).2 := by
  rw [exec_store]
  simp only [StoreOp.exec, Txn.commit, associateOutageRun]
  by_cases hold : w.store.outageRuns.contains (d, i, k) = true
  · simp only [hold, if_true]
    exact grows_of_same hw rfl rfl fun _ => id
  · simp only [hold]
    refine ⟨fun _ _ => id, fun a ha => by simp [ha], fun k _ hk => .inl hk, hw, fun h a ha => ?_⟩
    rcases List.mem_append.mp ha with ha | ha
    · exact h a ha
    · obtain rfl := List.mem_singleton.mp ha
      exact hd

/-- A transition degrades no run but its own, and none that it does not start from. -/
theorem transition_keeps {t : Transition} {k : String}
    (hfrom : t.runKey = k → ∀ row, w.store.runControl t.runKey = some row →
      row.state ∈ t.expectedStates → row.state = .dependencyDegraded)
    (hk : stateOf k (machine.exec (.store (.transitionRun t)) w).2 = .dependencyDegraded) :
    stateOf k w = .dependencyDegraded := by
  rw [exec_store] at hk
  simp only [stateOf, StoreOp.exec, Txn.commit] at hk ⊢
  rcases hx : transitionRun t w.now w.store with e | ⟨a, s'⟩
  · rwa [hx] at hk
  · rw [hx] at hk
    by_cases hkey : t.runKey = k
    · unfold transitionRun at hx
      split at hx
      · cases hx
      · next row hrow =>
        split at hx
        · cases hx
        · next hstate =>
          rw [not_not] at hstate
          rw [← hkey, hrow]
          exact hfrom hkey row hrow hstate
    · rwa [transitionRun_other hkey hx] at hk

/-- A transition to the degraded state is about a run that has an outage, or is degraded. -/
theorem degrade_grows {t : Transition}
    (hfrom : HasOutage t.runKey w.store ∨ t.expectedStates = [.dependencyDegraded])
    (hw : Keyed w.store) : Grows w (machine.exec (.store (.transitionRun t)) w).2 := by
  have hsame : ∀ {c : Column}, c ≠ .control →
      c.get (machine.exec (.store (.transitionRun t)) w).2.store = c.get w.store := fun hc =>
    (StoreOp.transitionRun t).exec_get w.now w.store (by simpa [StoreOp.writes] using hc)
  have hrows := hsame (c := .outages) (by simp)
  simp only [Column.get, Prod.mk.injEq] at hrows
  obtain ⟨houtages, hruns, -⟩ := hrows
  refine ⟨fun d i h => by rwa [OpenRow, houtages], fun a ha => by rwa [hruns], fun k _ hk => ?_,
    by rwa [Keyed, houtages], fun h => by rwa [Tied, hruns]⟩
  rcases hfrom with hout | hfrom
  · by_cases hkey : t.runKey = k
    · subst hkey
      right
      rw [hasOutage_iff] at hout ⊢
      obtain ⟨d, i, hopen, htie⟩ := hout
      exact ⟨d, i, by rwa [OpenRow, houtages], by rwa [hruns]⟩
    · exact .inl (transition_keeps (fun h => absurd h hkey) hk)
  · exact .inl (transition_keeps (fun _ row _ hrow => by simpa [hfrom] using hrow) hk)

/-! ## Names of outages -/

theorem isRunKey_plain {k : String} (hk : isRunKey k = true) :
    ':' ∉ k.toList ∧ k ≠ "request" := by
  have hrequest : isRunKey "request" = false := by decide +kernel
  refine ⟨fun hcolon => ?_, fun h => ?_⟩
  · simp only [isRunKey, Bool.and_eq_true, List.all_eq_true] at hk
    obtain ⟨⟨hmarked, -⟩, hrest⟩ := hk
    obtain ⟨rest, hlist⟩ := List.isPrefixOf_iff_prefix.mp hmarked
    rw [← hlist] at hcolon hrest
    rcases List.mem_append.mp hcolon with hcolon | hcolon
    · revert hcolon
      decide +kernel
    · have := hrest ':' (by simpa using hcolon)
      revert this
      decide +kernel
  · rw [h, hrequest] at hk
    cases hk

/-- What follows the last colon. -/
theorem after_colon {l l' r r' : List Char} (hr : ':' ∉ r) (hr' : ':' ∉ r')
    (h : l ++ ':' :: r = l' ++ ':' :: r') : r = r' := by
  rcases List.append_eq_append_iff.mp h with ⟨m, rfl, hm⟩ | ⟨m, rfl, hm⟩
  · cases m with
    | nil => exact (List.cons.inj hm).2
    | cons c m =>
      obtain ⟨-, rfl⟩ := List.cons.inj hm
      exact absurd (by simp) hr
  · cases m with
    | nil => exact (List.cons.inj hm).2.symm
    | cons c m =>
      obtain ⟨-, rfl⟩ := List.cons.inj hm
      exact absurd (by simp) hr'

/-- The outage of a run is not the outage of a request. -/
theorem runScope_ne {k : String} (hk : isRunKey k = true) (base other : String) :
    s!"{base}:{k}" ≠ s!"{other}:request" := by
  intro h
  obtain ⟨hcolon, hne⟩ := isRunKey_plain hk
  have hlist := congrArg String.toList h
  simp only [String.toList_append, toString] at hlist
  have hplain : ':' ∉ "request".toList := by decide +kernel
  have := after_colon (l := base.toList) hcolon hplain (by simpa using hlist)
  exact hne (String.toList_inj.mp this)

theorem gitlab_ne (base : String) : "gitlab" ≠ s!"{base}:request" := by
  intro h
  have hcolon : ':' ∈ "gitlab".toList := by
    rw [h]
    simp [toString]
  revert hcolon
  decide +kernel

theorem recorded_open {f : DependencyFailure} {w w' : World} {outage : Outage}
    (h : machine.exec (.store (.recordDependencyFailure f)) w = (.ok outage, w')) :
    OpenRow w'.store f.dependency outage.outageId := by
  cases h
  exact ⟨_, List.mem_append_right _ (List.mem_singleton.mpr rfl), rfl, rfl, rfl⟩

theorem associated {d k : String} {i : Nat} {w w' : World}
    (h : machine.exec (.store (.associateOutageRun d i k)) w = (.ok (), w')) :
    (d, i, k) ∈ w'.store.outageRuns := by
  obtain rfl : (machine.exec (.store (.associateOutageRun d i k)) w).2 = w' := congrArg Prod.snd h
  rw [exec_store]
  simp only [StoreOp.exec, Txn.commit, associateOutageRun]
  by_cases hold : w.store.outageRuns.contains (d, i, k) = true
  · simp only [hold, if_true]
    exact List.contains_iff_mem.mp hold
  · simp only [hold, Bool.false_eq_true, if_false]
    simp

/-- The scope of a failure is no request's. -/
theorem dependencyScope_ne {k : String} (hk : isRunKey k = true) (kind : DependencyKind)
    (c : ErrorContext) (base : String) : dependencyScope k kind c ≠ s!"{base}:request" := by
  unfold dependencyScope
  split
  · next h =>
    rw [h.1]
    exact gitlab_ne base
  · exact runScope_ne hk _ _

/-! ## The handling of outages -/

/-- What opens and closes the outages of runs. -/
inductive OutageWork where
  | failure (runKey : String) (kind : DependencyKind) (text : String) (c : ErrorContext)
  | recovery (runKey base : String)
  | circuit

def OutageWork.run (cfg : Config) : OutageWork → Service Unit
  | .failure runKey kind text c => handleDependencyError cfg runKey kind text c
  | .recovery runKey base => recoverRunDependency cfg runKey base
  | .circuit => recoverGitlabCircuit cfg

/-- The other threads close no outage meanwhile, and leave the degraded runs alone. -/
structure Minds (w w' : World) : Prop where
  grows : Keyed w.store → Grows w w'
  rows : ∀ k, stateOf k w = .dependencyDegraded → w'.store.runControl k = w.store.runControl k

/-- No degraded run has the outage of the dependency only. -/
def Spares (d : String) (w : World) : Prop :=
  ∀ k, isRunKey k = true → stateOf k w = .dependencyDegraded →
    ∃ d' i, d' ≠ d ∧ OpenRow w.store d' i ∧ (d', i, k) ∈ w.store.outageRuns

/-- Other threads mind the handling, and nothing fails or stops between the close of the last
outage of a degraded run and its reactivation. -/
structure Uncut (E : Setting Op ControllerError World) : Prop where
  others : ∀ w w', E.others w w' → Minds w w'
  /-- The close is answered. -/
  closes : ∀ w d f, E.faults w (.store (.recoverDependency d)) f → Spares d w ∨
    f ≠ .stopAfter ∧ ∀ e, f ≠ .failAfter e
  /-- The reactivation follows. -/
  follows : ∀ w o f, E.faults w o f → Leavable w ∨ f = .none

/-- Steps of the service: operations apart from the handling of outages, by any thread, the
close of the outage of a request, and handlings in their settings. -/
inductive OutageStep (C : Setting Op ControllerError World → Prop) : World → World → Prop
  | op {w : World} (o : Op) (ho : o.Apart) : OutageStep C w (machine.exec o w).2
  | request {w : World} (base : String) :
      OutageStep C w (machine.exec (.store (.recoverDependency s!"{base}:request")) w).2
  | outside {w w' : World} (hstore : w'.store = w.store) : OutageStep C w w'
  | work {E : Setting Op ControllerError World} {w w' : World}
      {r : Durable.Outcome ControllerError Unit} (cfg : Config) (x : OutageWork) (hE : C E)
      (hrun : Runs machine E (x.run cfg) w r w') : OutageStep C w w'

/-- Between the handlings of outages every degraded run has an open outage. -/
def NoStrandedRun (C : Setting Op ControllerError World → Prop) : Prop :=
  ∀ w w' : World, w.store = {} → Relation.ReflTransGen (OutageStep C) w w' → Leavable w'

/-! ## What is kept in a handling -/

/-- A property that lasts while outages stay open and no run is stranded. -/
structure Lasting (I : World → Prop) : Prop where
  keyed : ∀ w, I w → Keyed w.store
  grows : ∀ w w', I w → Grows w w' → I w'

theorem lasting_sound : Lasting Sound :=
  ⟨fun _ hw => hw.keyed, fun _ _ hw h => h.sound hw⟩

theorem Lasting.opened {I : World → Prop} (hI : Lasting I) (d : String) (i : Nat) :
    Lasting fun w => I w ∧ OpenRow w.store d i :=
  ⟨fun w hw => hI.keyed w hw.1, fun w w' hw h => ⟨hI.grows w w' hw.1 h, h.opened d i hw.2⟩⟩

theorem Lasting.hasOutage {I : World → Prop} (hI : Lasting I) (k : String) :
    Lasting fun w => I w ∧ HasOutage k w.store :=
  ⟨fun w hw => hI.keyed w hw.1, fun w w' hw h => ⟨hI.grows w w' hw.1 h, h.hasOutage hw.2⟩⟩

section Uncut

variable {E : Setting Op ControllerError World} (hE : Uncut E) {I : World → Prop}
  (hI : Lasting I)
include hE hI

theorem Lasting.others : ∀ w w', I w → E.others w w' → I w' :=
  fun w w' hw h => hI.grows w w' hw ((hE.others w w' h).grows (hI.keyed w hw))

theorem Lasting.keeps_op {o : Op} (ho : ∀ w, I w → Grows w (machine.exec o w).2) :
    Keeps machine E I (Prog.op o) :=
  Durable.keeps_op (hI.others hE) fun w hw => hI.grows _ _ hw (ho w hw)

theorem Lasting.apart {o : Op} (ho : o.Apart) : Keeps machine E I (Prog.op o) :=
  hI.keeps_op hE fun w hw => apart_grows ho (hI.keyed w hw)

/-- Reads and notices. -/
theorem Lasting.reads : Reading (fun {α} (p : Service α) => Keeps machine E I p) :=
  { closed_keeps with
    store := fun o ho => hI.apart hE (by cases o <;> first | exact trivial | cases ho)
    hermes := fun _ _ => hI.apart hE trivial
    gitlab := fun _ _ => hI.apart hE trivial
    artifact := fun _ _ => hI.apart hE trivial
    host := fun _ => hI.apart hE trivial }

omit hI in
theorem Lasting.outageNotice (hI : Lasting I) (silent : Bool) (runKey : String) (row : OutboxRow) :
    Keeps machine E I (if silent then pure () else do
      match ← (history runKey).attempt with
      | .error _ => pure ()
      | .ok _ => store (.enqueue row)) :=
  (hI.reads hE).outageNotice silent runKey (hI.apart hE trivial)

/-! ## Failures -/

theorem Lasting.openHostCircuit (cfg : Config) (kind : DependencyKind) (c : ErrorContext) :
    Keeps machine E I (openHostCircuit cfg kind c) := by
  have k := closed_keeps (M := machine) (E := E) (I := I)
  refine k.bind (hI.apart hE trivial) fun runs => ?_
  split
  · refine k.bind (hI.apart hE trivial) fun outage => ?_
    have hassociate : ∀ runKey, Keeps machine E I
        (store (.associateOutageRun "gitlab" outage.outageId runKey)) := fun runKey =>
      hI.keeps_op hE fun w hw => associate_grows _ (fun _ => gitlab_ne) (hI.keyed w hw)
    exact k.forM hassociate runs
  · exact k.pure _

end Uncut

section Failures

variable {E : Setting Op ControllerError World} (hE : Uncut E)
include hE

/-- The run that has an outage is degraded. -/
theorem degrade_keeps (cfg : Config) (runKey : String) (kind : DependencyKind) (c : ErrorContext)
    (outage : Outage) : Keeps machine E (fun w => Sound w ∧ HasOutage runKey w.store) (do
      match ← store (.runControl runKey) with
      | none => pure ()
      | some control =>
        match degradedState control.state with
        | none => pure ()
        | some newState =>
          let _ ← store (.transitionRun {
            runKey
            expectedStates := [control.state]
            newState
            reason := outageReason kind c
            expectedVersion := some control.stateVersion
            nextRetryAt := some outage.nextRetryAt })
      enqueueDependencyOutage cfg runKey outage) := by
  have hI := lasting_sound.hasOutage runKey
  have k := closed_keeps (M := machine) (E := E) (I := fun w => Sound w ∧ HasOutage runKey w.store)
  have hnotice := hI.outageNotice hE (!cfg.progressNotices && outage.kind != .auth) runKey
    { key := s!"{runKey}:dependency-outage:{outage.outageId}", runKey, event := "dependency-outage" }
  refine k.bind (hI.apart hE trivial) fun control => ?_
  cases control with
  | none => exact hnotice
  | some control =>
    dsimp only
    split
    · exact hnotice
    · exact k.bind (hI.keeps_op hE fun w hw => degrade_grows (.inl hw.2) hw.1.keyed) fun _ => hnotice

/-- `_handle_dependency_error` degrades a run that has an outage. -/
theorem failure_keeps (cfg : Config) (runKey : String) (kind : DependencyKind) (text : String)
    (c : ErrorContext) : Keeps machine E Sound (handleDependencyError cfg runKey kind text c) := by
  intro w hw
  unfold handleDependencyError
  split
  · exact hw
  · rw [Prog.bind_def, wp_bind]
    refine wp_mono (fun r w₁ h₁ => ?_) (keeps_answer (lasting_sound.others hE)
      (fun w hw => (recordDependencyFailure_grows _ hw.keyed).sound hw) hw)
    cases r with
    | raised e => exact h₁.1
    | stopped => exact h₁.1
    | returned outage =>
      obtain ⟨w₀, -, hrecorded⟩ := h₁.2 outage rfl
      have hopen := recorded_open hrecorded
      have hI := lasting_sound.opened (dependencyScope runKey kind c) outage.outageId
      dsimp only
      rw [Prog.bind_def, wp_bind]
      refine wp_mono (fun r w₂ h₂ => ?_) (keeps_answer (hI.others hE) (fun w hw =>
        hI.grows _ _ hw (associate_grows _ (fun hk => dependencyScope_ne hk kind c) hw.1.keyed))
        ⟨h₁.1, hopen⟩)
      cases r with
      | raised e => exact h₂.1.1
      | stopped => exact h₂.1.1
      | returned u =>
        obtain ⟨w₃, -, hassociated⟩ := h₂.2 u rfl
        have hhas : HasOutage runKey w₂.store :=
          hasOutage_iff.mpr ⟨_, _, h₂.1.2, associated hassociated⟩
        have hI := lasting_sound.hasOutage runKey
        have hdegrade := degrade_keeps hE cfg runKey kind c outage
        refine wp_mono (fun _ _ h => h.1) (?_ : wp machine E _
          (fun _ w' => Sound w' ∧ HasOutage runKey w'.store) w₂)
        split
        · exact closed_keeps.bind (hI.openHostCircuit hE cfg kind c) (fun _ => hdegrade) w₂
            ⟨h₂.1.1, hhas⟩
        · exact hdegrade w₂ ⟨h₂.1.1, hhas⟩

end Failures

/-! ## Recoveries -/

/-- Of the degraded runs, those of the list may be left without an outage. -/
structure Pending (runs : List String) (w : World) : Prop where
  leavable : ∀ k, isRunKey k = true → stateOf k w = .dependencyDegraded →
    HasOutage k w.store ∨ k ∈ runs
  keyed : Keyed w.store
  tied : Tied w.store

theorem Pending.sound {runs : List String} (h : Pending runs w) (hw : Leavable w) : Sound w :=
  ⟨hw, h.keyed, h.tied⟩

theorem Pending.done (h : Pending [] w) : Sound w :=
  h.sound fun k hkey hk => (h.leavable k hkey hk).resolve_right List.not_mem_nil

theorem lasting_pending (runs : List String) : Lasting (Pending runs) := by
  refine ⟨fun w hw => hw.keyed, fun w w' hw h => ⟨fun k hkey hk => ?_, h.keyed, h.tied hw.tied⟩⟩
  rcases h.degraded k hkey hk with hbefore | hout
  · exact (hw.leavable k hkey hbefore).imp_left h.hasOutage
  · exact .inl hout

theorem lasting_tied (d : String) (i : Nat) :
    Lasting fun w => Pending (w.store.outageRunKeys d i) w := by
  refine ⟨fun w hw => hw.keyed, fun w w' hw h => ?_⟩
  have hgrown := (lasting_pending _).grows w w' hw h
  refine ⟨fun k hkey hk => (hgrown.leavable k hkey hk).imp_right fun hmem => ?_, hgrown.keyed,
    hgrown.tied⟩
  simp only [Store.outageRunKeys, List.mem_map, List.mem_filter] at hmem ⊢
  obtain ⟨a, ha, rfl⟩ := hmem
  exact ⟨a, ⟨h.ties a ha.1, ha.2⟩, rfl⟩

/-- A run that is not degraded needs no outage. -/
theorem Pending.skip {k : String} {runs : List String} (h : Pending (k :: runs) w)
    (hk : isRunKey k = true → stateOf k w = .dependencyDegraded → HasOutage k w.store) :
    Pending runs w := by
  refine ⟨fun k' hkey hstate => ?_, h.keyed, h.tied⟩
  rcases h.leavable k' hkey hstate with hout | hmem
  · exact .inl hout
  · rcases List.mem_cons.mp hmem with rfl | hmem
    · exact .inl (hk hkey hstate)
    · exact .inr hmem

/-- The run is reactivated, or waits on with the outage that is open yet. -/
theorem recovered_pending {base runKey : String} {control : RunControl} {remaining : List Outage}
    {runs : List String} {w : World} (hw : Pending (runKey :: runs) w)
    (hrow : w.store.runControl runKey = some control)
    (hstate : control.state = .dependencyDegraded)
    (hremaining : remaining ≠ [] → HasOutage runKey w.store) :
    ∃ a w', machine.exec (.store (.transitionRun (recoveryTransition runKey base control remaining))) w =
      (.ok a, w') ∧ Pending runs w' := by
  obtain ⟨row, hnew⟩ : ∃ row, row =
    (recoveryTransition runKey base control remaining).apply w.now control := ⟨_, rfl⟩
  have hrowState : row.state = if remaining = [] then .active else .dependencyDegraded := by
    rw [hnew]
    rfl
  refine ⟨row, { w with store := { w.store with
    runControl := w.store.runControl.put runKey row } }, ?_, ?_⟩
  · rw [hnew]
    simp [machine, Op.exec, StoreOp.exec, Txn.commit, transitionRun, recoveryTransition, hrow, hstate]
  · refine ⟨fun k hkey hk => ?_, hw.keyed, hw.tied⟩
    by_cases hk' : k = runKey
    · subst hk'
      refine .inl (hremaining fun hnil => ?_)
      simp [stateOf, hrowState, hnil] at hk
    · simp only [stateOf, Table.put_apply, hk', if_false] at hk
      rcases hw.leavable k hkey hk with hout | hmem
      · exact .inl hout
      · exact .inr ((List.mem_cons.mp hmem).resolve_left hk')

/-- The store with the outages of the dependency closed. -/
def closed (d : String) (w : World) : World :=
  { w with store := { w.store with outages := w.store.outages.map fun o =>
      if o.dependency = d then { o with isOpen := false, failures := 0 } else o } }

theorem closed_opened {d d' : String} {i : Nat} (hne : d' ≠ d) (h : OpenRow w.store d' i) :
    OpenRow (closed d w).store d' i := by
  obtain ⟨o, ho, hopen, rfl, rfl⟩ := h
  exact ⟨o, List.mem_map.mpr ⟨o, ho, if_neg hne⟩, hopen, rfl, rfl⟩

theorem closed_keyed {d : String} (hw : Keyed w.store) : Keyed (closed d w).store := by
  intro o ho o' ho' hsame
  obtain ⟨p, hp, rfl⟩ := List.mem_map.mp ho
  obtain ⟨p', hp', rfl⟩ := List.mem_map.mp ho'
  have hdependency : ∀ q : Outage, (if q.dependency = d then
      { q with isOpen := false, failures := 0 } else q).dependency = q.dependency := fun q => by
    split <;> rfl
  rw [hdependency, hdependency] at hsame
  rw [hw p hp p' hp' hsame]

/-- A run that has another outage can leave yet. -/
theorem closed_sound {d : String} (hw : Sound w) (hspares : Spares d w) : Sound (closed d w) := by
  refine ⟨fun k hkey hk => ?_, closed_keyed hw.keyed, hw.tied⟩
  obtain ⟨d', i, hne, hopen, htie⟩ := hspares k hkey hk
  exact hasOutage_iff.mpr ⟨d', i, closed_opened hne hopen, htie⟩

/-- The runs that the closed outage was tied to are pending. -/
theorem closed_pending {d : String} {outage : Outage} (hw : Sound w)
    (hopen : w.store.openOutage d = some outage) :
    Pending ((closed d w).store.outageRunKeys d outage.outageId) (closed d w) := by
  have hmem := List.mem_of_find?_eq_some hopen
  have hsome := List.find?_some hopen
  simp only [Bool.and_eq_true, beq_iff_eq] at hsome
  refine ⟨fun k hkey hk => ?_, closed_keyed hw.keyed, hw.tied⟩
  obtain ⟨d', i, hrow, htie⟩ := hasOutage_iff.mp (hw.leavable k hkey hk)
  by_cases hd : d' = d
  · subst hd
    obtain ⟨o, ho, -, hdependency, rfl⟩ := hrow
    obtain rfl : o = outage := hw.keyed o ho outage hmem (hdependency.trans hsome.2.symm)
    right
    simp only [Store.outageRunKeys, List.mem_map, List.mem_filter, Bool.and_eq_true, beq_iff_eq]
    exact ⟨_, ⟨htie, rfl, rfl⟩, rfl⟩
  · exact .inl (hasOutage_iff.mpr ⟨d', i, closed_opened hd hrow, htie⟩)

theorem exec_recoverDependency (d : String) (w : World) :
    machine.exec (.store (.recoverDependency d)) w = match w.store.openOutage d with
      | none => (.ok none, w)
      | some outage => (.ok (some outage), closed d w) := by
  simp only [machine, Op.exec, StoreOp.exec, Txn.commit, recoverDependency]
  cases w.store.openOutage d <;> rfl

/-- The outage of a request is no run's last. -/
theorem request_sound (base : String) (hw : Sound w) :
    Sound (machine.exec (.store (.recoverDependency s!"{base}:request")) w).2 := by
  rw [exec_recoverDependency]
  split
  · exact hw
  · refine closed_sound hw fun k hkey hk => ?_
    obtain ⟨d, i, hopen, htie⟩ := hasOutage_iff.mp (hw.leavable k hkey hk)
    exact ⟨d, i, hw.tied _ htie hkey base, hopen, htie⟩

section Recoveries

variable {E : Setting Op ControllerError World} (hE : Uncut E)
include hE

/-- One operation while runs are pending: it is cut off only where all runs can leave. -/
theorem pending_op {I : World → Prop} {o : Op} (hothers : ∀ w w', I w → E.others w w' → I w')
    (hgrows : ∀ w, I w → Grows w (machine.exec o w).2)
    (hop : ∀ w, I w → I (machine.exec o w).2) {w : World} (hw : I w) :
    wp machine E (Prog.op o : Service o.Ret) (fun r w' => I w' ∧
      (r = .stopped → Leavable w') ∧
      (∀ e, r = .raised e → Leavable w' ∨ ∃ w₁, (machine.exec o w₁).1 = .error e) ∧
      ∀ a, r = .returned a → ∃ w₁, I w₁ ∧ machine.exec o w₁ = (.ok a, w')) w := by
  intro w₁ f ho hf
  have h₁ := hothers w w₁ hw ho
  have h₂ := hop w₁ h₁
  have hcut : f ≠ .none → Leavable w₁ ∧ Leavable (machine.exec o w₁).2 := fun hne => by
    have hleave := (hE.follows w₁ o f hf).resolve_right hne
    exact ⟨hleave, (hgrows w₁ h₁).leavable hleave⟩
  cases f with
  | none =>
    simp only [Machine.meet]
    rcases hx : machine.exec o w₁ with ⟨r, w₂⟩
    rw [hx] at h₂
    cases r with
    | ok a =>
      refine ⟨h₂, (fun h => by cases h), (fun _ h => by cases h), fun b hb => ?_⟩
      cases hb
      exact ⟨w₁, h₁, hx⟩
    | error e =>
      refine ⟨h₂, (fun h => by cases h), fun e' he => ?_, (fun _ h => by cases h)⟩
      cases he
      exact .inr ⟨w₁, by rw [hx]⟩
  | failBefore e =>
    have := hcut (by simp)
    exact ⟨h₁, (fun h => by cases h), fun _ _ => .inl this.1, (fun _ h => by cases h)⟩
  | failAfter e =>
    have := hcut (by simp)
    exact ⟨h₂, (fun h => by cases h), fun _ _ => .inl this.2, (fun _ h => by cases h)⟩
  | stopBefore =>
    have := hcut (by simp)
    exact ⟨h₁, fun _ => this.1, (fun _ h => by cases h), (fun _ h => by cases h)⟩
  | stopAfter =>
    have := hcut (by simp)
    exact ⟨h₂, fun _ => this.2, (fun _ h => by cases h), (fun _ h => by cases h)⟩

/-- While runs are pending, the program is stopped only where all runs can leave. -/
def Halts (E : Setting Op ControllerError World) (I : World → Prop) {α : Type} (p : Service α) :
    Prop :=
  ∀ w, I w → wp machine E p (fun r w' => I w' ∧ (r = .stopped → Leavable w')) w

omit hE in
theorem closed_halts (I : World → Prop) : Closed (fun {α} (p : Service α) => Halts E I p) where
  pure _ _ hw := ⟨hw, fun h => by cases h⟩
  raise _ _ hw := ⟨hw, fun h => by cases h⟩
  bind hp hf w hw := by
    rw [wp_bind]
    refine wp_mono (fun r w' h => ?_) (hp w hw)
    cases r with
    | returned a => exact hf a w' h.1
    | raised e => exact ⟨h.1, fun h => by cases h⟩
    | stopped => exact ⟨h.1, fun _ => h.2 rfl⟩
  attempt hp w hw := by
    rw [wp_attempt]
    refine wp_mono (fun r w' h => ?_) (hp w hw)
    cases r with
    | returned a => exact ⟨h.1, fun h => by cases h⟩
    | raised e => exact ⟨h.1, fun h => by cases h⟩
    | stopped => exact ⟨h.1, fun _ => h.2 rfl⟩

theorem Lasting.halts {I : World → Prop} (hI : Lasting I) {o : Op} (ho : o.Apart) :
    Halts E I (Prog.op o : Service o.Ret) := by
  intro w hw
  have hgrows : ∀ w, I w → Grows w (machine.exec o w).2 := fun w hw => apart_grows ho (hI.keyed w hw)
  exact wp_mono (fun r w' h => ⟨h.1, h.2.1⟩) (pending_op hE (hI.others hE) hgrows
    (fun w hw => hI.grows _ _ hw (hgrows w hw)) hw)

theorem Lasting.halting {I : World → Prop} (hI : Lasting I) :
    Reading (fun {α} (p : Service α) => Halts E I p) :=
  { closed_halts I with
    store := fun o ho => hI.halts hE (by cases o <;> first | exact trivial | cases ho)
    hermes := fun _ _ => hI.halts hE trivial
    gitlab := fun _ _ => hI.halts hE trivial
    artifact := fun _ _ => hI.halts hE trivial
    host := fun _ => hI.halts hE trivial }

/-- The recovery goes on with the pending runs, or ends where all runs can leave. -/
def Left (runs : List String) {α : Type} : Durable.Outcome ControllerError α → World → Prop
  | .returned _, w => Pending runs w
  | .raised _, w | .stopped, w => Sound w

/-- An operation that the store never refuses. -/
theorem left_op {o : Op} (ho : o.Apart) (htotal : ∀ w, ∃ a, (machine.exec o w).1 = .ok a)
    {runs : List String} {w : World} (hw : Pending runs w) :
    wp machine E (Prog.op o : Service o.Ret) (fun r w' => Left runs r w' ∧
      ∀ a, r = .returned a → ∃ w₁, Pending runs w₁ ∧ machine.exec o w₁ = (.ok a, w')) w := by
  have hI := lasting_pending runs
  have hgrows : ∀ w, Pending runs w → Grows w (machine.exec o w).2 := fun w hw =>
    apart_grows ho (hI.keyed w hw)
  refine wp_mono (fun r w' h => ⟨?_, h.2.2.2⟩) (pending_op hE (hI.others hE) hgrows
    (fun w hw => hI.grows _ _ hw (hgrows w hw)) hw)
  cases r with
  | returned a => exact h.1
  | stopped => exact h.1.sound (h.2.1 rfl)
  | raised e =>
    rcases h.2.2.1 e rfl with hleave | ⟨w₁, hrefused⟩
    · exact h.1.sound hleave
    · obtain ⟨a, ha⟩ := htotal w₁
      rw [ha] at hrefused
      cases hrefused

/-- The notice of a recovery is best effort. -/
theorem notice_left (silent : Bool) (runKey : String) {row : OutboxRow} {runs : List String}
    {w : World} (hw : Pending runs w) :
    wp machine E (if silent then pure () else do
      match ← (history runKey).attempt with
      | .error _ => pure ()
      | .ok _ => store (.enqueue row)) (fun r w' => Left runs r w') w := by
  split
  · exact hw
  · rw [Prog.bind_def, wp_bind, wp_attempt]
    refine wp_mono (fun r w₁ h => ?_)
      (((lasting_pending runs).halting hE).history runKey w hw)
    cases r with
    | stopped => exact h.1.sound (h.2 rfl)
    | raised e => exact h.1
    | returned items =>
      refine wp_mono (fun r w' h => h.1)
        (left_op hE (o := .store (.enqueue row)) trivial (fun w => ?_) h.1)
      by_cases hold : w.store.outbox.any (·.key == row.key) = true <;>
        exact ⟨(), by simp [machine, Op.exec, StoreOp.exec, Txn.commit, enqueue, hold]⟩

/-- The transition of a degraded run whose outage was closed is not refused. -/
theorem recoveryTransition_left {base runKey : String} {control : RunControl}
    {remaining : List Outage} {runs : List String} {w : World}
    (hstate : control.state = .dependencyDegraded) (hw : Pending (runKey :: runs) w)
    (hrow : w.store.runControl runKey = some control)
    (hremaining : remaining ≠ [] → HasOutage runKey w.store) :
    wp machine E (store (.transitionRun (recoveryTransition runKey base control remaining)))
      (fun r w' => Left runs r w') w := by
  intro w₁ f ho hf
  have hminds := hE.others w w₁ ho
  have hgrown := hminds.grows hw.keyed
  have hw₁ := (lasting_pending _).grows _ _ hw hgrown
  have hrow₁ : w₁.store.runControl runKey = some control := by
    rw [hminds.rows runKey (by simp [stateOf, hrow, hstate]), hrow]
  obtain ⟨a, w₂, hx, hdone⟩ := recovered_pending hw₁ hrow₁ hstate
    fun hne => hgrown.hasOutage (hremaining hne)
  have hgrows : Grows w₁ w₂ := by
    have h := degrade_grows (t := recoveryTransition runKey base control remaining) (.inr rfl)
      hw₁.keyed
    rwa [hx] at h
  have hcut : f ≠ .none → Sound w₁ ∧ Sound w₂ := fun hne => by
    have hleave := (hE.follows w₁ _ f hf).resolve_right hne
    exact ⟨hw₁.sound hleave, hgrows.sound (hw₁.sound hleave)⟩
  cases f with
  | none =>
    simp only [Machine.meet, hx]
    exact hdone
  | failBefore e => exact (hcut (by simp)).1
  | failAfter e =>
    simp only [Machine.meet, hx]
    exact (hcut (by simp)).2
  | stopBefore => exact (hcut (by simp)).1
  | stopAfter =>
    simp only [Machine.meet, hx]
    exact (hcut (by simp)).2

/-- A run whose outage was closed is active again, or waits for its next outage. -/
theorem finishRunRecovery_left (cfg : Config) (base : String) {runKey : String} (outage : Outage)
    {runs : List String} {w : World} (hw : Pending (runKey :: runs) w) :
    wp machine E (finishRunRecovery cfg base runKey outage) (fun r w' => Left runs r w') w := by
  have hnotice : ∀ {w}, Pending runs w → wp machine E
      (enqueueDependencyRecovered cfg runKey outage) (fun r w' => Left runs r w') w :=
    fun hw => notice_left hE _ _ hw
  unfold finishRunRecovery
  rw [Prog.bind_def, wp_bind]
  refine wp_mono (fun r w₁ h => ?_)
    (left_op hE (o := .store (.runControl runKey)) trivial (fun w => ⟨_, rfl⟩) hw)
  cases r with
  | stopped => exact h.1
  | raised e => exact h.1
  | returned control =>
    obtain ⟨w₀, -, hread⟩ := h.2 control rfl
    have hpending : Pending (runKey :: runs) w₁ := h.1
    have hcontrol : w₁.store.runControl runKey = control := by
      cases hread
      rfl
    clear hread h
    cases control with
    | none =>
      refine hnotice (hpending.skip fun _ hk => ?_)
      simp only [stateOf, hcontrol] at hk
      cases hk
    | some control =>
      dsimp only
      split
      · next hstate =>
        -- the others leave a degraded run alone, so the transition is not refused
        have hothers : ∀ w w', Pending (runKey :: runs) w ∧
            w.store.runControl runKey = some control → E.others w w' →
              Pending (runKey :: runs) w' ∧ w'.store.runControl runKey = some control := by
          intro w w' hw ho
          refine ⟨(lasting_pending _).others hE _ _ hw.1 ho, ?_⟩
          rw [(hE.others w w' ho).rows runKey (by simp [stateOf, hw.2, hstate]), hw.2]
        rw [Prog.bind_def, wp_bind]
        refine wp_mono (fun r w₂ h₂ => ?_) (pending_op hE hothers
          (o := .store (.runOutages runKey)) (fun w hw => apart_grows trivial hw.1.keyed)
          (fun w hw => hw) ⟨hpending, hcontrol⟩)
        cases r with
        | stopped => exact h₂.1.1.sound (h₂.2.1 rfl)
        | raised e =>
          rcases h₂.2.2.1 e rfl with hleave | ⟨w₁, hrefused⟩
          · exact h₂.1.1.sound hleave
          · cases hrefused
        | returned remaining =>
          obtain ⟨w₃, hw₃, hread⟩ := h₂.2.2.2 remaining rfl
          obtain ⟨rfl, rfl⟩ : w₂.store.runOutages runKey = remaining ∧ w₃ = w₂ := by
            cases hread
            exact ⟨rfl, rfl⟩
          dsimp only
          rw [Prog.bind_def, wp_bind]
          refine wp_mono (fun r w₄ h₄ => ?_) (recoveryTransition_left hE hstate hw₃.1 hw₃.2 id)
          cases r with
          | returned a => exact hnotice h₄
          | raised e => exact h₄
          | stopped => exact h₄
      · next hstate =>
        refine hnotice (hpending.skip fun _ hk => ?_)
        simp only [stateOf, hcontrol] at hk
        exact absurd hk hstate

theorem finishDependencyRecovery_keeps (cfg : Config) (base d : String) {outage : Outage}
    {w : World} (hw : Pending (w.store.outageRunKeys d outage.outageId) w) :
    wp machine E (finishDependencyRecovery cfg base d outage) (fun _ w' => Sound w') w := by
  have hloop : ∀ (runs : List String) (w : World), Pending runs w →
      wp machine E (runs.forM fun runKey => finishRunRecovery cfg base runKey outage)
        (fun _ w' => Sound w') w := by
    intro runs
    induction runs with
    | nil => exact fun w hw => hw.done
    | cons runKey runs ih =>
      intro w hw
      change wp machine E ((finishRunRecovery cfg base runKey outage).bind fun _ =>
        runs.forM fun runKey => finishRunRecovery cfg base runKey outage) _ w
      rw [wp_bind]
      refine wp_mono (fun r w' h => ?_) (finishRunRecovery_left hE cfg base outage hw)
      cases r with
      | returned u => exact ih w' h
      | raised e => exact h
      | stopped => exact h
  have hI := lasting_tied d outage.outageId
  unfold finishDependencyRecovery
  rw [Prog.bind_def, wp_bind]
  refine wp_mono (fun r w₁ h => ?_) (pending_op hE (hI.others hE)
    (o := .store (.outageRunKeys d outage.outageId))
    (fun w hw => apart_grows trivial hw.keyed) (fun w hw => hw) hw)
  cases r with
  | stopped => exact h.1.sound (h.2.1 rfl)
  | raised e =>
    rcases h.2.2.1 e rfl with hleave | ⟨w₁, hrefused⟩
    · exact h.1.sound hleave
    · cases hrefused
  | returned runs =>
    obtain ⟨w₂, hw₂, hread⟩ := h.2.2.2 runs rfl
    cases hread
    exact hloop _ _ hw₂

/-- The close of an outage, and what follows it. -/
theorem recover_bind (cfg : Config) (base d : String) {f : Option Outage → Service Unit}
    (hf : ∀ recovered, f recovered = match recovered with
      | none => pure ()
      | some recovered => finishDependencyRecovery cfg base d recovered) :
    Keeps machine E Sound ((store (.recoverDependency d)).bind f) := by
  obtain rfl : f = _ := funext hf
  intro w hw w₁ f ho hf
  have hw₁ := lasting_sound.others hE w w₁ hw ho
  have hspares : Spares d w₁ → Sound (machine.exec (.store (.recoverDependency d)) w₁).2 :=
    fun hspares => by
      rw [exec_recoverDependency]
      split
      · exact hw₁
      · exact closed_sound hw₁ hspares
  cases f with
  | none =>
    simp only [Machine.meet, exec_recoverDependency]
    cases hopen : w₁.store.openOutage d with
    | none => exact hw₁
    | some outage => exact finishDependencyRecovery_keeps hE cfg base d (closed_pending hw₁ hopen)
  | failBefore e => exact hw₁
  | stopBefore => exact hw₁
  | failAfter e =>
    exact hspares ((hE.closes w₁ d _ hf).resolve_right fun h => h.2 e rfl)
  | stopAfter => exact hspares ((hE.closes w₁ d _ hf).resolve_right fun h => h.1 rfl)

/-- `_recover_run_dependency`. -/
theorem recovery_keeps (cfg : Config) (runKey base : String) :
    Keeps machine E Sound (recoverRunDependency cfg runKey base) := by
  have h := lasting_sound.reads hE
  refine h.bind (h.host _) fun now => h.bind (h.store _ rfl) fun outage => ?_
  cases outage with
  | none => exact h.pure _
  | some outage =>
    dsimp only
    split
    · exact h.pure _
    · refine h.bind (h.store _ rfl) fun associated => ?_
      split
      · exact h.pure _
      · refine recover_bind hE cfg base _ fun recovered => ?_
        cases recovered <;> rfl

/-- `_recover_gitlab_circuit`. -/
theorem circuit_keeps (cfg : Config) : Keeps machine E Sound (recoverGitlabCircuit cfg) := by
  have h := lasting_sound.reads hE
  have hdegrade : ∀ kind c updated runKey, Keeps machine E Sound (degradeAgain cfg kind c updated runKey) :=
    fun kind c updated runKey => by
      have hnotice : Keeps machine E Sound (enqueueDependencyOutage cfg runKey updated) :=
        lasting_sound.outageNotice hE _ _ _
      refine h.bind (h.store _ rfl) fun control => ?_
      split
      · exact hnotice
      · exact h.bind (lasting_sound.keeps_op hE fun w hw => degrade_grows (.inr rfl) hw.keyed)
          fun _ => hnotice
  refine h.bind (h.store _ rfl) fun outage => ?_
  cases outage with
  | none => exact h.pure _
  | some outage =>
    refine h.bind (h.host _) fun now => ?_
    split
    · exact h.pure _
    · refine h.bind (h.attempt (lasting_sound.apart hE trivial)) fun health => ?_
      cases health with
      | ok u =>
        refine recover_bind hE cfg "gitlab" "gitlab" fun recovered => ?_
        cases recovered <;> rfl
      | error e =>
        dsimp only
        split
        · exact h.bind (lasting_sound.apart hE trivial) fun _ => h.bind (h.store _ rfl) fun _ =>
            h.forM (hdegrade _ _ _) _
        · exact h.raise _

theorem OutageWork.keeps (cfg : Config) (x : OutageWork) :
    Keeps machine E Sound (x.run cfg) := by
  cases x with
  | failure runKey kind text c => exact failure_keeps hE cfg runKey kind text c
  | recovery runKey base => exact recovery_keeps hE cfg runKey base
  | circuit => exact circuit_keeps hE cfg

end Recoveries

/-! ## Runs of the service -/

theorem OutageStep.sound {C : Setting Op ControllerError World → Prop}
    (huncut : ∀ E, C E → Uncut E) (h : OutageStep C w w') (hw : Sound w) : Sound w' := by
  cases h with
  | op o ho => exact (apart_grows ho hw.keyed).sound hw
  | request base => exact request_sound base hw
  | outside hstore =>
    refine ⟨fun k hkey hk => ?_, by rw [hstore]; exact hw.keyed, by rw [hstore]; exact hw.tied⟩
    rw [hstore]
    exact hw.leavable k hkey (by simpa only [stateOf, hstore] using hk)
  | work cfg x hE hrun => exact hrun.sound (x.keeps (huncut _ hE) cfg w hw)

theorem quiet_uncut : Uncut (.quiet Op ControllerError World) := by
  refine ⟨fun w w' h => ?_, fun w d f hf => ?_, fun w o f hf => .inr hf⟩
  · cases h
    exact ⟨fun hw => grows_of_same hw rfl rfl fun _ => id, fun _ _ => rfl⟩
  · cases hf
    exact .inr ⟨nofun, nofun⟩

/-- The undisturbed run of the program is a sequence of steps. -/
def Stepwise {α : Type} (p : Service α) : Prop :=
  ∀ w, Relation.ReflTransGen (OutageStep Uncut) w (machine.eval p w).2

theorem closed_stepwise : Closed (fun {α} (p : Service α) => Stepwise p) where
  pure _ _ := .refl
  raise _ _ := .refl
  bind hp hf w := by
    have h := hp w
    rw [machine.eval_bind]
    rcases heval : machine.eval _ w with ⟨r, w₁⟩
    rw [heval] at h
    cases r with
    | returned a => exact h.trans (hf a w₁)
    | raised e => exact h
    | stopped => exact h
  attempt hp w := by
    rw [machine.eval_attempt_state]
    exact hp w

theorem stepwise_op {o : Op} (ho : o.Apart) : Stepwise (Prog.op o : Service o.Ret) := fun w => by
  rw [machine.eval_op_state]
  exact .single (.op o ho)

theorem stepwise_work (cfg : Config) (x : OutageWork) : Stepwise (x.run cfg) := fun w =>
  .single (.work cfg x quiet_uncut (eval_runs (fun _ => rfl) (fun _ _ => rfl) _ w))

/-- **What a call does, it does in such steps.** -/
theorem calling_stepwise : Calling (fun {α} (p : Service α) => Stepwise p) := by
  have hstore : ∀ o : StoreOp, o.isLive = true → Stepwise (store o) := fun o ho =>
    stepwise_op (by cases o <;> first | exact trivial | cases ho)
  have hended : ∀ (o : StoreOp) (row : OutboxRow), o.Tells row → Stepwise (tellEnd o row) :=
    fun o row ho => closed_stepwise.bind
      (stepwise_op (o := .store o) (by cases o <;> first | exact trivial | exact ho.elim))
      fun _ => stepwise_op trivial
  have hrunning : ∀ cfg board id task, Stepwise (abortRunningTask cfg board id task) :=
    running_of_ops closed_stepwise hstore (fun _ => stepwise_op trivial)
      (fun _ => stepwise_op trivial) fun _ => stepwise_op trivial
  have p : Passing (fun {α} (p : Service α) => Stepwise p) :=
    { closed_stepwise with
      store := hstore
      transition := fun t hnew _ => stepwise_op hnew
      ended := fun o row _ => hended o row
      hermes := fun _ _ => stepwise_op trivial
      running := hrunning
      failure := fun cfg runKey kind text c => stepwise_work cfg (.failure runKey kind text c)
      recovery := fun cfg runKey base => stepwise_work cfg (.recovery runKey base)
      gitlab := fun _ => stepwise_op trivial
      host := fun _ => stepwise_op trivial }
  exact
    { closed_stepwise with
      op := fun o ho => stepwise_op (by
        cases o with
        | store o => cases o <;> first | exact trivial | exact ho.1 | exact ho.elim
        | hermes o => exact trivial
        | gitlab o => exact trivial
        | host o => exact trivial)
      running := hrunning
      ended := fun o row _ => hended o row
      failure := p.failure
      recovery := p.recovery
      circuit := fun cfg => stepwise_work cfg .circuit
      requested := fun base w => by
        rw [store, machine.eval_op_state]
        exact .single (.request base)
      late := fun cfg run x _ identity head mr _ => p.recoverLateWorker cfg run x identity head mr
        (fun _ _ _ _ _ => stepwise_op trivial) fun _ => stepwise_op trivial }

/-! ## A stop between the two commits -/

def degradedKey : String := "hollysys-00000000000000000001"

/-- GitLab fails for the run, and later answers again. -/
def failedOnce : World :=
  (machine.eval (OutageWork.run sampleConfig (.failure degradedKey .transient "timeout"
    { dependency := "gitlab" }))
    (machine.exec (.store (.ensureRunControl degradedKey))
      { gitlab := downGitLab, now := 100 }).2).2

/-- The process stops with the commit that closes the outage. -/
def stopAtClose : List (Fault ControllerError) :=
  List.replicate 3 Fault.none ++ [Fault.stopAfter]

def strandedWorld : World :=
  (machine.replay (OutageWork.run sampleConfig (.recovery degradedKey "gitlab")) stopAtClose
    { failedOnce with now := 100000 }).2

end HollysysController
