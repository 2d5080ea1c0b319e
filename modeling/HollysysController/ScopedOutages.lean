import HollysysController.Durable.Steps
import HollysysController.TerminalNotices

/-! # Outages of ended runs

A failure opens the outage of its run, and a recovery closes it. What ends a run
closes nothing, so whether an ended run leaves an open outage depends on the
outages that are open at its end and on the failures that come after it. -/

namespace HollysysController

open Durable

/-! ## Commits -/

/-- A commit to the store, at its time. -/
structure Commit where
  now : Nat
  op : StoreOp
  issued : op.Issued

def commitStep (s : Store) (c : Commit) : Option Store :=
  some (c.op.exec c.now s).2

/-- The dependencies whose outages are the run's own. -/
def runScopes (k : String) : List String :=
  [s!"gitlab:{k}", s!"kanban:{k}"]

def ended (k : String) (s : Store) : Bool :=
  ((s.runControl k).getD {}).state.isTerminal

/-- No outage of the run's own is open. -/
def ScopeClear (k : String) (s : Store) : Prop :=
  ∀ o ∈ s.outages, o.isOpen = true → o.dependency ∉ runScopes k

/-- Every open outage of a run's own belongs to a run that has not ended. -/
def NoOrphans (s : Store) : Prop :=
  ∀ k, ended k s = true → ScopeClear k s

/-! ## The end of a run -/

/-- The state of the run is one of these. -/
def stateIn (k : String) (states : List RunState) (s : Store) : Bool :=
  (s.runControl k).any fun row => states.contains row.state

/-- The run that the operation ends. -/
def StoreOp.ends (s : Store) : StoreOp → Option String
  | finishAbort k merged head merge =>
    if (!merged || head.any isSha) && merge.all isSha && stateIn k [.abortRequested, .aborting] s
    then some k else none
  | markCompleted k _ _ head merge _ =>
    if isSha head && merge.all isSha && stateIn k (.exception :: unsettledStates) s
    then some k else none
  | markFlowCompleted k state head _ =>
    if (flowCompliance state).isSome && isSha head && stateIn k unsettledStates s
    then some k else none
  | _ => none

theorem flowCompliance_terminal {state : RunState} (h : (flowCompliance state).isSome = true) :
    state.isTerminal = true := by
  cases state <;> first | rfl | cases h

/-- Without a version, a transition goes through from its expected states. -/
theorem ended_transition {t : Transition} {key : String} {states : List RunState}
    (hkey : t.runKey = key) (hstates : t.expectedStates = states)
    (hversion : t.expectedVersion = none) (hterminal : t.newState.isTerminal = true)
    {row : RunControl} (now : Nat) {s : Store} (hrow : s.runControl key = some row)
    (hlive : row.state.isTerminal = false) :
    ended key ((transitionRun t now).commit s).2 = states.contains row.state := by
  subst hkey hstates
  by_cases hstate : row.state ∈ t.expectedStates
  · simp [Txn.commit, transitionRun, ended, hrow, hversion, hstate, Transition.apply, hterminal]
  · simp [Txn.commit, transitionRun, ended, hrow, hstate, hlive]

theorem markFlowCompleted_ended (key : String) (state : RunState) (head reason : String) (now : Nat)
    (s : Store) : ended key (StoreOp.exec now (.markFlowCompleted key state head reason) s).2 =
      (ended key s || (StoreOp.markFlowCompleted key state head reason).ends s == some key) := by
  cases hcompliance : flowCompliance state with
  | none => simp [StoreOp.exec, Txn.commit, markFlowCompleted, StoreOp.ends, hcompliance]
  | some compliance =>
    by_cases hhead : isSha head = true
    · cases hrow : s.runControl key with
      | none =>
        simp [StoreOp.exec, Txn.commit, markFlowCompleted, StoreOp.ends, hcompliance, hhead, hrow,
          stateIn]
      | some row =>
        by_cases hterminal : row.state.isTerminal = true
        · simp [StoreOp.exec, Txn.commit, markFlowCompleted, hcompliance, hhead, hrow, ended,
            hterminal]
        · have hexec : (StoreOp.exec now (.markFlowCompleted key state head reason) s).2 =
              ((transitionRun {
                runKey := key, expectedStates := unsettledStates, newState := state, reason,
                compliance := some compliance, completionSource := some "controller",
                checkedHead := some head } now).commit s).2 := by
            simp [StoreOp.exec, Txn.commit, markFlowCompleted, hcompliance, hhead, hrow, hterminal]
          have hlast : state.isTerminal = true :=
            flowCompliance_terminal (by rw [hcompliance]; rfl)
          rw [hexec]
          refine (ended_transition rfl rfl rfl hlast now hrow (by simpa using hterminal)).trans ?_
          by_cases hstate : row.state ∈ unsettledStates <;>
            simp [hterminal, StoreOp.ends, hcompliance, hhead, stateIn, hrow, ended, hstate]
    · simp [StoreOp.exec, Txn.commit, markFlowCompleted, StoreOp.ends, hcompliance, hhead]

theorem markCompleted_ended (key : String) (external : Bool) (compliance head : String)
    (merge : Option String) (reason : String) (now : Nat) (s : Store) :
    ended key (StoreOp.exec now (.markCompleted key external compliance head merge reason) s).2 =
      (ended key s ||
        (StoreOp.markCompleted key external compliance head merge reason).ends s == some key) := by
  by_cases hhead : isSha head = true
  · by_cases hmerge : merge.any (!isSha ·) = true
    · have hall : merge.all isSha = false := by
        cases merge <;> simp_all
      simp [StoreOp.exec, Txn.commit, markCompleted, StoreOp.ends, hhead, hmerge, hall]
    · have hall : merge.all isSha = true := by
        cases merge <;> simp_all
      cases hrow : s.runControl key with
      | none =>
        simp [StoreOp.exec, Txn.commit, markCompleted, StoreOp.ends, hhead, hmerge, hrow, stateIn]
      | some row =>
        by_cases hterminal : row.state.isTerminal = true
        · simp [StoreOp.exec, Txn.commit, markCompleted, hhead, hmerge, hrow, ended, hterminal]
        · have hexec : (StoreOp.exec now
              (.markCompleted key external compliance head merge reason) s).2 =
              ((transitionRun {
                runKey := key, expectedStates := .exception :: unsettledStates,
                newState := .completed, reason, compliance := some compliance,
                completionSource := some (if external then "external" else "controller"),
                checkedHead := some head, mergeCommitSha := merge } now).commit s).2 := by
            simp [StoreOp.exec, Txn.commit, markCompleted, hhead, hmerge, hrow, hterminal]
          rw [hexec]
          refine (ended_transition rfl rfl rfl rfl now hrow (by simpa using hterminal)).trans ?_
          by_cases hstate : row.state = .exception ∨ row.state ∈ unsettledStates <;>
            simp [hterminal, StoreOp.ends, hall, hhead, stateIn, hrow, ended, hstate]
  · simp [StoreOp.exec, Txn.commit, markCompleted, StoreOp.ends, hhead]

theorem finishAbort_ended (key : String) (merged : Bool) (head merge : Option String) (now : Nat)
    (s : Store) : ended key (StoreOp.exec now (.finishAbort key merged head merge) s).2 =
      (ended key s || (StoreOp.finishAbort key merged head merge).ends s == some key) := by
  by_cases hhead : merged = true ∧ head.any isSha = false
  · simp [StoreOp.exec, Txn.commit, finishAbort, StoreOp.ends, hhead]
  · have hheld : (!merged || head.any isSha) = true := by
      cases merged
      · rfl
      · simpa using hhead
    by_cases hmerge : merge.any (!isSha ·) = true
    · have hall : merge.all isSha = false := by
        cases merge <;> simp_all
      simp [StoreOp.exec, Txn.commit, finishAbort, StoreOp.ends, hhead, hmerge, hall]
    · have hall : merge.all isSha = true := by
        cases merge <;> simp_all
      cases hrow : s.runControl key with
      | none =>
        simp [StoreOp.exec, Txn.commit, finishAbort, StoreOp.ends, hhead, hmerge, hrow, stateIn]
      | some row =>
        have hlast : (row.abortFinished merged head merge now).state.isTerminal = true := by
          cases merged <;> rfl
        by_cases hstate : row.state = .abortRequested ∨ row.state = .aborting
        · simp [StoreOp.exec, Txn.commit, finishAbort, StoreOp.ends, hhead, hmerge, hrow, stateIn,
            hstate, ended, hlast, hheld, hall]
        · simp [StoreOp.exec, Txn.commit, finishAbort, StoreOp.ends, hhead, hmerge, hrow, stateIn,
            hstate, ended]

/-- A run that has ended after a commit had ended before, or the commit ended it. -/
theorem ended_of_exec {o : StoreOp} (ho : o.Issued) (now : Nat) {s : Store} {k : String}
    (h : ended k (o.exec now s).2 = true) : ended k s = true ∨ o.ends s = some k := by
  by_cases hends : o.endsRun = false
  · left
    unfold ended
    rw [issued_avoids ho hends h now s k rfl]
    exact h
  · cases o <;> first | exact absurd rfl hends | skip
    case markFlowCompleted key state head reason =>
      by_cases hkey : key = k
      · subst hkey
        simpa [markFlowCompleted_ended] using h
      · left
        simpa only [ended, markFlowCompleted_other hkey] using h
    case markCompleted key external compliance head merge reason =>
      by_cases hkey : key = k
      · subst hkey
        simpa [markCompleted_ended] using h
      · left
        simpa only [ended, markCompleted_other hkey] using h
    case finishAbort key merged head merge =>
      by_cases hkey : key = k
      · subst hkey
        simpa [finishAbort_ended] using h
      · left
        simpa only [ended, finishAbort_other hkey] using h

/-- What ends a run brings it into a terminal state. -/
theorem ended_of_ends {o : StoreOp} (now : Nat) {s : Store} {k : String}
    (h : o.ends s = some k) : ended k (o.exec now s).2 = true := by
  cases o <;> first | cases h | skip
  case markFlowCompleted key state head reason =>
    obtain rfl : key = k := by
      simp only [StoreOp.ends, Option.ite_none_right_eq_some] at h
      exact Option.some.inj h.2
    simp [markFlowCompleted_ended, h]
  case markCompleted key external compliance head merge reason =>
    obtain rfl : key = k := by
      simp only [StoreOp.ends, Option.ite_none_right_eq_some] at h
      exact Option.some.inj h.2
    simp [markCompleted_ended, h]
  case finishAbort key merged head merge =>
    obtain rfl : key = k := by
      simp only [StoreOp.ends, Option.ite_none_right_eq_some] at h
      exact Option.some.inj h.2
    simp [finishAbort_ended, h]

/-! ## The law -/

/-- The commit ends no run that has an open outage of its own, and records no failure of a run
that has ended. -/
structure Clean (s : Store) (o : StoreOp) : Prop where
  ends : ∀ k, o.ends s = some k → ScopeClear k s
  failures : ∀ f, o = .recordDependencyFailure f → ∀ k, ended k s = true →
    f.dependency ∉ runScopes k

/-- An outage that is open after a commit was open before, or the commit recorded its failure. -/
theorem open_of_exec {o : StoreOp} {now : Nat} {s : Store} {x : Outage}
    (hx : x ∈ (o.exec now s).2.outages) (hopen : x.isOpen = true) :
    (∃ y ∈ s.outages, y.isOpen = true ∧ y.dependency = x.dependency) ∨
      ∃ f, o = .recordDependencyFailure f ∧ f.dependency = x.dependency := by
  by_cases hw : Column.outages ∈ o.writes
  · cases o <;> simp only [StoreOp.writes, List.mem_cons, List.not_mem_nil, reduceCtorEq,
      or_self, or_false] at hw
    case recordDependencyFailure f =>
      simp only [StoreOp.exec, Txn.commit, recordDependencyFailure, List.mem_append,
        List.mem_filter, List.mem_singleton] at hx
      rcases hx with ⟨hx, -⟩ | rfl
      · exact .inl ⟨x, hx, hopen, rfl⟩
      · exact .inr ⟨f, rfl, rfl⟩
    case associateOutageRun d i k =>
      left
      refine ⟨x, ?_, hopen, rfl⟩
      simp only [StoreOp.exec, Txn.commit, associateOutageRun] at hx
      by_cases hold : s.outageRuns.contains (d, i, k) = true
      · rwa [if_pos hold] at hx
      · rwa [if_neg hold] at hx
    case recoverDependency d =>
      left
      simp only [StoreOp.exec, Txn.commit, recoverDependency] at hx
      cases hfound : s.openOutage d with
      | none =>
        rw [hfound] at hx
        exact ⟨x, hx, hopen, rfl⟩
      | some outage =>
        simp only [hfound] at hx
        obtain ⟨y, hy, rfl⟩ := List.mem_map.mp hx
        by_cases hd : y.dependency = d
        · simp [hd] at hopen
        · rw [if_neg hd] at hopen ⊢
          exact ⟨y, hy, hopen, rfl⟩
  · have hget := o.exec_get (c := .outages) now s hw
    simp only [Column.get, Prod.mk.injEq] at hget
    rw [hget.1] at hx
    exact .inl ⟨x, hx, hopen, rfl⟩

/-- What is open stays open, but where it is recovered. -/
theorem commit_open {o : StoreOp} (now : Nat) {s : Store} {k : String} (hends : o.ends s = some k) :
    (o.exec now s).2.outages = s.outages := by
  have hw : Column.outages ∉ o.writes := by
    cases o <;> first | cases hends | simp [StoreOp.writes]
  have hget := o.exec_get (c := .outages) now s hw
  simp only [Column.get, Prod.mk.injEq] at hget
  exact hget.1

/-- **One commit.** Where there are no orphans, a commit leaves none exactly when it is clean. -/
theorem noOrphans_commit {o : StoreOp} (ho : o.Issued) (now : Nat) {s : Store} (hs : NoOrphans s) :
    NoOrphans (o.exec now s).2 ↔ Clean s o := by
  constructor
  · intro h
    refine ⟨fun k hends => ?_, fun f hf k hk hscope => ?_⟩
    · have hclear := h k (ended_of_ends now hends)
      rwa [ScopeClear, commit_open now hends] at hclear
    · subst hf
      refine h k (by exact hk) _ (List.mem_append_right _ (List.mem_singleton.mpr rfl)) rfl hscope
  · intro hclean k hk x hx hopen hscope
    rcases ended_of_exec ho now hk with hbefore | hends
    · rcases open_of_exec hx hopen with ⟨y, hy, hyopen, hsame⟩ | ⟨f, hf, hsame⟩
      · exact hs k hbefore y hy hyopen (hsame ▸ hscope)
      · exact hclean.failures f hf k hbefore (hsame ▸ hscope)
    · rw [commit_open now hends] at hx
      exact hclean.ends k hends x hx hopen hscope

/-- Commits lead from the one store to the other. -/
def LeadsTo (s s' : Store) : Prop :=
  ∃ cs : List Commit, steps commitStep s cs = some s'

theorem LeadsTo.trans {s s' s'' : Store} (h : LeadsTo s s') (h' : LeadsTo s' s'') :
    LeadsTo s s'' :=
  Reaches.trans h h'

theorem exec_leadsTo {o : Op} (ho : o.Issued) (w : World) :
    LeadsTo w.store (machine.exec o w).2.store := by
  cases o with
  | store o => exact ⟨[⟨w.now, o, ho⟩], rfl⟩
  | hermes o => exact ⟨[], rfl⟩
  | gitlab o => exact ⟨[], rfl⟩
  | host o => exact ⟨[], rfl⟩

/-- **What a call does to the store is a run of commits**, whatever commits the other threads
interleave, and wherever it fails or stops. -/
theorem call_leadsTo (cfg : Config) (c : Call) {E : Setting Op ControllerError World}
    (hothers : ∀ w w', E.others w w' → LeadsTo w.store w'.store) {w w' : World}
    {r : Durable.Outcome ControllerError Unit} (hrun : Runs machine E (c.run cfg) w r w') :
    LeadsTo w.store w'.store := by
  have hissuing : Issuing (fun {α} (p : Service α) =>
      Keeps machine E (fun w' => LeadsTo w.store w'.store) p) :=
    { closed_keeps with
      op := fun o ho => keeps_op (fun s s' hs hmove => hs.trans (hothers s s' hmove))
        fun s hs => hs.trans (exec_leadsTo ho s) }
  exact hrun.sound (hissuing.call cfg c w ⟨[], rfl⟩)

/-! ## An abort during a backoff -/

/-- No call leaves an ended run with an open outage of its own. -/
def NoOrphanedOutage (cfg : Config) : Prop :=
  ∀ (c : Call) (w w' : World) (r : Durable.Outcome ControllerError Unit), NoOrphans w.store →
    Runs machine (.quiet Op ControllerError World) (c.run cfg) w r w' → NoOrphans w'.store

/-- Hermes has failed for the run that is being aborted. -/
def backoffWorld : World :=
  (machine.eval (handleDependencyError sampleConfig "run-a" .transient "database is locked"
    { dependency := "kanban" }) (abortingWorld [abortingRoot])).2

/-- The abort is carried out while the outage is in its backoff. -/
def abortedInBackoff : World :=
  (machine.eval (reconcileAll sampleConfig { abortRuns := ["run-a"] }) backoffWorld).2

end HollysysController
