import HollysysController.Isolation
import HollysysController.RunStates

/-! # Notices of the ends of runs

The terminal state of a run and the notice about it are two commits, and no pass
looks at a terminal run again. A process that stops between the two leaves the
run without its notice for good; every other stop leaves the law in place. -/

namespace HollysysController

open Durable

/-! ## What a terminal run owes -/

/-- The keys of the notices about a run that ended in the state. -/
def TerminalNotice (k : String) (state : RunState) (key : String) : Prop :=
  match state with
  | .completedReady | .completedWithFindings | .completedTestFailed => ∃ head : String,
    let eventKey := s!"code:terminal:{state.value}:{head}"
    key = s!"{k}:progress:{eventKey}"
  | .completed => ∃ tail : String,
    key = s!"{k}:merged:{tail}" ∨ key = s!"{k}:merged-policy-violation:{tail}"
  | .aborted => key = s!"{k}:aborted:{RunState.aborted.value}"
  | .completedBeforeAbort => key = s!"{k}:aborted:{RunState.completedBeforeAbort.value}" ∨
    ∃ tail : String, key = s!"{k}:completed-before-abort:{tail}"
  | _ => False

/-- Every terminal run has its notice in the outbox. -/
def Noticed (w : World) : Prop :=
  ∀ k, (stateOf k w).isTerminal = true →
    ∃ row ∈ w.store.outbox, TerminalNotice k (stateOf k w) row.key

/-- The calls of the service one after the other, each in a setting of the class. However a
call ends, by its answer, an error or a stop of the process, the next one works on what it
committed; between them everything but the store may change. -/
inductive Restarts (cfg : Config) (allowed : Setting Op ControllerError World → Prop) :
    World → World → Prop
  | start {w : World} : Restarts cfg allowed w w
  | call {w w₁ w₂ : World} {E : Setting Op ControllerError World} {c : Call}
      {r : Durable.Outcome ControllerError Unit} : Restarts cfg allowed w w₁ → allowed E →
      Runs machine E (c.run cfg) w₁ r w₂ → Restarts cfg allowed w w₂
  | outside {w w₁ w₂ : World} : Restarts cfg allowed w w₁ → w₂.store = w₁.store →
      Restarts cfg allowed w w₂

/-- **No terminal notice is lost.** Whatever calls there have been, and wherever the process
stopped in them, after a complete periodic pass every terminal run has its notice. -/
def NoLostNotice (cfg : Config) (allowed : Setting Op ControllerError World → Prop) : Prop :=
  ∀ w w₁ w₂ sweep, Noticed w → Restarts cfg allowed w w₁ →
    Runs machine (.quiet Op ControllerError World) (reconcileAll cfg sweep) w₁ (.returned ()) w₂ →
    Noticed w₂

/-- Nobody else writes, and the process may stop before or after any operation. -/
def stopping : Setting Op ControllerError World where
  others w w' := w' = w
  faults _ _ f := f = .none ∨ f = .stopBefore ∨ f = .stopAfter

/-- Rows stay in the outbox, and what has become terminal has its notice. -/
structure Tidy (w w' : World) : Prop where
  kept : ∀ row ∈ w.store.outbox, row ∈ w'.store.outbox
  told : ∀ k, (stateOf k w').isTerminal = true → stateOf k w' = stateOf k w ∨
    ∃ row ∈ w'.store.outbox, TerminalNotice k (stateOf k w') row.key

/-- The other threads tell what they end; what fails or stops, does not do so between the
commit that ends a run and the commit of its notice. -/
structure Unbroken (E : Setting Op ControllerError World) : Prop where
  others : ∀ w w', E.others w w' → Tidy w w'
  /-- Nothing happens between the commit of the end and its answer. -/
  ended : ∀ w o row f, o.Tells row → E.faults w (.store o) f → f ≠ .stopAfter ∧
    ∀ e, f ≠ .failAfter e
  /-- The notice is committed. -/
  noticed : ∀ w o row f, StoreOp.Tells o row → E.faults w (.store (.enqueue row)) f →
    f ≠ .stopBefore ∧ ∀ e, f ≠ .failBefore e

/-! ## One operation -/

variable {cfg : Config} {w : World}

/-- Rows stay in the outbox. -/
theorem exec_outbox (o : Op) {row : OutboxRow} (h : row ∈ w.store.outbox) :
    row ∈ (machine.exec o w).2.store.outbox := by
  cases o with
  | store o =>
    rw [exec_store]
    by_cases hw : Column.outbox ∈ o.writes
    · cases o <;> simp only [StoreOp.writes, List.mem_cons, List.not_mem_nil, reduceCtorEq,
        or_self, or_false] at hw
      case enqueue new =>
        by_cases hnew : w.store.outbox.any (·.key == new.key) = true <;>
          simp [StoreOp.exec, Txn.commit, enqueue, hnew, h]
    · have hget := o.exec_get (c := .outbox) w.now w.store hw
      simp only [Column.get] at hget
      rwa [hget]
  | hermes o =>
    rw [exec_hermes]
    exact h
  | gitlab o =>
    rw [exec_gitlab]
    exact h
  | host o =>
    rw [exec_host]
    exact h

/-- The operations that end a run. -/
def StoreOp.endsRun : StoreOp → Bool
  | markFlowCompleted _ _ _ _ | markCompleted _ _ _ _ _ _ | finishAbort _ _ _ _ => true
  | _ => false

/-- The other operations bring no run into a terminal state. -/
theorem issued_avoids {o : StoreOp} (ho : o.Issued) (hends : o.endsRun = false) {state : RunState}
    (hstate : state.isTerminal = true) (now : Nat) (s : Store) (k : String)
    (h : (((o.exec now s).2.runControl k).getD {}).state = state) :
    ((s.runControl k).getD {}).state = state := by
  by_cases hw : Column.control ∈ o.writes
  · have hne : ∀ live : RunState, live.isTerminal = false → live ≠ state := by
      rintro live hlive rfl
      rw [hlive] at hstate
      cases hstate
    cases o <;> simp only [StoreOp.writes, List.mem_cons, List.not_mem_nil, reduceCtorEq,
      or_self, or_false, false_or] at hw <;> first
      | cases hends; done
      | skip
    case ensureRunControl key =>
      exact (ensureRunControl_avoids (hne _ rfl) key).commit s k h
    case confirmAbortRequest c => exact confirmAbortRequest_avoids (hne _ rfl) c now s k h
    case transitionRun t =>
      exact (transitionRun_avoids (hne _ ho.unended) now).commit s k h
    case setRunException key reason =>
      exact (setRunException_avoids (hne _ rfl) key reason now).commit s k h
    case markAborting key => exact (markAborting_avoids (hne _ rfl) key).commit s k h
  · have hget := o.exec_get (c := .control) now s hw
    simp only [Column.get] at hget
    rwa [hget] at h

theorem Tidy.noticed {w' : World} (h : Tidy w w') (hw : Noticed w) : Noticed w' := by
  intro k hterminal
  rcases h.told k hterminal with hsame | hrow
  · rw [hsame] at hterminal ⊢
    obtain ⟨row, hrow, hkey⟩ := hw k hterminal
    exact ⟨row, h.kept row hrow, hkey⟩
  · exact hrow

/-- What does not end a run leaves everything tidy. -/
theorem exec_tidy {o : Op} (ho : o.Issued) (hends : ∀ so, o = .store so → so.endsRun = false)
    (w : World) : Tidy w (machine.exec o w).2 := by
  refine ⟨fun row => exec_outbox o, fun k hterminal => .inl ?_⟩
  cases o with
  | store o =>
    exact (issued_avoids ho (hends o rfl) hterminal w.now w.store k (by simp [stateOf])).symm
  | hermes o => rfl
  | gitlab o => rfl
  | host o => rw [exec_host]

/-! ## The end of a run with its notice -/

/-- The state that the operation leads to is the one its notice is about. -/
theorem tells_marks {o : StoreOp} {row : OutboxRow} (ho : o.Tells row) (w : World) (k : String)
    (hterminal : (stateOf k (machine.exec (.store o) w).2).isTerminal = true) :
    stateOf k (machine.exec (.store o) w).2 = stateOf k w ∨
      TerminalNotice k (stateOf k (machine.exec (.store o) w).2) row.key := by
  rw [exec_store] at hterminal ⊢
  cases o <;> first
    | exact ho.elim
    | skip
  case markFlowCompleted key state head reason =>
    by_cases hkey : key = k
    · subst hkey
      by_cases hended : state = stateOf key { w with
          store := (StoreOp.exec w.now (.markFlowCompleted key state head reason) w.store).2 }
      · cases hcompliance : flowCompliance state with
        | none =>
          left
          simp [stateOf, StoreOp.exec, Txn.commit, markFlowCompleted, hcompliance]
        | some compliance =>
          right
          rw [← hended]
          obtain ⟨testHead, htold⟩ := ho
          cases state <;> first
            | cases hcompliance; done
            | exact ⟨testHead, htold⟩
      · exact .inl ((markFlowCompleted_avoids hended key head reason w.now).commit
          w.store key rfl).symm
    · left
      simp only [stateOf, markFlowCompleted_other hkey]
  case markCompleted key external compliance head merge reason =>
    by_cases hkey : key = k
    · subst hkey
      by_cases hended : .completed = stateOf key { w with store := (StoreOp.exec w.now
          (.markCompleted key external compliance head merge reason) w.store).2 }
      · right
        rw [← hended]
        exact ho
      · exact .inl ((markCompleted_avoids hended key external compliance head merge reason
          w.now).commit w.store key rfl).symm
    · left
      simp only [stateOf, markCompleted_other hkey]
  case finishAbort key merged head merge =>
    by_cases hkey : key = k
    · subst hkey
      by_cases hended : (if merged then .completedBeforeAbort else .aborted) = stateOf key { w with
          store := (StoreOp.exec w.now (.finishAbort key merged head merge) w.store).2 }
      · right
        rw [← hended]
        cases merged with
        | false => exact ho.resolve_right (by simp)
        | true => exact ho.imp_right And.right
      · exact .inl ((finishAbort_avoids hended key head merge w.now).commit w.store key rfl).symm
    · left
      simp only [stateOf, finishAbort_other hkey]

/-- A row that is enqueued is there, under its key. -/
theorem enqueue_present (row : OutboxRow) (w : World) :
    ∃ r ∈ (machine.exec (.store (.enqueue row)) w).2.store.outbox, r.key = row.key := by
  rw [exec_store]
  by_cases h : w.store.outbox.any (·.key == row.key) = true
  · obtain ⟨r, hr, hkey⟩ := List.any_eq_true.mp h
    exact ⟨r, by simpa [StoreOp.exec, Txn.commit, enqueue, h] using hr, by simpa using hkey⟩
  · exact ⟨row, by simp [StoreOp.exec, Txn.commit, enqueue, h], rfl⟩

/-- A refused end changes nothing. -/
theorem tells_refused {o : StoreOp} {row : OutboxRow} (ho : o.Tells row) {w w' : World}
    {e : ControllerError} (h : machine.exec (.store o) w = (.error e, w')) : w' = w := by
  have hcommit : ∀ {α : Type} (t : Txn α), (t.commit w.store).1 = .error e →
      (t.commit w.store).2 = w.store := fun t ht => by
    unfold Txn.commit at ht ⊢
    split at ht
    · cases ht
    · rfl
  have hstate := congrArg Prod.snd h
  have hanswer := congrArg Prod.fst h
  rw [exec_store] at hstate
  refine hstate.symm.trans ?_
  cases o <;> first
    | exact ho.elim
    | exact congrArg (fun s => { w with store := s }) (hcommit _ hanswer)

/-- The terminal runs have their notices, when a row with the key is counted in. -/
def NoticedBut (key : String) (w : World) : Prop :=
  ∀ k, (stateOf k w).isTerminal = true →
    (∃ row ∈ w.store.outbox, TerminalNotice k (stateOf k w) row.key) ∨
      TerminalNotice k (stateOf k w) key

theorem Tidy.noticedBut {key : String} {w' : World} (h : Tidy w w') (hw : NoticedBut key w) :
    NoticedBut key w' := by
  intro k hterminal
  rcases h.told k hterminal with hsame | hrow
  · rw [hsame] at hterminal ⊢
    rcases hw k hterminal with ⟨row, hrow, hkey⟩ | hkey
    · exact .inl ⟨row, h.kept row hrow, hkey⟩
    · exact .inr hkey
  · exact .inl hrow

theorem NoticedBut.enqueue {row : OutboxRow} (h : NoticedBut row.key w) :
    Noticed (machine.exec (.store (.enqueue row)) w).2 := by
  intro k hterminal
  rcases (exec_tidy (o := .store (.enqueue row)) trivial (by simp [StoreOp.endsRun]) w).noticedBut h k hterminal with hrow | hkey
  · exact hrow
  · obtain ⟨r, hr, hrkey⟩ := enqueue_present row w
    exact ⟨r, hr, hrkey ▸ hkey⟩

section Unbroken

variable {E : Setting Op ControllerError World} (hE : Unbroken E)
include hE

theorem Unbroken.keeps_op {o : Op} (ho : o.Issued)
    (hends : ∀ so, o = .store so → so.endsRun = false) : Keeps machine E Noticed (Prog.op o) :=
  Durable.keeps_op (fun _ _ hw hothers => (hE.others _ _ hothers).noticed hw) fun w hw =>
    (exec_tidy ho hends w).noticed hw

/-- Once a run is ended, the notice follows. -/
theorem Unbroken.keeps_tellEnd {o : StoreOp} {row : OutboxRow} (htells : o.Tells row) :
    Keeps machine E Noticed (tellEnd o row) := by
  intro w hw
  rw [tellEnd, wp_bind]
  intro w₁ f hothers hf
  have hw₁ := (hE.others _ _ hothers).noticed hw
  obtain ⟨hstop, hfail⟩ := hE.ended w₁ o row f htells hf
  cases f with
  | failBefore e => exact hw₁
  | stopBefore => exact hw₁
  | failAfter e => exact absurd rfl (hfail e)
  | stopAfter => exact absurd rfl hstop
  | none =>
    have hmarks := tells_marks htells w₁
    have hkept : ∀ r ∈ w₁.store.outbox, r ∈ (machine.exec (.store o) w₁).2.store.outbox :=
      fun _ => exec_outbox (.store o)
    simp only [Machine.meet]
    rcases hx : machine.exec (.store o) w₁ with ⟨r, w₂⟩
    rw [hx] at hmarks hkept
    cases r with
    | error e =>
      rw [tells_refused htells hx]
      exact hw₁
    | ok a =>
      have hbut : NoticedBut row.key w₂ := fun k hterminal => by
        rcases hmarks k hterminal with hsame | hkey
        · dsimp only at hsame
          rw [hsame] at hterminal ⊢
          obtain ⟨r, hr, hkey⟩ := hw₁ k hterminal
          exact .inl ⟨r, hkept r hr, hkey⟩
        · exact .inr hkey
      intro w₃ f hothers hf
      have hdone := ((hE.others _ _ hothers).noticedBut hbut).enqueue
      obtain ⟨hstop, hfail⟩ := hE.noticed w₃ o row f htells hf
      cases f with
      | failBefore e => exact absurd rfl (hfail e)
      | stopBefore => exact absurd rfl hstop
      | failAfter e => exact hdone
      | stopAfter => exact hdone
      | none =>
        simp only [Machine.meet]
        rcases hy : machine.exec (.store (.enqueue row)) w₃ with ⟨r, w₄⟩
        rw [hy] at hdone
        cases r <;> exact hdone

theorem Unbroken.hermes (o : HermesOp) : Keeps machine E Noticed (hermes o) :=
  hE.keeps_op (o := .hermes o) trivial fun so h => by cases h

theorem Unbroken.store {o : StoreOp} (ho : o.Issued) (hends : o.endsRun = false) :
    Keeps machine E Noticed (store o) :=
  hE.keeps_op (o := .store o) ho fun so h => by
    cases h
    exact hends

theorem Unbroken.calling : Calling (fun {α} (p : Service α) => Keeps machine E Noticed p) := by
  have hop : ∀ o : Op, o.Called → Keeps machine E Noticed (Prog.op o) := fun o ho =>
    hE.keeps_op ho.issued fun so h => by
      subst h
      cases so <;> first | rfl | exact ho.elim
  refine calling_of_ends closed_keeps hop (fun _ _ _ _ _ => hE.hermes _)
    (fun _ => hE.store trivial rfl) (fun o ho => hE.store ?_ ?_) (fun t ht => hE.store ht rfl)
    fun o row _ htells => hE.keeps_tellEnd htells
  · cases o <;> first | exact trivial | cases ho
  · cases o <;> first | rfl | cases ho

theorem Unbroken.call (c : Call) : Keeps machine E Noticed (c.run cfg) :=
  hE.calling.call cfg c fun _ _ _ _ => hE.hermes _

end Unbroken

/-! ## Calls and restarts -/

/-- **No notice is lost between the commits of an end.** In calls of which none fails or stops
between the commit that ends a run and the commit of its notice, and that may stop at every
other commit, every terminal run has its notice. -/
theorem noLostNotice_of_unbroken (cfg : Config) : NoLostNotice cfg Unbroken := by
  have hquiet : Unbroken (.quiet Op ControllerError World) := by
    refine ⟨fun w w' h => ?_, fun w o row f _ hf => ?_, fun w o row f _ hf => ?_⟩
    · cases h
      exact ⟨fun _ => id, fun _ _ => .inl rfl⟩
    · cases hf
      exact ⟨nofun, nofun⟩
    · cases hf
      exact ⟨nofun, nofun⟩
  have hrestarts : ∀ w w₁, Noticed w → Restarts cfg Unbroken w w₁ → Noticed w₁ := by
    intro w w₁ hw h
    induction h with
    | start => exact hw
    | call _ hE hrun ih => exact hrun.sound (hE.call _ _ ih)
    | outside _ hstore ih =>
      intro k hterminal
      simp only [stateOf, hstore] at hterminal ⊢
      exact ih k hterminal
  intro w w₁ w₂ sweep hw h hrun
  exact hrun.sound (hquiet.calling.reconcileAll cfg sweep w₁ (hrestarts w w₁ hw h))

/-! ## A stop between the two commits -/

/-- The process stops with the commit that ends the aborted run. -/
def stopAtEnd : List (Fault ControllerError) :=
  List.replicate 6 Fault.none ++ [Fault.stopAfter]

def stoppedAtEnd : World :=
  (machine.replay (reconcileAll sampleConfig { abortRuns := ["run-a"] }) stopAtEnd
    (abortingWorld [abortingRoot])).2

/-- No pass looks at the aborted run again, and nobody is told that it has ended. -/
theorem stoppedAtEnd_lost : ¬ NoLostNotice sampleConfig (· = stopping) := by
  intro h
  have hstart : Noticed (abortingWorld [abortingRoot]) := fun k hterminal => by
    simp only [abortingWorld, stateOf, Table.put_apply] at hterminal
    split at hterminal
    · cases hterminal
    · split at hterminal <;> cases hterminal
  have hrun := replay_runs_within (M := machine) (E := stopping)
    (φ := fun f => f = .none ∨ f = .stopBefore ∨ f = .stopAfter) (fun _ => rfl) (.inl rfl)
    (fun _ _ _ hf => hf) ((Call.reconcileAll { abortRuns := ["run-a"] }).run sampleConfig)
    (by decide : ∀ f ∈ stopAtEnd, f = .none ∨ f = .stopBefore ∨ f = .stopAfter)
    (abortingWorld [abortingRoot])
  have hagain := eval_runs (M := machine) (E := .quiet Op ControllerError World) (fun _ => rfl)
    (fun _ _ => rfl) (reconcileAll sampleConfig {}) stoppedAtEnd
  have hreturned : (machine.eval (reconcileAll sampleConfig {}) stoppedAtEnd).1 =
      .returned () := by
    decide +kernel
  rw [hreturned] at hagain
  have hstate : stateOf "run-a" (machine.eval (reconcileAll sampleConfig {}) stoppedAtEnd).2 =
      .aborted := by
    decide +kernel
  have hbox : (machine.eval (reconcileAll sampleConfig {}) stoppedAtEnd).2.store.outbox = [] := by
    decide +kernel
  obtain ⟨row, hrow, -⟩ := h _ _ _ _ hstart (.call .start rfl hrun) hagain "run-a"
    (by rw [hstate]; rfl)
  rw [hbox] at hrow
  cases hrow

end HollysysController
