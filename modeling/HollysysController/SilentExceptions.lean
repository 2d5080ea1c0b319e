import HollysysController.LostRaces
import HollysysController.Durable.Steps

/-! # Whether an exception is told

A run enters exception in three places, and each of them then writes a notice to the
outbox. The key of the notice is made from the reason, and a key is written once: a
reason that comes back after a recovery is not told again. -/

namespace HollysysController

open Durable

/-! ## Notices -/

/-- What `enqueue` makes of the outbox. -/
def noticed (row : OutboxRow) (box : List OutboxRow) : List OutboxRow :=
  if box.any (·.key == row.key) then box else box ++ [row]

/-- No row of the outbox has the key. -/
def Unused (key : String) (w : World) : Prop := ∀ row ∈ w.store.outbox, row.key ≠ key

instance (key : String) (w : World) : Decidable (Unused key w) := by
  unfold Unused
  infer_instance

/-- The outbox has a row that it did not have. -/
def Announced (w w' : World) : Prop := ∃ row ∈ w'.store.outbox, row ∉ w.store.outbox

instance (w w' : World) : Decidable (Announced w w') := by
  unfold Announced
  infer_instance

theorem announced_noticed {row : OutboxRow} {w w' : World}
    (h : w'.store.outbox = noticed row w.store.outbox) : Announced w w' ↔ Unused row.key w := by
  unfold Announced Unused
  rw [h]
  constructor
  · rintro ⟨new, hnew, hold⟩ old hmem hkey
    refine hold ?_
    rwa [noticed, if_pos (List.any_eq_true.mpr ⟨old, hmem, by simpa using hkey⟩)] at hnew
  · intro hunused
    have hnone : ¬ w.store.outbox.any (·.key == row.key) = true := fun hany => by
      obtain ⟨old, hmem, hkey⟩ := List.any_eq_true.mp hany
      exact hunused old hmem (by simpa using hkey)
    refine ⟨row, by simp [noticed, hnone], fun hmem => ?_⟩
    exact hunused row hmem rfl

theorem not_announced {w w' : World} (h : w'.store.outbox = w.store.outbox) : ¬ Announced w w' := by
  rintro ⟨row, hnew, hold⟩
  exact hold (h ▸ hnew)

theorem outbox_enqueue (row : OutboxRow) (w : World) :
    (machine.eval (store (.enqueue row)) w).2.store.outbox = noticed row w.store.outbox := by
  rw [store, Machine.eval_op_state, exec_store]
  by_cases h : w.store.outbox.any (·.key == row.key) = true <;>
    simp [StoreOp.exec, Txn.commit, enqueue, noticed, h]

/-! ## What leaves the run and the outbox alone -/

/-- The state of a run, and the outbox. -/
def noticeView (runKey : String) (w : World) : RunState × List OutboxRow :=
  (stateOf runKey w, w.store.outbox)

theorem exec_noticeView {o : StoreOp} (hcontrol : Column.control ∉ o.writes)
    (houtbox : Column.outbox ∉ o.writes) (runKey : String) (w : World) :
    noticeView runKey (machine.exec (.store o) w).2 = noticeView runKey w := by
  have hc := o.exec_get w.now w.store hcontrol
  have hb := o.exec_get w.now w.store houtbox
  simp only [Column.get] at hc hb
  simp only [noticeView, stateOf, exec_store, hc, hb]

/-- Nobody else moves, and nothing fails. -/
abbrev calmly : Setting Op ControllerError World := .quiet Op ControllerError World

theorem keeps_noticeView {runKey : String} {x : RunState × List OutboxRow} {o : Op}
    (ho : ∀ w, noticeView runKey (machine.exec o w).2 = noticeView runKey w) :
    Keeps machine calmly (fun w => noticeView runKey w = x) (Prog.op o) :=
  keeps_op (fun w w₁ hw hothers => by rwa [show w₁ = w from hothers]) fun w hw =>
    (ho w).trans hw

theorem keeps_hermes {runKey : String} {x : RunState × List OutboxRow} (o : HermesOp) :
    Keeps machine calmly (fun w => noticeView runKey w = x) (hermes o) :=
  keeps_noticeView fun w => by
    rw [exec_hermes]
    rfl

theorem reading_noticeView (runKey : String) (x : RunState × List OutboxRow) :
    Reading (fun {α} (p : Service α) =>
      Keeps machine calmly (fun w => noticeView runKey w = x) p) where
  toClosed := closed_keeps
  store o ho := keeps_noticeView fun w => by rw [(exec_read w).1 o ho]
  hermes o ho := keeps_noticeView fun w => by rw [(exec_read w).2.1 o ho]
  gitlab o ho := keeps_noticeView fun w => by
    rw [(exec_read w).2.2 o (GitLabOp.isRead_of_look ho)]
  artifact run m := keeps_noticeView fun w => by rw [(exec_read w).2.2 _ rfl]
  host o := keeps_noticeView fun w => by rw [exec_host]

/-- Reads, moves on the board and records of cards leave the run and the outbox alone. -/
theorem handling_noticeView (runKey : String) (x : RunState × List OutboxRow) :
    Handling (fun {α} (p : Service α) =>
      Keeps machine calmly (fun w => noticeView runKey w = x) p) where
  toReading := reading_noticeView runKey x
  board o _ := keeps_hermes o
  running cfg board id task := Boarding.abortRunningTask
    { reading_noticeView runKey x with board := fun o _ => keeps_hermes o } cfg board id task
    (fun _ _ => keeps_hermes _) fun e => keeps_noticeView
      (exec_noticeView (by simp [StoreOp.writes]) (by simp [StoreOp.writes]) runKey)
  managed c := keeps_noticeView
    (exec_noticeView (by simp [StoreOp.writes]) (by simp [StoreOp.writes]) runKey)

/-- The world after `set_run_exception` has set the run. -/
def enteredException (runKey reason : String) (w : World) : World :=
  { w with store := (StoreOp.exec w.now (.setRunException runKey reason) w.store).2 }

theorem enteredException_outbox (runKey reason : String) (w : World) :
    (enteredException runKey reason w).store.outbox = w.store.outbox :=
  (StoreOp.setRunException runKey reason).exec_get (c := .outbox) w.now w.store
    (by simp [StoreOp.writes])

/-- A refused `set_run_exception` changes nothing. -/
theorem setRunException_wp {runKey reason : String} {w : World}
    {Q : Durable.Outcome ControllerError RunControl → World → Prop}
    (hentered : ∀ row, Q (.returned row) (enteredException runKey reason w))
    (hrefused : ∀ e : ControllerError, Q (.raised e) w) :
    wp machine calmly (store (.setRunException runKey reason)) Q w := by
  refine wp_op_calm (fun _ _ hf => hf) fun w₁ hw => ?_
  obtain rfl : w₁ = w := hw
  have hstate := exec_store w₁ (.setRunException runKey reason)
  rcases hx : machine.exec (.store (.setRunException runKey reason)) w₁ with ⟨r, w'⟩
  rw [hx] at hstate
  cases r with
  | ok row =>
    obtain rfl : w' = enteredException runKey reason w₁ := hstate
    exact hentered row
  | error e =>
    have hsame := (setRunException_error (w := w₁) (by rw [hx])).2
    obtain rfl : w' = w₁ := by
      refine hstate.trans ?_
      rw [hsame]
    exact hrefused e

/-- The outbox after the call, when the call moved the run at all. -/
def Notices (runKey : String) (row : Option OutboxRow) (w w' : World) : Prop :=
  noticeView runKey w' = noticeView runKey w ∨
    w'.store.outbox = row.elim w.store.outbox fun row => noticed row w.store.outbox

/-! ## The three ways into exception -/

section Calls

variable {cfg : Config} {runKey : String}

/-- Only a run that is in exception now lets `_exception` go on to its notice. -/
theorem enterException_wp {run : RunRecord} {id : CardId} {reason : String} {w : World}
    {Q : Durable.Outcome ControllerError Unit → World → Prop}
    (hentered : ∀ w', w'.store.outbox = w.store.outbox → Q (.returned ()) w')
    (hrefused : ∀ r w', noticeView run.runKey w' = noticeView run.runKey w →
      r ≠ .returned () → Q r w') :
    wp machine calmly (enterException cfg run id reason) Q w := by
  have hquiet := handling_noticeView run.runKey (noticeView run.runKey w)
  have hraise : ∀ (e : ControllerError) w', noticeView run.runKey w' = noticeView run.runKey w →
      wp machine calmly (raise e : Service Unit) Q w' :=
    fun _ w' hw' => hrefused _ w' hw' (fun h => by cases h)
  rw [enterException, Prog.bind_def, wp_bind]
  refine wp_mono (fun r w₁ hw₁ => ?_)
    (hquiet.assertMutableOrWithdraw cfg run.runKey run.workspace.board id w rfl)
  cases r with
  | raised e => exact hraise e w₁ hw₁
  | stopped => exact hrefused _ _ hw₁ (fun h => by cases h)
  | returned u =>
    dsimp only
    rw [Prog.bind_def, wp_bind, wp_attempt]
    refine setRunException_wp (fun row => hentered _ ?_) fun e => ?_
    · exact (enteredException_outbox _ _ _).trans (congrArg Prod.snd hw₁)
    · dsimp only
      split
      · rw [Prog.bind_def, wp_bind]
        refine wp_mono (fun r w₂ hw₂ => ?_) (hquiet.runControl run.runKey w₁ hw₁)
        cases r with
        | raised e₁ => exact hraise e₁ w₂ hw₂
        | stopped => exact hrefused _ _ hw₂ (fun h => by cases h)
        | returned control =>
          dsimp only
          split
          · exact hraise e w₂ hw₂
          · rw [Prog.bind_def, wp_bind]
            refine wp_mono (fun r w₃ hw₃ => ?_)
              (hquiet.withdrawCard cfg run.workspace.board id w₂ hw₂)
            cases r with
            | raised e₁ => exact hraise e₁ w₃ hw₃
            | stopped => exact hrefused _ _ hw₃ (fun h => by cases h)
            | returned u => exact hraise _ w₃ hw₃
      · exact hraise e w₁ hw₁

theorem enqueue_wp {row : OutboxRow} {w : World}
    {Q : Durable.Outcome ControllerError Unit → World → Prop}
    (h : ∀ w', w'.store.outbox = noticed row w.store.outbox → Q (.returned ()) w') :
    wp machine calmly (store (.enqueue row)) Q w := by
  refine wp_op_calm (fun _ _ hf => hf) fun w₁ hw => ?_
  obtain rfl : w₁ = w := hw
  have hbox := outbox_enqueue row w₁
  rw [store, Machine.eval_op_state] at hbox
  have hok : (machine.exec (.store (.enqueue row)) w₁).1 = .ok () := enqueue_answers row w₁.store
  rcases hx : machine.exec (.store (.enqueue row)) w₁ with ⟨r, w'⟩
  rw [hx] at hbox hok
  obtain rfl : r = .ok () := hok
  exact h w' hbox

def exceptionRow (cfg : Config) (run : RunRecord) (reason : String) : OutboxRow where
  key := s!"{run.runKey}:exception:{exceptionSuffix cfg reason}"
  runKey := run.runKey
  event := "exception"

/-- `_exception` leaves the run and the outbox alone, or comes to its notice. -/
theorem exception_wp (run : RunRecord) (parent : CardId) (reason : String) (w : World) :
    wp machine calmly (exception cfg run parent reason)
      (fun _ => Notices run.runKey (some (exceptionRow cfg run reason)) w) w := by
  have hquiet := handling_noticeView run.runKey (noticeView run.runKey w)
  rw [exception, Prog.bind_def, wp_bind]
  refine wp_mono (fun r w₁ hw₁ => ?_) (hquiet.archiveParent cfg run parent w rfl)
  cases r with
  | raised e => exact .inl hw₁
  | stopped => exact .inl hw₁
  | returned u =>
    dsimp only
    rw [Prog.bind_def, wp_bind]
    refine wp_mono (fun r w₂ hw₂ => ?_) (hquiet.recordExceptionCard cfg run parent reason w₁ hw₁)
    cases r with
    | raised e => exact .inl hw₂
    | stopped => exact .inl hw₂
    | returned task =>
      dsimp only
      rw [Prog.bind_def, wp_bind]
      refine enterException_wp (fun w₃ hbox => ?_) fun r w₃ hw₃ hr => ?_
      · dsimp only
        rw [Prog.bind_def, wp_bind]
        refine enqueue_wp fun w₄ hbox' => .inr ?_
        rw [hbox', hbox, show w₂.store.outbox = w.store.outbox from congrArg Prod.snd hw₂]
        exact rfl
      · cases r with
        | returned u => exact absurd rfl hr
        | raised e => exact .inl (hw₃.trans hw₂)
        | stopped => exact .inl (hw₃.trans hw₂)

/-! ## Notices of failures -/

/-- The run that a failure notice would be about. -/
def noticeSubject (runKey : String) (w : World) : Option RunRecord :=
  match (machine.eval (noticeRun runKey) w).1 with
  | .returned run => run
  | _ => none

def failureRow (cfg : Config) (runKey : String) (e : ControllerError) : OutboxRow :=
  let suffix := clip 12 (cfg.sha256 s!"{e.className}: {e.text}")
  { key := s!"{runKey}:controller-failure:{suffix}", runKey, event := "controller-failure" }

theorem wp_eval {α : Type} {p : Service α} {w : World}
    {Q : Durable.Outcome ControllerError α → World → Prop}
    (h : Q (machine.eval p w).1 (machine.eval p w).2) : wp machine calmly p Q w :=
  wp_of_runs fun r w' hr => by rwa [runs_quiet hr] at h

/-- Looking for the run reads nothing of its state. -/
theorem noticeRun_readsAlike (reason : String) (w : World) :
    machine.ReadsAlike w (enteredException runKey reason w) (noticeRun runKey) := by
  have hread : ∀ o : StoreOp, o.isRead = true →
      (o.exec w.now w.store).1 =
        (o.exec w.now (enteredException runKey reason w).store).1 →
      machine.ReadsAlike w (enteredException runKey reason w) (store o) := fun o ho h =>
    readsAlike_op h ((exec_read w).1 o ho) ((exec_read _).1 o ho)
  have hget : ∀ c : Column, c ≠ .control →
      c.get (enteredException runKey reason w).store = c.get w.store := fun c hc =>
    (StoreOp.setRunException runKey reason).exec_get w.now w.store (by simpa [StoreOp.writes])
  have hcards := hget .cards (by decide)
  have hruns := hget .runs (by decide)
  simp only [Column.get] at hcards hruns
  have hrecord := hread (.runRecord runKey) rfl (by
    simp only [StoreOp.exec, Store.runRecord, hruns])
  refine (closed_readsAlike machine _ _).bind (hread (.cardsForRun runKey) rfl
    (by simp only [StoreOp.exec, Store.cardsForRun, hcards])) fun cards => ?_
  split
  · exact hrecord
  · refine (closed_readsAlike machine _ _).bind ?_ fun task => ?_
    · exact readsAlike_op rfl ((exec_read w).2.1 _ rfl) ((exec_read _).2.1 _ rfl)
    · split
      · exact hrecord
      · split <;> exact (closed_readsAlike machine _ _).pure _

/-- The notice of the failure, when there is a run to write about. -/
def failureNotice (cfg : Config) (runKey : String) (e : ControllerError) (w : World) :
    Option OutboxRow :=
  (noticeSubject runKey w).map fun _ => failureRow cfg runKey e

/-- What `_enqueue_controller_failure` adds once the run is set. -/
theorem enqueueControllerFailure_wp (reason : String) (e : ControllerError) (w : World) :
    wp machine calmly (enqueueControllerFailure cfg runKey e)
      (fun _ => Notices runKey (failureNotice cfg runKey e w) w)
      (enteredException runKey reason w) := by
  obtain ⟨r, hread, hread'⟩ := noticeRun_readsAlike reason w
  have hbox := enteredException_outbox runKey reason w
  rw [enqueueControllerFailure, Prog.bind_def, wp_bind]
  refine wp_eval ?_
  rw [hread', failureNotice, noticeSubject, hread]
  cases r with
  | raised e => exact .inr hbox
  | stopped => exact .inr hbox
  | returned run =>
    cases run with
    | none => exact .inr hbox
    | some run =>
      refine enqueue_wp fun w' hbox' => .inr ?_
      rw [hbox', hbox]
      exact rfl

theorem recordRunException_wp (e : ControllerError) (w : World) :
    wp machine calmly (recordRunException cfg runKey e)
      (fun _ => Notices runKey (failureNotice cfg runKey e w) w) w := by
  rw [recordRunException, Prog.bind_def, wp_bind]
  refine wp_eval ?_
  rw [show machine.eval (store (.runControl runKey)) w = (.returned (w.store.runControl runKey), w)
    from rfl]
  dsimp only
  cases w.store.runControl runKey with
  | none => exact .inl rfl
  | some control =>
    dsimp only
    split
    · rw [Prog.bind_def, wp_bind]
      exact setRunException_wp (fun _ => enqueueControllerFailure_wp _ e w) fun _ => .inl rfl
    · exact .inl rfl

/-- A continuation of a recovery that failed with `e`, where `orException` goes on. -/
def failedContinuation (cfg : Config) (runKey : String) (e : ControllerError) : Service Unit := do
  let _ ← store (.setRunException runKey e.text)
  enqueueControllerFailure cfg runKey e
  raise e

theorem orException_raised {α : Type} {p : Service α} {e : ControllerError} {w w₁ : World}
    (h : machine.eval p w = (.raised e, w₁)) :
    (machine.eval (orException cfg runKey p) w).2 =
      (machine.eval (failedContinuation cfg runKey e) w₁).2 := by
  have hattempt : machine.eval p.attempt w = (.returned (.error e), w₁) := by
    rw [machine.eval_attempt, h]
  have hraise : ∀ {β γ : Type} (q : Service β) v,
      (machine.eval (q.bind fun _ => (raise e : Service γ)) v).2 = (machine.eval q v).2 := by
    intro β γ q v
    rw [machine.eval_bind]
    rcases machine.eval q v with ⟨r, v'⟩
    cases r <;> rfl
  rw [orException, Prog.bind_def, machine.eval_bind_of hattempt, failedContinuation]
  dsimp only
  rw [Prog.bind_def, Prog.bind_def, machine.eval_bind, Prog.bind_def, machine.eval_bind]
  rcases machine.eval (store (.setRunException runKey e.text)) w₁ with ⟨r, w₂⟩
  cases r with
  | returned row => exact (hraise _ w₂).trans (hraise _ w₂).symm
  | raised e₁ => rfl
  | stopped => rfl

theorem failedContinuation_wp (e : ControllerError) (w : World) :
    wp machine calmly (failedContinuation cfg runKey e)
      (fun _ => Notices runKey (failureNotice cfg runKey e w) w) w := by
  rw [failedContinuation, Prog.bind_def, wp_bind]
  refine setRunException_wp (fun _ => ?_) fun _ => .inl rfl
  dsimp only
  rw [Prog.bind_def, wp_bind]
  refine wp_mono (fun r w₁ h => ?_) (enqueueControllerFailure_wp e.text e w)
  cases r <;> exact h

end Calls

/-! ## Sequences of exceptions and recoveries -/

/-- The operation is one of those by which a run enters exception. -/
def Op.entersException : Op → Bool
  | .store (.setRunException _ _) => true
  | .store (.transitionRun t) => t.newState = .exception
  | _ => false

/-- What happens to a run: one of its three ways into exception, any other operation of any
call (a recovery, an abort, another run), or something outside of the store. -/
inductive ExceptionStep where
  | exception (run : RunRecord) (parent : CardId) (reason : String)
  | failure (e : ControllerError)
  | continuation (e : ControllerError)
  | other (o : Op)
  | outside (w' : World)

namespace ExceptionStep

variable (cfg : Config) (runKey : String)

def run (w : World) : ExceptionStep → Option World
  | .exception run parent reason =>
    if run.runKey = runKey then
      some (machine.eval (HollysysController.exception cfg run parent reason) w).2
    else none
  | .failure e => some (machine.eval (recordRunException cfg runKey e) w).2
  | .continuation e => some (machine.eval (failedContinuation cfg runKey e) w).2
  | .other o => if o.entersException then none else some (machine.exec o w).2
  | .outside w' => some { w' with store := w.store }

/-- The notice that the step would write. -/
def notice (w : World) : ExceptionStep → Option OutboxRow
  | .exception run _ reason => some (exceptionRow cfg run reason)
  | .failure e | .continuation e => failureNotice cfg runKey e w
  | .other _ | .outside _ => none

/-- There is a notice to write, and its key has not been used. -/
def Fresh (w : World) (a : ExceptionStep) : Prop :=
  ∃ row ∈ a.notice cfg runKey w, Unused row.key w

instance (w : World) (a : ExceptionStep) : Decidable (a.Fresh cfg runKey w) :=
  match h : a.notice cfg runKey w with
  | none => isFalse fun ⟨row, hrow, _⟩ => by rw [h] at hrow; cases hrow
  | some row => decidable_of_iff (Unused row.key w)
      ⟨fun hu => ⟨row, h, hu⟩, fun ⟨row', hrow, hu⟩ => by rw [h] at hrow; cases hrow; exact hu⟩

end ExceptionStep

theorem notices_of_wp {runKey : String} {row : Option OutboxRow} {w : World} {α : Type}
    {p : Service α} (h : wp machine calmly p (fun _ => Notices runKey row w) w) :
    Notices runKey row w (machine.eval p w).2 :=
  (eval_runs (E := calmly) (fun _ => rfl) (fun _ _ => rfl) p w).sound h

/-- No other operation brings a run into exception. -/
theorem exec_enters_not {o : Op} (ho : o.entersException = false) (runKey : String) (w : World)
    (h : stateOf runKey (machine.exec o w).2 = .exception) : stateOf runKey w = .exception := by
  cases o with
  | hermes o =>
    rw [exec_hermes] at h
    exact h
  | gitlab o =>
    rw [exec_gitlab] at h
    exact h
  | host o =>
    rw [exec_host] at h
    exact h
  | store o =>
    rw [exec_store] at h
    by_cases hw : Column.control ∈ o.writes
    · cases o <;> simp only [StoreOp.writes, List.mem_cons, List.not_mem_nil, reduceCtorEq,
        or_self, or_false, false_or] at hw <;> first
        | cases ho; done
        | skip
      case ensureRunControl k =>
        exact (ensureRunControl_avoids (by decide) k).commit w.store runKey h
      case confirmAbortRequest c => exact confirmAbortRequest_avoids (by decide) c w.now w.store runKey h
      case transitionRun t =>
        exact (transitionRun_avoids (by simpa [Op.entersException] using ho) w.now).commit
          w.store runKey h
      case markFlowCompleted k state head reason =>
        by_cases hstate : state = .exception
        · subst hstate
          exact Txn.Avoids.commit (fun s a s' hx => by cases hx) w.store runKey h
        · exact (markFlowCompleted_avoids hstate k head reason w.now).commit w.store runKey h
      case markCompleted k external compliance head merge reason =>
        exact (markCompleted_avoids (by decide) k external compliance head merge reason
          w.now).commit w.store runKey h
      case markAborting k => exact (markAborting_avoids (by decide) k).commit w.store runKey h
      case finishAbort k merged head merge =>
        exact (finishAbort_avoids (by cases merged <;> decide) k head merge w.now).commit
          w.store runKey h
    · have hget := o.exec_get (c := .control) w.now w.store hw
      simp only [Column.get] at hget
      simpa only [stateOf, hget] using h

/-- The run enters exception from one world to the other. -/
def EntersException (runKey : String) (w w' : World) : Prop :=
  stateOf runKey w ≠ .exception ∧ stateOf runKey w' = .exception

instance (runKey : String) (w w' : World) : Decidable (EntersException runKey w w') := by
  unfold EntersException
  infer_instance

/-- An entry into exception leaves the outbox with the notice of its step. -/
theorem ExceptionStep.entered {cfg : Config} {runKey : String} {a : ExceptionStep} {w w' : World}
    (ha : a.run cfg runKey w = some w') (hentered : EntersException runKey w w') :
    w'.store.outbox = (a.notice cfg runKey w).elim w.store.outbox
      fun row => noticed row w.store.outbox := by
  obtain ⟨hbefore, hafter⟩ := hentered
  have hmoved : ∀ row, Notices runKey row w w' →
      w'.store.outbox = row.elim w.store.outbox fun row => noticed row w.store.outbox := by
    rintro row (hview | hbox)
    · exact absurd ((congrArg Prod.fst hview).symm.trans hafter) hbefore
    · exact hbox
  cases a with
  | exception run parent reason =>
    simp only [ExceptionStep.run, Option.ite_none_right_eq_some, Option.some.injEq] at ha
    obtain ⟨rfl, rfl⟩ := ha
    exact hmoved _ (notices_of_wp (exception_wp run parent reason w))
  | failure e =>
    cases ha
    exact hmoved _ (notices_of_wp (recordRunException_wp e w))
  | continuation e =>
    cases ha
    exact hmoved _ (notices_of_wp (failedContinuation_wp e w))
  | other o =>
    simp only [ExceptionStep.run, Option.ite_none_left_eq_some, Option.some.injEq,
      Bool.not_eq_true] at ha
    obtain ⟨ho, rfl⟩ := ha
    exact absurd (exec_enters_not ho runKey w hafter) hbefore
  | outside v =>
    cases ha
    exact absurd hafter hbefore

/-- An entry is announced when its notice has a key of its own. -/
theorem ExceptionStep.announced_iff {cfg : Config} {runKey : String} {a : ExceptionStep}
    {w w' : World} (ha : a.run cfg runKey w = some w') (hentered : EntersException runKey w w') :
    Announced w w' ↔ a.Fresh cfg runKey w := by
  have hbox := ExceptionStep.entered ha hentered
  unfold ExceptionStep.Fresh
  cases hrow : a.notice cfg runKey w with
  | none =>
    rw [hrow] at hbox
    simpa using not_announced hbox
  | some row =>
    rw [hrow] at hbox
    rw [announced_noticed hbox]
    simp

section Statements

variable (cfg : Config) (runKey : String)

/-- **No silent exception.** Each entry of the run into exception is announced. -/
def NoSilentException (w : World) (as : List ExceptionStep) : Prop :=
  Along (fun w a => a.run cfg runKey w)
    (fun w _ w' => EntersException runKey w w' → Announced w w') w as

/-- The key of the notice is new at each entry: the same reason has not been there before. -/
def FreshReasons (w : World) (as : List ExceptionStep) : Prop :=
  Along (fun w a => a.run cfg runKey w)
    (fun w a w' => EntersException runKey w w' → a.Fresh cfg runKey w) w as

instance (w : World) (as : List ExceptionStep) : Decidable (NoSilentException cfg runKey w as) := by
  unfold NoSilentException
  infer_instance

end Statements

/-- **Which exceptions are told.** In a sequence of exceptions, recoveries and whatever else
happens, every entry into exception is announced exactly when every entry finds a run to
write about and the key of its notice unused. -/
theorem noSilentException_iff (cfg : Config) (runKey : String) (w : World)
    (as : List ExceptionStep) :
    NoSilentException cfg runKey w as ↔ FreshReasons cfg runKey w as := by
  refine along_iff (I := fun _ => True) (fun _ _ _ _ _ => trivial) (fun s a s' _ ha => ?_) trivial
  constructor
  · intro h hentered
    exact (ExceptionStep.announced_iff ha hentered).mp (h hentered)
  · intro h hentered
    exact (ExceptionStep.announced_iff ha hentered).mpr (h hentered)

/-! ## A reason that comes back -/

def unknownCard : ControllerError := .valueError "unknown managed card t_00000009"

/-- The recovery that an administrator asks for between the two failures. -/
def recoveryRequest : RecoverRequest where
  messageId := "om_70"
  runKey := "hollysys-k1"
  reason := "card restored"
  sender := "ou_admin"
  chatId := "oc_1"

/-- The run fails, is recovered and fails in the same way. -/
def recurringFailure : List ExceptionStep :=
  let failed : RunControl := { state := .exception, stateVersion := 2 }
  [.failure unknownCard,
    .other (.store (.transitionRun (recoveryTransitionOf recoveryRequest failed))),
    .failure unknownCard]

/-- The second failure puts the run into exception again, and nobody is told. -/
theorem recurringFailure_silent :
    ¬ NoSilentException sampleConfig "hollysys-k1" wholeStart.after recurringFailure := by
  decide +kernel

/-- The first failure alone is told. -/
example : NoSilentException sampleConfig "hollysys-k1" wholeStart.after
    (recurringFailure.take 2) := by
  decide +kernel

end HollysysController
