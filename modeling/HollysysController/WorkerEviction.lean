import HollysysController.Durable.Paths
import HollysysController.Calls

/-! # Safe reclaims

A running task is taken from its worker only after the Supervisor has confirmed
the exit of that worker. What Hermes and the Supervisor answer may change between
any two reads, so the evidence is about the events of the step that reclaims. -/

namespace HollysysController

open Durable

/-- An event of the service. -/
abbrev Observed : Type := Event Op Op.Ret ControllerError

/-! ## The evidence -/

/-- The operation only looks. -/
def Op.looks : Op → Bool
  | .store o => o.isRead
  | .hermes o => o.isRead
  | .gitlab o => o.isLook
  | .host .now | .host (.workspace _) => true
  | .host _ => false

/-- The Supervisor has confirmed the exit of the worker, and since then nothing but
`between` has happened, in which the step only looked. -/
structure ConfirmedSince (i : WorkerIdentity) (h between : List Observed) : Prop where
  confirmed : ∃ before, h = before ++ ⟨.host (.exitConfirmed i), .ok true⟩ :: between
  looked : ∀ e ∈ between, e.op.looks = true

/-- The task was read, and the attempt still ran it. -/
def Reread (board : String) (id : CardId) (runId pid : Nat) (es : List Observed) : Prop :=
  ∃ task : TaskRecord, ⟨.hermes (.task board id), .ok (some task)⟩ ∈ es ∧
    task.status = .running ∧ task.currentRunId = some runId ∧ task.workerPid = some pid

/-- The Supervisor has confirmed the exit of the attempt's worker in this step, and the task
that was read since then is still the one of the attempt. -/
def Evidenced (board : String) (id : CardId) (runId pid : Nat) (h : List Observed) : Prop :=
  ∃ (i : WorkerIdentity) (between : List Observed),
    i.cardId = id ∧ i.runId = runId ∧ i.workerPid = pid ∧ ConfirmedSince i h between ∧
      Reread i.board id runId pid between ∧ Reread board id runId pid between

/-- A task is reclaimed with evidence only. -/
def reclaimGuard (h : List Observed) : Op → Prop
  | .hermes (.reclaim board id runId pid _) => Evidenced board id runId pid h
  | _ => True

/-- Whatever it is answered, the program issues no reclaim without evidence. -/
def SafeReclaim {α : Type} (p : Service α) : Prop :=
  ∀ (es : List Observed) (board : String) (id : CardId) (runId pid : Nat) (archive : Bool),
    Path p es (some (.hermes (.reclaim board id runId pid archive))) →
      Evidenced board id runId pid es

/-- After any events, the program reclaims with evidence only. -/
def ReclaimsSafely {α : Type} (p : Service α) : Prop :=
  ∀ h, Heeds reclaimGuard p (fun _ _ => True) h

theorem ReclaimsSafely.safe {α : Type} {p : Service α} (hp : ReclaimsSafely p) : SafeReclaim p :=
  fun _ _ _ _ _ _ hpath => (hp []).path hpath

theorem closed_reclaimsSafely : Closed (fun {α} (p : Service α) => ReclaimsSafely p) :=
  closed_heeds

/-- An identity is of the card it was asked for. -/
theorem workerIdentity_card {board : String} {id : CardId} {runtime : Option CardRuntime}
    {task : TaskRecord} {i : WorkerIdentity} (h : workerIdentity board id runtime task = some i) :
    i.board = board ∧ i.cardId = id := by
  unfold workerIdentity at h
  obtain ⟨row, -, h⟩ := Option.bind_eq_some_iff.mp h
  split at h
  · split at h
    · cases h
    · cases h
      exact ⟨rfl, rfl⟩
  · cases h

/-- The row of an attempt and its tasks give one identity. -/
theorem workerIdentity_row {board : String} {id : CardId} {row : CardRuntime}
    {task task' : TaskRecord} {i j : WorkerIdentity}
    (hi : workerIdentity board id (some row) task = some i)
    (hj : workerIdentity board id (some row) task' = some j) :
    j = i ∧ task'.currentRunId = some i.runId ∧ task'.workerPid = some i.workerPid := by
  simp only [workerIdentity, Option.bind_some] at hi hj
  split at hi
  · next runId pid hrow hpid =>
    split at hi
    · cases hi
    · cases hi
      rw [hrow, hpid] at hj
      dsimp only at hj
      split at hj
      · cases hj
      · next hsame =>
        cases hj
        rw [not_or, not_or, not_not, not_not] at hsame
        exact ⟨rfl, hsame.2⟩
  · cases hi

/-- After the events `h`, the program reclaims with evidence only. -/
def ReclaimsSafelyAfter (h : List Observed) {α : Type} (p : Service α) : Prop :=
  Heeds reclaimGuard p (fun _ _ => True) h

/-- After some events, what reclaims safely may follow. -/
theorem leads_reclaimsSafely (h : List Observed) :
    Leads (fun {α} (p : Service α) => ReclaimsSafely p)
      (fun {α} (p : Service α) => ReclaimsSafelyAfter h p) :=
  leads_heeds reclaimGuard h

/-! ## Steps that need no evidence -/

theorem reclaimGuard_of_looks {h : List Observed} {o : Op} (ho : o.looks = true) :
    reclaimGuard h o := by
  cases o with
  | hermes o => cases o <;> first | exact trivial | cases ho
  | store o => exact trivial
  | gitlab o => exact trivial
  | host o => exact trivial

theorem reclaimsSafely_op {o : Op} (ho : ∀ h, reclaimGuard h o) :
    ReclaimsSafely (Prog.op o : Service o.Ret) :=
  fun h => heeds_op (ho h) fun _ => trivial

theorem reclaimsSafely_store (o : StoreOp) : ReclaimsSafely (store o) :=
  reclaimsSafely_op fun _ => trivial

theorem reclaimsSafely_hermes {o : HermesOp} (ho : o.evicts = false) :
    ReclaimsSafely (hermes o) :=
  reclaimsSafely_op fun _ => by cases o <;> first | exact trivial | cases ho

theorem reclaimsSafely_gitlab (o : GitLabOp) : ReclaimsSafely (gitlab o) :=
  reclaimsSafely_op fun _ => trivial

theorem reclaimsSafely_host (o : HostOp) : ReclaimsSafely (host o) :=
  reclaimsSafely_op fun _ => trivial

/-! ## What holds from the confirmation to the reclaim -/

variable {i : WorkerIdentity} {h between : List Observed}

theorem ConfirmedSince.start (before : List Observed) (i : WorkerIdentity) :
    ConfirmedSince i (before ++ [⟨.host (.exitConfirmed i), .ok true⟩]) [] :=
  ⟨⟨before, rfl⟩, fun _ he => absurd he List.not_mem_nil⟩

theorem ConfirmedSince.append (hs : ConfirmedSince i h between) {es : List Observed}
    (hes : ∀ e ∈ es, e.op.looks = true) : ConfirmedSince i (h ++ es) (between ++ es) := by
  obtain ⟨before, hbefore⟩ := hs.confirmed
  refine ⟨⟨before, by rw [hbefore]; simp⟩, fun e he => ?_⟩
  rcases List.mem_append.mp he with he | he
  · exact hs.looked e he
  · exact hes e he

theorem ConfirmedSince.look (hs : ConfirmedSince i h between) {e : Observed}
    (he : e.op.looks = true) : ConfirmedSince i (h ++ [e]) (between ++ [e]) :=
  hs.append fun e' he' => by
    rw [List.mem_singleton.mp he']
    exact he

theorem Reread.append {board : String} {id : CardId} {runId pid : Nat} {es : List Observed}
    (hr : Reread board id runId pid between) : Reread board id runId pid (between ++ es) := by
  obtain ⟨task, htask, hsame⟩ := hr
  exact ⟨task, List.mem_append_left _ htask, hsame⟩

/-- The task that is read last. -/
theorem Reread.last {board : String} {id : CardId} {runId pid : Nat} {task : TaskRecord}
    (hrunning : task.status = .running)
    (hsame : ¬ (task.currentRunId ≠ some runId ∨ task.workerPid ≠ some pid)) :
    Reread board id runId pid (between ++ [⟨.hermes (.task board id), .ok (some task)⟩]) := by
  rw [not_or, not_not, not_not] at hsame
  exact ⟨task, by simp, hrunning, hsame.1, hsame.2⟩

/-- A part that only looks leaves the confirmation standing. -/
theorem ConfirmedSince.bind {α β : Type} {p : Service α} {f : α → Service β}
    (hs : ConfirmedSince i h between) (hp : p.Uses fun o => o.looks = true)
    (hf : ∀ a h' es, ConfirmedSince i h' (between ++ es) →
      Heeds reclaimGuard (f a) (fun _ _ => True) h') :
    Heeds reclaimGuard (p.bind f) (fun _ _ => True) h := by
  refine heeds_bind.mpr ((hp.heeds fun _ _ => reclaimGuard_of_looks).mono fun r h' hes => ?_)
  obtain ⟨es, rfl, hlooked⟩ := hes
  cases r with
  | ok a => exact hf a _ es (hs.append hlooked)
  | error e => trivial

theorem looks_op {o : Op} (ho : o.looks = true) :
    (Prog.op o : Service o.Ret).Uses fun o => o.looks = true :=
  Prog.uses_op ho

theorem boundDeliveryMr_looks (site : ReadSite) (run : RunRecord) :
    (boundDeliveryMr site run).Uses fun o => o.looks = true := by
  refine (looks_op (o := .store (.deliveryBinding run.runKey)) rfl).bind fun binding => ?_
  cases binding with
  | none => trivial
  | some b =>
    refine Prog.Uses.bind (Prog.Uses.bind ?_ fun mr => ?_) fun _ => trivial
    · refine (looks_op (o := .gitlab (.mr site run b.mrIid)) rfl).bind fun mr => ?_
      split <;> trivial
    · split
      · trivial
      · exact (looks_op (o := .gitlab (.check (.claimNote run b))) rfl).bind fun _ => trivial

/-! ## The reclaims -/

/-- Everything that leaves the workers alone. -/
theorem boarding_reclaimsSafely : Boarding (fun {α} (p : Service α) => ReclaimsSafely p) where
  toClosed := closed_reclaimsSafely
  store o _ := reclaimsSafely_store o
  hermes o ho := reclaimsSafely_hermes (by cases o <;> first | rfl | cases ho)
  gitlab o _ := reclaimsSafely_gitlab o
  host := reclaimsSafely_host
  artifact _ _ := reclaimsSafely_gitlab _
  board _ ho := reclaimsSafely_hermes ho

/-- The card is given up with the evidence of its attempt. -/
theorem abortTask_heeds (hs : ConfirmedSince i h between) {board : String}
    (hreread : i.board = board ∨ Reread i.board i.cardId i.runId i.workerPid between) :
    Heeds reclaimGuard (abortTask board i.cardId (some (i.runId, i.workerPid)))
      (fun _ _ => True) h := by
  refine heeds_op_bind trivial (fun task => ?_) fun _ => trivial
  cases task with
  | none => trivial
  | some task =>
    dsimp only
    split
    · trivial
    · split
      · next hrunning =>
        split
        · trivial
        · next hsame =>
          have hlast : Reread board i.cardId i.runId i.workerPid (between ++ [_]) :=
            Reread.last hrunning hsame
          refine heeds_op_bind ⟨i, _, rfl, rfl, rfl, hs.look rfl, ?_, hlast⟩
            (fun _ => boarding_reclaimsSafely.archiveUnclaimed _ _ _) fun _ => trivial
          rcases hreread with hboard | hreread
          · rw [hboard]
            exact hlast
          · exact hreread.append
      · exact boarding_reclaimsSafely.archiveUnclaimed _ _ _

/-! ## Abort processing -/

theorem recordReclaimedAttempt_reclaimsSafely (cfg : Config) (i : WorkerIdentity) :
    ReclaimsSafely (recordReclaimedAttempt cfg i) :=
  closed_reclaimsSafely.bind (reclaimsSafely_host _) fun _ => reclaimsSafely_store _

/-- `_abort_managed_task` reclaims with evidence only. -/
theorem abortRunningTask_reclaimsSafely (cfg : Config) (board : String) (id : CardId)
    (task : TaskRecord) : ReclaimsSafely (abortRunningTask cfg board id task) := by
  have c := closed_reclaimsSafely
  refine c.bind (reclaimsSafely_store _) fun runtime => ?_
  split
  · exact c.pure _
  · next identity hidentity =>
    obtain ⟨rfl, rfl⟩ := workerIdentity_card hidentity
    intro h
    refine heeds_op_bind trivial (fun confirmed => ?_) fun _ => trivial
    cases confirmed with
    | false => trivial
    | true =>
      have hs := ConfirmedSince.start h identity
      refine heeds_op_bind trivial (fun currentTask => ?_) fun _ => trivial
      refine heeds_op_bind trivial (fun currentRuntime => ?_) fun _ => trivial
      split
      · trivial
      · refine heeds_bind.mpr ((abortTask_heeds ((hs.look rfl).look rfl) (.inl rfl)).mono
          fun r h' _ => ?_)
        cases r with
        | ok u =>
          exact c.bind (recordReclaimedAttempt_reclaimsSafely cfg identity) (fun _ => c.pure _) h'
        | error e => trivial

/-- Where nothing changes and the Supervisor confirms the exit, the card is reclaimed. -/
theorem abortRunningTask_reclaims (cfg : Config) {board : String} {id : CardId}
    {task : TaskRecord} {row : CardRuntime} (hrunning : task.status = .running)
    (hidentity : workerIdentity board id (some row) task = some i) :
    Path (abortRunningTask cfg board id task)
      [⟨.store (.cardRuntime board id), .ok (some row)⟩, ⟨.host (.exitConfirmed i), .ok true⟩,
        ⟨.hermes (.task board id), .ok (some task)⟩,
        ⟨.store (.cardRuntime board id), .ok (some row)⟩,
        ⟨.hermes (.task board id), .ok (some task)⟩]
      (some (.hermes (.reclaim board id i.runId i.workerPid true))) := by
  obtain ⟨-, hrun, hpid⟩ := workerIdentity_row hidentity hidentity
  refine .answered ?_
  simp only [Prog.bind, hidentity]
  refine .answered (.answered (.answered ?_))
  simp only [Prog.bind, Option.bind_some, hidentity, ne_eq, not_true_eq_false, if_false]
  refine .answered ?_
  simp only [Prog.bind, hrunning, hrun, hpid, ne_eq, not_true_eq_false, or_self, if_false, if_true,
    reduceCtorEq]
  exact .issued

/-! ## The watchdog -/

/-- `_watchdog_target_is_current` looks, and finds the attempt that runs the task. -/
theorem watchdogTargetIsCurrent_heeds {x : LateWorker} {task : TaskRecord}
    (hidentity : workerIdentity x.managed.board x.managed.cardId (some x.row) task = some i)
    (hs : ConfirmedSince i h between) :
    Heeds reclaimGuard (watchdogTargetIsCurrent x) (fun r h' => ∃ since,
      ConfirmedSince i h' since ∧
        (r = .ok true → Reread i.board i.cardId i.runId i.workerPid since)) h := by
  obtain ⟨hboard, hid⟩ := workerIdentity_card hidentity
  have hno : ∀ {r : Except ControllerError Bool} {h' since : List Observed}, r ≠ .ok true →
      ConfirmedSince i h' since → ∃ since, ConfirmedSince i h' since ∧
        (r = .ok true → Reread i.board i.cardId i.runId i.workerPid since) :=
    fun hr hs => ⟨_, hs, fun h => absurd h hr⟩
  refine heeds_op_bind trivial (fun control => ?_) fun _ => hno (by simp) (hs.look rfl)
  have h₁ := hs.look (e := ⟨.store (.runControl x.runKey), .ok control⟩) rfl
  dsimp only
  split
  · exact hno (by simp) h₁
  · refine heeds_op_bind trivial (fun current => ?_) fun _ => hno (by simp) (h₁.look rfl)
    have h₂ := h₁.look
      (e := ⟨.hermes (.task x.managed.board x.managed.cardId), .ok current⟩) rfl
    cases current with
    | none => exact hno (by simp) h₂
    | some current =>
      dsimp only
      split
      · exact hno (by simp) h₂
      · next hrunning =>
        rw [not_not] at hrunning
        refine heeds_op_bind trivial (fun runtime => ?_) fun _ => hno (by simp) (h₂.look rfl)
        have h₃ := h₂.look
          (e := ⟨.store (.cardRuntime x.managed.board x.managed.cardId), .ok runtime⟩) rfl
        cases runtime with
        | none => exact hno (by simp) h₃
        | some runtime =>
          refine ⟨_, h₃, fun hr => ?_⟩
          -- the row of the late worker and the task give the identity that was confirmed
          simp only [Except.ok.injEq, Bool.and_eq_true, beq_iff_eq] at hr
          obtain ⟨⟨hsome, hsame⟩, -⟩ := hr
          obtain ⟨j, hj⟩ := Option.isSome_iff_exists.mp hsome
          obtain ⟨-, hrun, hpid⟩ := workerIdentity_row hidentity (hsame.symm.trans hj)
          exact ⟨current, by simp [hboard, hid], hrunning, hrun, hpid⟩

/-- The reclaim of a late worker's task, and what follows it. -/
theorem reclaimAttempt_heeds (hs : ConfirmedSince i h between) {board : String}
    (hreread : Reread i.board i.cardId i.runId i.workerPid between) :
    Heeds reclaimGuard (reclaimAttempt board i.cardId i.runId i.workerPid)
      (fun _ _ => True) h := by
  refine heeds_op_bind trivial (fun task => ?_) fun _ => trivial
  cases task with
  | none => trivial
  | some task =>
    dsimp only
    split
    · next hrunning =>
      split
      · trivial
      · next hsame =>
        exact heeds_op_bind ⟨i, _, rfl, rfl, rfl, hs.look rfl, hreread.append,
          Reread.last hrunning hsame⟩ (fun _ => reclaimsSafely_hermes rfl _) fun _ => trivial
    · exact reclaimsSafely_hermes rfl _

/-! ## The whole service -/

theorem bookkeeping_reclaimsSafely :
    Bookkeeping (fun {α} (p : Service α) => ReclaimsSafely p) :=
  { boarding_reclaimsSafely with
    outage := fun o _ => reclaimsSafely_store o
    transition := fun _ _ _ _ => reclaimsSafely_store _ }

theorem passing_reclaimsSafely : Passing (fun {α} (p : Service α) => ReclaimsSafely p) :=
  { closed_reclaimsSafely with
    store := fun o _ => reclaimsSafely_store o
    transition := fun _ _ _ => reclaimsSafely_store _
    ended := fun _ _ _ _ => closed_reclaimsSafely.bind (reclaimsSafely_store _) fun _ =>
      reclaimsSafely_store _
    hermes := fun _ => reclaimsSafely_hermes
    running := abortRunningTask_reclaimsSafely
    failure := bookkeeping_reclaimsSafely.handleDependencyError
    recovery := bookkeeping_reclaimsSafely.recoverRunDependency
    gitlab := reclaimsSafely_gitlab
    host := reclaimsSafely_host }

/-- The recovery of a late worker reclaims with evidence only. -/
theorem recoverLateWorker_reclaimsSafely (cfg : Config) (run : RunRecord) (x : LateWorker)
    (task : TaskRecord) (identity : WorkerIdentity) (head : String) (mr : Option MergeRequest)
    (hidentity : workerIdentity x.managed.board x.managed.cardId (some x.row) task = some identity) :
    ReclaimsSafely (recoverLateWorker cfg run x identity head mr) := by
  have p := passing_reclaimsSafely
  obtain ⟨-, hid⟩ := workerIdentity_card hidentity
  refine p.bind (p.watchdogTargetIsCurrent x) fun current => ?_
  split
  · exact p.pure _
  · intro h
    refine heeds_op_bind trivial (fun confirmed => ?_) fun _ => trivial
    split
    · exact p.leaseNotice cfg run x _ _
    · next hconfirmed =>
      obtain rfl : confirmed = true := by simpa using hconfirmed
      refine heeds_bind.mpr ((watchdogTargetIsCurrent_heeds hidentity
        (ConfirmedSince.start h identity)).mono fun r h₁ hsince => ?_)
      obtain ⟨since, hs, hreread⟩ := hsince
      cases r with
      | error e => trivial
      | ok current =>
        dsimp only
        split
        · exact p.leaseNotice cfg run x _ _
        · next hcurrent =>
          have hreread := hreread (by simpa using hcurrent)
          refine heeds_op_bind trivial (fun after => ?_) fun _ => trivial
          refine (hs.look rfl).bind (boundDeliveryMr_looks .watchdogAfter run)
            fun mrAfter h₂ es hs => ?_
          split
          · exact p.leaseNotice cfg run x _ _
          · split
            · refine p.exhaustedWorker (S := fun {α} q => ReclaimsSafelyAfter h₂ (α := α) q)
                (leads_reclaimsSafely h₂) cfg _ ?_
              rw [← hid]
              exact abortTask_heeds hs (.inr (hreread.append.append))
            · refine p.redispatchWorker (S := fun {α} q => ReclaimsSafelyAfter h₂ (α := α) q)
                (leads_reclaimsSafely h₂) cfg _ ?_ fun _ => reclaimsSafely_store _
              rw [← hid]
              exact reclaimAttempt_heeds hs hreread.append.append

theorem calling_reclaimsSafely : Calling (fun {α} (p : Service α) => ReclaimsSafely p) :=
  have p := passing_reclaimsSafely
  { closed_reclaimsSafely with
    op := fun o ho => by
      cases o with
      | hermes o => exact reclaimsSafely_hermes (by cases o <;> first | rfl | exact ho.elim)
      | store o => exact reclaimsSafely_store o
      | gitlab o => exact reclaimsSafely_gitlab o
      | host o => exact reclaimsSafely_host o
    running := p.running
    ended := fun _ _ _ _ => closed_reclaimsSafely.bind (reclaimsSafely_store _) fun _ =>
      reclaimsSafely_store _
    failure := p.failure
    recovery := p.recovery
    circuit := fun cfg =>
      bookkeeping_reclaimsSafely.recoverGitlabCircuit cfg (reclaimsSafely_gitlab _)
    requested := fun _ => reclaimsSafely_store _
    late := recoverLateWorker_reclaimsSafely }

/-- **Safe reclaim.** However the answers of Hermes and of the Supervisor change from read to
read, the watchdog, the processing of an abort and the whole periodic pass take a running card
from its worker only with the evidence of that very step. -/
theorem reclaims_evidenced (cfg : Config) (sweep : Sweep) :
    SafeReclaim (enqueueStaleWorkerNotices cfg sweep) ∧
      (∀ runKey, SafeReclaim (continueAbort cfg runKey)) ∧
        (∀ runKey, SafeReclaim (abortStep cfg sweep runKey)) ∧
          SafeReclaim (reconcileAll cfg sweep) :=
  have h := calling_reclaimsSafely
  ⟨(h.enqueueStaleWorkerNotices cfg sweep).safe,
    fun runKey => (h.passing.continueAbort cfg runKey).safe,
    fun runKey => (h.abortStep cfg sweep runKey).safe, (h.reconcileAll cfg sweep).safe⟩

end HollysysController
