import Mathlib.Data.List.TakeWhile
import HollysysController.Durable.During
import HollysysController.GateAuthors

/-! # What a finished run was judged on

A run ends in one of three verdicts. Each pass that reaches one has read the
newest completion and the test it is paired with from one history, and has seen
the delivery MR at the head of both gates when it closed the run. A newer test,
a newer review or a newer implementation would have been the one to judge. -/

namespace HollysysController

open Durable

/-! ## Verdicts -/

/-- The states in which the code flow ends. -/
def flowStates : List RunState := [.completedReady, .completedWithFindings, .completedTestFailed]

/-- A look at the delivery MR, or the end of the code flow. -/
inductive VerdictNote where
  | read (mr : MergeRequest)
  | marked (runKey : String) (state : RunState) (head : String)
  deriving DecidableEq, Repr

def VerdictNote.mr : VerdictNote → Option MergeRequest
  | .read mr => some mr
  | .marked _ _ _ => none

/-- The MR as it was read last. -/
def lastRead (notes : List VerdictNote) : Option MergeRequest :=
  (notes.filterMap VerdictNote.mr).getLast?

def verdictNote : (o : Op) → o.Ret → Option VerdictNote
  | .gitlab (.mr _ _ _), mr => some (.read mr)
  | .store (.markFlowCompleted runKey state head _), _ => some (.marked runKey state head)
  | _, _ => none

/-- The machine that notes how it sees the MR and which run it closes. -/
abbrev verdictMachine : Machine Op Op.Ret ControllerError (World × List VerdictNote) :=
  machine.noted verdictNote

/-- Everybody else may do anything but end the code flow of the run, so GitLab may answer
each read as it likes. Any step may fail, or be the last. -/
def verdictSetting (runKey : String) : Setting Op ControllerError World where
  others w w' := ∀ state ∈ flowStates, stateOf runKey w' = state → stateOf runKey w = state
  faults _ _ _ := True

abbrev judging (runKey : String) : Setting Op ControllerError (World × List VerdictNote) :=
  (verdictSetting runKey).noted VerdictNote

/-- The pass got this answer between the two moments. -/
abbrev Found (runKey : String) (s₀ s : World × List VerdictNote) {α : Type} (p : Service α)
    (a : α) : Prop :=
  During verdictMachine (judging runKey) s₀ s p a

/-- A done card of the gate whose completion says pass or fail. -/
def HistoryItem.Decides (i : HistoryItem) (s : Stage) (m : CompletionMetadata) : Prop :=
  i.managed.stage = .work s ∧ i.task.status = .done ∧
    validatePersistedCompletionMetadata i.task.latestMetadata = .ok m ∧
    (m.outcome = .pass ∨ m.outcome = .fail)

/-- No card decides the gate after this completion, and none implements after it. -/
def LatestVerdict (items : List HistoryItem) (s : Stage) (m : CompletionMetadata) : Prop :=
  ∃ pre i post, items = pre ++ i :: post ∧ i.Decides s m ∧
    ∀ j ∈ post, (∀ m', ¬ j.Decides s m') ∧
      ¬ (j.isWork = true ∧ j.atStage .implement = true)

/-- The completion of the newest work card of the history that the pass read, found valid. -/
structure Newest (cfg : Config) (runKey : String) (s₀ s : World × List VerdictNote)
    (run : RunRecord) (items : List HistoryItem) (latest : HistoryItem)
    (m : CompletionMetadata) : Prop where
  history : Found runKey s₀ s (history runKey) (items, run)
  last : (items.filter (·.isWork)).getLast? = some latest
  done : latest.task.status = .done
  validated : Found runKey s₀ s (validateCompletion cfg run items latest) m
  metadata : validatePersistedCompletionMetadata latest.task.latestMetadata = .ok m
  stage : latest.managed.stage = .work m.stage

/-- The run was marked at a head that the MR had when it was read last, no longer a draft. -/
def MarkedAtLiveHead (runKey : String) (state : RunState) (head : String)
    (notes : List VerdictNote) : Prop :=
  ∃ pre post mr, notes = pre ++ VerdictNote.marked runKey state head :: post ∧
    lastRead pre = some mr ∧ mr.head = head ∧ mr.draft = false

/-- What each verdict is based on. -/
inductive Verdict (cfg : Config) (runKey : String) (s₀ s : World × List VerdictNote) :
    RunState → Prop
  | ready {run items latest m test head} (newest : Newest cfg runKey s₀ s run items latest m)
      (review : m.stage = .codeReview) (reviewed : m.outcome = .pass)
      (paired : LatestVerdict items .test test) (tested : test.outcome = .pass)
      (delivery : sameDelivery test.toCompletionPayload m.toCompletionPayload = true)
      (atHead : m.headSha = some head) (live : MarkedAtLiveHead runKey .completedReady head s.2)
      (frozen : Found runKey s₀ s (frozenViolation cfg run items head) none) :
      Verdict cfg runKey s₀ s .completedReady
  | findings {run items latest m test n} (newest : Newest cfg runKey s₀ s run items latest m)
      (review : m.stage = .codeReview) (paired : LatestVerdict items .test test)
      (tested : test.outcome = .pass)
      (delivery : sameDelivery test.toCompletionPayload m.toCompletionPayload = true)
      (counted : Found runKey s₀ s (codeModificationCount items) n)
      (spent : cfg.codeModificationLimit ≤ n) :
      Verdict cfg runKey s₀ s .completedWithFindings
  | testFailed {run items latest m n} (newest : Newest cfg runKey s₀ s run items latest m)
      (test : m.stage = .test) (failed : m.outcome = .fail)
      (counted : Found runKey s₀ s (codeModificationCount items) n)
      (spent : cfg.codeModificationLimit ≤ n) :
      Verdict cfg runKey s₀ s .completedTestFailed

/-- The worlds that passes over the run and everybody else lead to. -/
inductive FlowRun (cfg : Config) (runKey : String) : World → Prop
  | start {w} (h : stateOf runKey w ∉ flowStates) : FlowRun cfg runKey w
  | others {w w'} (h : FlowRun cfg runKey w) (ho : (verdictSetting runKey).others w w') :
      FlowRun cfg runKey w'
  | pass {w w' r} (h : FlowRun cfg runKey w)
      (hpass : Runs machine (verdictSetting runKey) (reconcileWithPolicy cfg runKey) w r w') :
      FlowRun cfg runKey w'

/-- A pass of the run brought it into the state, on the evidence of its verdict. -/
def Judged (cfg : Config) (runKey : String) (state : RunState) : Prop :=
  ∃ w notes w' r, FlowRun cfg runKey w ∧ stateOf runKey w ≠ state ∧
    Runs verdictMachine (judging runKey) (reconcileWithPolicy cfg runKey) (w, []) r (w', notes) ∧
    stateOf runKey w' = state ∧ Verdict cfg runKey (w, []) (w', notes) state

/-! ## What is read from a history -/

theorem lastRead_read (notes : List VerdictNote) (mr : MergeRequest) :
    lastRead (notes ++ [VerdictNote.read mr]) = some mr := by
  simp [lastRead, VerdictNote.mr]

/-- The gate that is selected is the latest one. -/
theorem latestVerdict_of {items : List HistoryItem} {m : CompletionMetadata}
    (h : latestValidCompletion items .test [.pass, .fail] = some m) :
    LatestVerdict items .test m := by
  unfold latestValidCompletion at h
  obtain ⟨newer, i, older, hsplit, hi, hnewer⟩ := List.findSome?_eq_some_iff.mp h
  set producers : HistoryItem → Bool := fun i =>
    !(i.isWork && (producerForReview .test).any fun p => i.atStage p) with hproducers
  have hpre : newer ++ i :: older <+: items.reverse := by
    rw [← hsplit]
    exact List.takeWhile_prefix _
  obtain ⟨rest, hrest⟩ := hpre
  have hitems : items = (rest.reverse ++ older.reverse) ++ i :: newer.reverse := by
    have := congrArg List.reverse hrest
    simpa using this.symm
  refine ⟨_, i, _, hitems, ?_, fun j hj => ⟨fun m' hdecides => ?_, fun himplement => ?_⟩⟩
  · split at hi
    · next hat =>
      simp only [HistoryItem.atStage, Bool.and_eq_true, beq_iff_eq] at hat
      split at hi
      · next hm =>
        split at hi
        · next hout =>
          cases hi
          exact ⟨hat.1, hat.2, hm, by simpa using hout⟩
        · cases hi
      · cases hi
    · cases hi
  · have hnone := hnewer j (List.mem_reverse.mp hj)
    obtain ⟨hstage, hdone, hm, hout⟩ := hdecides
    simp [HistoryItem.atStage, hstage, hdone, hm, hout] at hnone
  · have hmem : j ∈ items.reverse.takeWhile producers := by
      rw [hsplit]
      exact List.mem_append_left _ (List.mem_reverse.mp hj)
    have hnot := List.mem_takeWhile_imp hmem
    simp [hproducers, producerForReview, himplement.1, himplement.2] at hnot

section Answers

variable {σ : Type} {M : Machine Op Op.Ret ControllerError σ} {E : Setting Op ControllerError σ}
variable {I : σ → Prop}

/-- A completion that is checked is of the stage of its card. -/
theorem checkIdentity_stage {run : RunRecord} {i : HistoryItem} {card : CardRecord}
    {m : CompletionPayload} (h : checkIdentity run i card m = .ok ()) :
    i.managed.stage = .work m.stage := by
  unfold checkIdentity at h
  split at h
  · next hnone =>
    have hstage := failedChecks_eq_nil.mp hnone (!i.atStage m.stage, "stage")
      (by simp [identityChecks])
    simpa [HistoryItem.atStage] using hstage
  · cases h

theorem validateCompletion_answers (hread : Reading fun {α} (p : Service α) => Keeps M E I p)
    (cfg : Config) (run : RunRecord) (items : List HistoryItem) (i : HistoryItem) :
    Answers M E I (validateCompletion cfg run items i) (fun m =>
      validatePersistedCompletionMetadata i.task.latestMetadata = .ok m ∧
        i.managed.stage = .work m.stage) := by
  have hkeep : ∀ m, Answers M E I (validateCompletionIdentity run i m)
      (fun _ => i.managed.stage = .work m.stage) := fun m => by
    refine (fromText_answers _).bind fun card _ => (fromText_answers _).bind fun u hcheck => ?_
    refine (Answers.of_keeps (hread.bind (hread.store _ rfl) fun binding => ?_)).mono
      fun _ _ => checkIdentity_stage hcheck
    refine hread.bind (hread.fromText _) fun _ => hread.bind ?_ fun _ =>
      hread.bind (hread.fromText _) fun _ => hread.fromText _
    unfold persistedChecks
    split
    · exact hread.pure _
    · exact hread.store _ rfl
  have hcontext : ∀ m, Answers M E I (validateCompletionContext .context run i m true)
      (fun _ => i.managed.stage = .work m.stage) := fun m => by
    refine (hkeep m).bind fun _ hstage => ?_
    refine (Answers.of_keeps (hread.bind (hread.fromText _) fun _ =>
      hread.bind (hread.boundDeliveryMr _ _) fun mr => ?_)).mono fun _ _ => hstage
    cases mr with
    | none => exact hread.pure _
    | some mr =>
      dsimp only
      split
      · exact hread.raise _
      · exact hread.pure _
  refine (Answers.of_keeps (hread.validateWorkerAttempt i)).bind fun _ _ =>
    (fromText_answers _).bind fun m hm => (hcontext m.toCompletionPayload).bind fun _ hstage =>
      (Answers.of_keeps (hread.fromText _)).bind fun _ _ =>
        (Answers.of_keeps (hread.validateSemanticGate _ _ _)).bind fun _ _ => .pure ⟨hm, hstage⟩

/-- A test that is paired is the latest one, of the delivery of its review. -/
theorem pairedTest_answers (hread : Reading fun {α} (p : Service α) => Keeps M E I p)
    (run : RunRecord) (items : List HistoryItem) (m : CompletionPayload) :
    Answers M E I (pairedTest run items m) (fun pairing => ∀ t, pairing.test = some t →
      LatestVerdict items .test t ∧ sameDelivery t.toCompletionPayload m = true) := by
  unfold pairedTest
  split
  · split
    · exact .pure fun t ht => by cases ht
    · next test htest =>
      split
      · exact .pure fun t ht => by cases ht
      · next hsame =>
        refine (Answers.of_keeps (hread.caught (hread.validateReviewedGate _ _ _))).bind
          fun r _ => ?_
        cases r with
        | error text => exact .pure fun t ht => by cases ht
        | ok u =>
          refine .pure fun t ht => ?_
          cases ht
          exact ⟨latestVerdict_of htest, by simpa using hsame⟩
  · exact .pure fun t ht => by cases ht

end Answers

/-! ## What a pass keeps -/

section Pass

variable {cfg : Config} {runKey : String} {s₀ s s' : World × List VerdictNote}
variable {run : RunRecord} {items : List HistoryItem} {latest : HistoryItem}
variable {m : CompletionMetadata} {state : RunState}

theorem Newest.mono (h : Newest cfg runKey s₀ s run items latest m)
    (hs : Evolves verdictMachine (judging runKey) s s') :
    Newest cfg runKey s₀ s' run items latest m :=
  { h with history := h.history.mono hs, validated := h.validated.mono hs }

theorem MarkedAtLiveHead.mono {notes notes' : List VerdictNote} {head : String}
    (h : MarkedAtLiveHead runKey state head notes) (hn : notes <+: notes') :
    MarkedAtLiveHead runKey state head notes' := by
  obtain ⟨pre, post, mr, rfl, hread⟩ := h
  obtain ⟨more, rfl⟩ := hn
  exact ⟨pre, post ++ more, mr, by simp, hread⟩

/-- What a verdict is based on stays so. -/
theorem Verdict.mono (h : Verdict cfg runKey s₀ s state)
    (hs : Evolves verdictMachine (judging runKey) s s') : Verdict cfg runKey s₀ s' state := by
  cases h with
  | ready newest review reviewed paired tested delivery atHead live frozen =>
    exact .ready (newest.mono hs) review reviewed paired tested delivery atHead
      (live.mono hs.notes) (frozen.mono hs)
  | findings newest review paired tested delivery counted spent =>
    exact .findings (newest.mono hs) review paired tested delivery (counted.mono hs) spent
  | testFailed newest test failed counted spent =>
    exact .testFailed (newest.mono hs) test failed (counted.mono hs) spent

/-- What holds of every moment `s` of a pass from `s₀` after the moment `b`. -/
structure Judging (cfg : Config) (runKey : String) (s₀ b s : World × List VerdictNote) :
    Prop where
  since : Evolves verdictMachine (judging runKey) b s
  ended : ∀ state ∈ flowStates, stateOf runKey s₀.1 ≠ state → stateOf runKey s.1 = state →
    Verdict cfg runKey s₀ s state

theorem Judging.goOn {b : World × List VerdictNote} (h : Judging cfg runKey s₀ b s) :
    Judging cfg runKey s₀ s s :=
  ⟨.refl, h.ended⟩

theorem Judging.weaken {b : World × List VerdictNote} (h : Judging cfg runKey s₀ s s')
    (hb : Judging cfg runKey s₀ b s) : Judging cfg runKey s₀ b s' :=
  ⟨hb.since.trans h.since, h.ended⟩

theorem Judging.others {b : World × List VerdictNote} (h : Judging cfg runKey s₀ b s)
    (ho : (judging runKey).others s s') : Judging cfg runKey s₀ b s' :=
  ⟨h.since.others ho, fun state hflow hnew hstate =>
    (h.ended state hflow hnew (ho.1 state hflow hstate)).mono (.single (.inl ho))⟩

/-- An operation that does not end the code flow. -/
theorem Judging.exec {b : World × List VerdictNote} (h : Judging cfg runKey s₀ b s) {o : Op}
    (ho : ∀ state ∈ flowStates, stateOf runKey (machine.exec o s.1).2 = state →
      stateOf runKey s.1 = state ∨ Verdict cfg runKey s₀ (verdictMachine.exec o s).2 state) :
    Judging cfg runKey s₀ b (verdictMachine.exec o s).2 := by
  refine ⟨h.since.exec o, fun state hflow hnew hstate => ?_⟩
  obtain ⟨notes, hx⟩ := exec_noted machine verdictNote o s
  rw [show (verdictMachine.exec o s).2.1 = (machine.exec o s.1).2 by rw [hx]] at hstate
  rcases ho state hflow hstate with hbefore | hverdict
  · exact (h.ended state hflow hnew hbefore).mono (.single (.inr ⟨o, rfl⟩))
  · exact hverdict

theorem judging_op {b : World × List VerdictNote} {o : Op}
    (ho : ∀ w, ∀ state ∈ flowStates, stateOf runKey (machine.exec o w).2 = state →
      stateOf runKey w = state) :
    Keeps verdictMachine (judging runKey) (Judging cfg runKey s₀ b) (Prog.op o : Service o.Ret) :=
  keeps_op (fun _ _ h hothers => h.others hothers) fun s h =>
    h.exec fun state hflow hstate => .inl (ho s.1 state hflow hstate)

theorem flowStates_foreign (hflow : state ∈ flowStates) : state ∉ bodyStates := by
  revert state
  decide

theorem flowStates_terminal (hflow : state ∈ flowStates) : state.isTerminal = true := by
  revert state
  decide

/-- Whatever a pass does but the end of the code flow ends in no verdict of its own. -/
theorem passing_judging {b : World × List VerdictNote} : Passing (fun {α} (p : Service α) =>
    Keeps verdictMachine (judging runKey) (Judging cfg runKey s₀ b) p) :=
  passing_of_ops closed_keeps
    (fun o ho => judging_op fun w state hflow hstate =>
      exec_avoids (flowStates_foreign hflow) ho w.now w.store runKey hstate)
    (fun t ht => judging_op fun w state hflow hstate => by
      refine (transitionRun_avoids (fun hnew => ?_) w.now).commit w.store runKey hstate
      have hlive := ht.unended
      rw [hnew, flowStates_terminal hflow] at hlive
      cases hlive)
    (fun o => judging_op fun w state _ hstate => hstate)
    (fun o => judging_op fun w state _ hstate => hstate)
    fun o => judging_op fun w state _ hstate => by rwa [exec_host] at hstate

/-- The end of the code flow, when the verdict it notes has its grounds. -/
theorem markFlowCompleted_judging {b : World × List VerdictNote} {key head reason : String}
    (hs : Judging cfg runKey s₀ b s)
    (hverdict : key = runKey → ∀ s₁, Evolves verdictMachine (judging runKey) s s₁ →
      s₁.2 = s.2 ++ [VerdictNote.marked key state head] → Verdict cfg runKey s₀ s₁ state) :
    Ensures verdictMachine (judging runKey) (Judging cfg runKey s₀ b)
      (store (.markFlowCompleted key state head reason)) (fun _ _ => True) s := by
  refine .op (fun _ ho => hs.others ho) (fun s₁ ho => ?_) fun _ _ _ _ _ => trivial
  have hnotes : s₁.2 = s.2 := ho.2
  refine (hs.others ho).exec fun ended _ hended => ?_
  by_cases hstate : state = ended
  · by_cases hkey : key = runKey
    · rcases hx : machine.exec (.store (.markFlowCompleted key state head reason)) s₁.1
        with ⟨r, w'⟩
      cases r with
      | error e =>
        left
        rwa [stateOf, exec_store, StoreOp.exec, commit_error (congrArg Prod.fst hx)] at hended
      | ok control =>
        have hnoted : (verdictMachine.exec (.store (.markFlowCompleted key state head reason)) s₁).2
            = (w', s₁.2 ++ [VerdictNote.marked key state head]) := by
          simp only [Machine.noted, hx]
          rfl
        refine .inr ?_
        rw [← hstate]
        refine hverdict hkey _ ((Evolves.others .refl ho).exec _) ?_
        rw [hnoted, hnotes]
    · left
      rwa [stateOf, exec_store, markFlowCompleted_other hkey] at hended
  · exact .inl ((markFlowCompleted_avoids hstate key head reason s₁.1.now).commit s₁.1.store
      runKey hended)

/-- A delivery MR that was read is the one that was read last. -/
theorem deliveryMr_read {b : World × List VerdictNote} (site : ReadSite) (iid : Option Nat)
    (hs : Judging cfg runKey s₀ b s) :
    Ensures verdictMachine (judging runKey) (Judging cfg runKey s₀ b) (deliveryMr site run iid)
      (fun mr s' => lastRead s'.2 = some mr) s := by
  cases iid with
  | none => exact .raise hs
  | some iid =>
    have hread : Ensures verdictMachine (judging runKey) (Judging cfg runKey s₀ b)
        (gitlab (.mr site run iid)) (fun mr s' => lastRead s'.2 = some mr) s := by
      refine .op (fun _ ho => hs.others ho) (fun s₁ ho => (hs.others ho).exec fun _ _ => .inl)
        fun s₁ mr s₂ _ hx => ?_
      rw [(noted_ok hx).2]
      exact lastRead_read _ _
    refine .bind hread fun mr s₁ hs₁ hmr => ?_
    split
    · exact .raise hs₁
    · exact .pure hs₁ hmr

/-- The MR was ready and at the head when it was read last. -/
def LiveAt (head : String) (s : World × List VerdictNote) : Prop :=
  ∃ mr, lastRead s.2 = some mr ∧ mr.head = head ∧ mr.draft = false

theorem confirmReady_live {b : World × List VerdictNote} {iid : Nat} {head : String}
    (hs : Judging cfg runKey s₀ b s) :
    Ensures verdictMachine (judging runKey) (Judging cfg runKey s₀ b) (confirmReady run iid head)
      (fun _ s' => LiveAt head s') s := by
  have h : Passing (fun {α} (p : Service α) =>
      Keeps verdictMachine (judging runKey) (Judging cfg runKey s₀ b) p) := passing_judging
  refine .bind (Answers.of_keeps (h.store _ rfl) s hs) fun binding s₁ hs₁ _ => ?_
  cases binding with
  | none => exact .raise hs₁
  | some binding =>
    dsimp only
    split
    · exact .raise hs₁
    · refine .bind (Answers.of_keeps (h.markDeliveryReadyAtHead _ _ _) s₁ hs₁) fun _ s₂ hs₂ _ => ?_
      refine .bind (deliveryMr_read .terminalVerify (some iid) hs₂) fun mr s₃ hs₃ hmr => ?_
      split
      · exact .raise hs₃
      · next hlive =>
        simp only [not_or, not_not, Bool.not_eq_true] at hlive
        exact .pure hs₃ ⟨mr, hmr, hlive.1, hlive.2⟩

/-- A state that needs two gates is about a passed test. -/
theorem terminalGates_tested {p test : CompletionPayload} {review : Option CompletionPayload}
    {paired : Option CompletionMetadata} (hstate : state ≠ .completedTestFailed)
    (h : terminalGates state p paired = .ok (test, review)) :
    ∃ t, paired = some t ∧ t.toCompletionPayload = test ∧ test.outcome = .pass := by
  unfold terminalGates at h
  rw [if_neg hstate] at h
  split at h
  · next t =>
    split at h
    · cases h
    · next hcond =>
      cases h
      exact ⟨t, rfl, rfl, not_not.mp (not_or.mp hcond).2⟩
  · cases h

/-- Two gates of one delivery are closed at the head of the review. -/
theorem terminalDelivery_head {p test : CompletionPayload} {iid : Nat} {head : String}
    (hsame : sameDelivery test p = true) (h : terminalDelivery p test = .ok (iid, head)) :
    p.headSha = some head := by
  have hheads : test.headSha = p.headSha := by
    simp only [sameDelivery, Bool.and_eq_true, beq_iff_eq] at hsame
    exact hsame.2
  unfold terminalDelivery at h
  rw [hheads] at h
  dsimp only at h
  split at h
  · cases h
  · split at h
    · cases h
    · next hne =>
      cases h
      cases hp : p.headSha with
      | none => simp [hp] at hne
      | some head =>
        by_cases hempty : head = ""
        · simp [hp, hempty, Option.filter] at hne
        · simp [hempty, Option.filter]

/-- The verdict that the route leads to, on the evidence the pass has gathered. -/
structure Grounds (cfg : Config) (runKey : String) (s₀ s : World × List VerdictNote)
    (run : RunRecord) (items : List HistoryItem) (latest : HistoryItem) (m : CompletionMetadata)
    (paired : Option CompletionMetadata) (n : Nat) : Prop where
  newest : Newest cfg runKey s₀ s run items latest m
  counted : Found runKey s₀ s (codeModificationCount items) n
  paired : ∀ t, paired = some t → LatestVerdict items .test t ∧
    sameDelivery t.toCompletionPayload m.toCompletionPayload = true

theorem Grounds.mono {paired : Option CompletionMetadata} {n : Nat}
    (h : Grounds cfg runKey s₀ s run items latest m paired n)
    (hs : Evolves verdictMachine (judging runKey) s s') :
    Grounds cfg runKey s₀ s' run items latest m paired n :=
  ⟨h.newest.mono hs, h.counted.mono hs, h.paired⟩

/-- The end of the code flow that a route leads to has its verdict. -/
theorem Grounds.verdict {paired : Option CompletionMetadata} {n reviewAttempt iid : Nat}
    {test : CompletionPayload} {review : Option CompletionPayload} {head : String}
    (h : Grounds cfg runKey s₀ s run items latest m paired n)
    (hroute : routeCompletion cfg m.toCompletionPayload reviewAttempt
      (paired.map (·.toCompletionPayload)) n = .terminal state)
    (hgates : terminalGates state m.toCompletionPayload paired = .ok (test, review))
    (hdelivery : terminalDelivery m.toCompletionPayload test = .ok (iid, head))
    (hfrozen : Found runKey s₀ s (frozenViolation cfg run items head) none)
    (hlive : readyRequired state = true → MarkedAtLiveHead runKey state head s.2) :
    Verdict cfg runKey s₀ s state := by
  rcases routeCompletion_terminal hroute with ⟨rfl, hstage, hpass, -⟩ |
    ⟨rfl, hstage, hspent, -⟩ | ⟨rfl, hstage, hfail, hspent⟩
  · obtain ⟨t, ht, rfl, htested⟩ := terminalGates_tested (by simp) hgates
    obtain ⟨hlatest, hsame⟩ := h.paired t ht
    exact .ready h.newest hstage hpass hlatest htested hsame
      (terminalDelivery_head hsame hdelivery) (hlive rfl) hfrozen
  · obtain ⟨t, ht, rfl, htested⟩ := terminalGates_tested (by simp) hgates
    obtain ⟨hlatest, hsame⟩ := h.paired t ht
    exact .findings h.newest hstage hlatest htested hsame h.counted hspent
  · exact .testFailed h.newest hstage hfail h.counted hspent

/-! ## A pass -/

theorem finalizeCodeFlow_judging {b : World × List VerdictNote}
    {paired : Option CompletionMetadata} {n reviewAttempt : Nat}
    (hroute : routeCompletion cfg m.toCompletionPayload reviewAttempt
      (paired.map (·.toCompletionPayload)) n = .terminal state)
    (h₀ : Evolves verdictMachine (judging runKey) s₀ s)
    (hgrounds : Grounds cfg runKey s₀ s run items latest m paired n)
    (hs : Judging cfg runKey s₀ b s) :
    Ensures verdictMachine (judging runKey) (Judging cfg runKey s₀ b)
      (finalizeCodeFlow cfg run items latest m.toCompletionPayload state paired n)
      (fun _ _ => True) s := by
  have h : Passing (fun {α} (p : Service α) =>
      Keeps verdictMachine (judging runKey) (Judging cfg runKey s₀ b) p) := passing_judging
  refine .bind_run (fromText_answers _ s hs) fun gates s₁ hrun₁ hs₁ hgates => ?_
  obtain ⟨test, review⟩ := gates
  refine .bind_run (fromText_answers _ s₁ hs₁) fun delivery s₂ hrun₂ hs₂ hdelivery => ?_
  obtain ⟨iid, head⟩ := delivery
  refine .bind_run (Answers.of_keeps (h.reading.deliveryMr _ _ _) s₂ hs₂)
    fun mr s₃ hrun₃ hs₃ _ => ?_
  have hevolved := (hrun₁.evolves.trans hrun₂.evolves).trans hrun₃.evolves
  dsimp only
  split
  · exact Answers.of_keeps (h.restartAtTest _ _ _) s₃ hs₃
  · refine .bind_run (Answers.of_keeps (h.reading.frozenViolation _ _ _ _) s₃ hs₃)
      fun violation s₄ hrun₄ hs₄ _ => ?_
    have hfound := hrun₄.during (h₀.trans hevolved)
    cases violation with
    | some violation =>
      exact Answers.of_keeps (h.bind (h.exception _ _ _ _) fun _ => h.pure _) s₄ hs₄
    | none =>
      have hevolved₄ := hevolved.trans hrun₄.evolves
      -- the mark, from a moment at which the MR was seen ready if it has to be
      have hend : ∀ s₅, Evolves verdictMachine (judging runKey) s₄ s₅ →
          Judging cfg runKey s₀ b s₅ → (readyRequired state = true → LiveAt head s₅) →
          Ensures verdictMachine (judging runKey) (Judging cfg runKey s₀ b) (do
            let _ ← store (.markFlowCompleted run.runKey state head
              (terminalReason cfg state head test review n (readyRequired state)))
            let testHead := test.headSha.getD "None"
            enqueueProgress cfg run s!"code:terminal:{state.value}:{testHead}" true :
              Service Unit) (fun _ _ => True) s₅ := fun s₅ hev₅ hs₅ hlive => by
        refine .bind (markFlowCompleted_judging hs₅ fun hkey s₆ hev₆ hnotes => ?_)
          fun _ s₆ hs₆ _ => Answers.of_keeps (h.plain.enqueueProgress _ _ _ _) s₆ hs₆
        have hev := hev₅.trans hev₆
        refine (hgrounds.mono (hevolved₄.trans hev)).verdict hroute hgates hdelivery
          (hfound.mono hev) fun hready => ?_
        obtain ⟨mr, hmr, hhead, hdraft⟩ := hlive hready
        exact ⟨s₅.2, [], mr, by rw [hnotes, hkey], hmr, hhead, hdraft⟩
      dsimp only
      split
      · refine .bind_run (confirmReady_live hs₄) fun _ s₅ hrun₅ hs₅ hlive => ?_
        exact hend s₅ hrun₅.evolves hs₅ fun _ => hlive
      · next hready => exact hend s₄ .refl hs₄ fun h => absurd h hready

theorem followRoute_judging {b : World × List VerdictNote} {paired : Option CompletionMetadata}
    {n : Nat} (h₀ : Evolves verdictMachine (judging runKey) s₀ s)
    (hgrounds : Grounds cfg runKey s₀ s run items latest m paired n)
    (hs : Judging cfg runKey s₀ b s) :
    Ensures verdictMachine (judging runKey) (Judging cfg runKey s₀ b)
      (followRoute cfg run items latest m.toCompletionPayload paired n) (fun _ _ => True) s := by
  have h : Passing (fun {α} (p : Service α) =>
      Keeps verdictMachine (judging runKey) (Judging cfg runKey s₀ b) p) := passing_judging
  unfold followRoute
  split
  · next state hroute => exact finalizeCodeFlow_judging hroute h₀ hgrounds hs
  · exact Answers.of_keeps (h.bind (h.exception _ _ _ _) fun _ => h.pure _) s hs
  · exact Answers.of_keeps (h.dispatchNext _ _ _ _ _ _ _ _ _) s hs
  · exact .pure hs trivial

theorem acceptCompletion_judging {b : World × List VerdictNote}
    (h₀ : Evolves verdictMachine (judging runKey) s₀ s)
    (hnewest : Newest cfg runKey s₀ s run items latest m) (hs : Judging cfg runKey s₀ b s) :
    Ensures verdictMachine (judging runKey) (Judging cfg runKey s₀ b)
      (acceptCompletion cfg run items latest m.toCompletionPayload) (fun _ _ => True) s := by
  have h : Passing (fun {α} (p : Service α) =>
      Keeps verdictMachine (judging runKey) (Judging cfg runKey s₀ b) p) := passing_judging
  refine .bind_run (Answers.of_keeps (h.reading.assertReconcileMutable _) s hs)
    fun _ s₁ hrun₁ hs₁ _ => ?_
  refine .bind_run (Answers.of_keeps (h.store _ rfl) s₁ hs₁) fun _ s₂ hrun₂ hs₂ _ => ?_
  refine .bind_run (Answers.of_keeps (h.enqueueAgentNotice _ _ _ _) s₂ hs₂)
    fun _ s₃ hrun₃ hs₃ _ => ?_
  have hev₃ := (hrun₁.evolves.trans hrun₂.evolves).trans hrun₃.evolves
  refine .bind_run (Answers.of_keeps (h.reading.codeModificationCount _) s₃ hs₃)
    fun n s₄ hrun₄ hs₄ _ => ?_
  have hcounted := hrun₄.during (h₀.trans hev₃)
  refine .bind_run (pairedTest_answers h.reading run items m.toCompletionPayload s₄ hs₄)
    fun pairing s₅ hrun₅ hs₅ hpair => ?_
  have hev := (hev₃.trans hrun₄.evolves).trans hrun₅.evolves
  have hfollow : Ensures verdictMachine (judging runKey) (Judging cfg runKey s₀ b)
      (followRoute cfg run items latest m.toCompletionPayload pairing.test n)
      (fun _ _ => True) s₅ :=
    followRoute_judging (h₀.trans hev)
      ⟨hnewest.mono hev, hcounted.mono hrun₅.evolves, hpair⟩ hs₅
  cases pairing with
  | missing => exact Answers.of_keeps (h.restartAtTest _ _ _) s₅ hs₅
  | notNeeded => exact hfollow
  | found test => exact hfollow

theorem reconcileCompletion_judging {b : World × List VerdictNote}
    (h₀ : Evolves verdictMachine (judging runKey) s₀ s)
    (hhistory : Found runKey s₀ s (history runKey) (items, run))
    (hlast : (items.filter (·.isWork)).getLast? = some latest)
    (hdone : latest.task.status = .done) (hs : Judging cfg runKey s₀ b s) :
    Ensures verdictMachine (judging runKey) (Judging cfg runKey s₀ b)
      (reconcileCompletion cfg run items latest) (fun _ _ => True) s := by
  have h : Passing (fun {α} (p : Service α) =>
      Keeps verdictMachine (judging runKey) (Judging cfg runKey s₀ b) p) := passing_judging
  have hvalidate : Ensures verdictMachine (judging runKey) (Judging cfg runKey s₀ b)
      (validateCompletion cfg run items latest)
      (fun m s' => Newest cfg runKey s₀ s' run items latest m) s := by
    refine wp_of_runs fun r s' hrun => ?_
    obtain ⟨hs', hanswer⟩ := (validateCompletion_answers h.reading cfg run items latest s hs).runs
      hrun
    refine ⟨hs', fun m hm => ?_⟩
    subst hm
    obtain ⟨hmeta, hstage⟩ := hanswer m rfl
    exact ⟨hhistory.mono hrun.evolves, hlast, hdone, hrun.during h₀, hmeta, hstage⟩
  refine .bind_run (ensures_caught hvalidate) fun r s₁ hrun₁ hs₁ hr => ?_
  cases r with
  | error text => exact Answers.of_keeps (h.protocolFailure _ _ _ _ _) s₁ hs₁
  | ok m =>
    have hnewest := hr m rfl
    refine .bind_run (Answers.of_keeps (h.reading.caught (h.reading.authoringCheck _ _)) s₁ hs₁)
      fun r s₂ hrun₂ hs₂ _ => ?_
    cases r with
    | error text => exact Answers.of_keeps (h.protocolFailure _ _ _ _ _) s₂ hs₂
    | ok u =>
      refine .bind_run (Answers.of_keeps (h.reading.caught (h.reading.gateCheck _ _)) s₂ hs₂)
        fun r s₃ hrun₃ hs₃ _ => ?_
      cases r with
      | error text => exact Answers.of_keeps (h.gateFailure _ _ _ _ _ _) s₃ hs₃
      | ok u =>
        refine .bind_run (Answers.of_keeps (h.reading.caught
          (h.reading.finalizationCheck run m.toCompletionPayload)) s₃ hs₃)
          fun r s₄ hrun₄ hs₄ _ => ?_
        cases r with
        | error text => exact Answers.of_keeps (h.protocolFailure _ _ _ _ _) s₄ hs₄
        | ok u =>
          refine .bind_run (Answers.of_keeps (h.liveCheck cfg run items latest
            m.toCompletionPayload) s₄ hs₄) fun live s₅ hrun₅ hs₅ _ => ?_
          have hev := ((hrun₂.evolves.trans hrun₃.evolves).trans hrun₄.evolves).trans
            hrun₅.evolves
          split
          · exact acceptCompletion_judging ((h₀.trans hrun₁.evolves).trans hev)
              (hnewest.mono hev) hs₅
          · exact .pure hs₅ trivial

/-- A pass that ends the code flow has the grounds of its verdict. -/
theorem reconcileRun_judging (hs : Judging cfg runKey s₀ s₀ s) :
    wp verdictMachine (judging runKey) (reconcileRun cfg runKey)
      (fun _ s' => Judging cfg runKey s₀ s₀ s') s := by
  have h : ∀ b, Passing (fun {α} (p : Service α) =>
      Keeps verdictMachine (judging runKey) (Judging cfg runKey s₀ b) p) := fun _ =>
    passing_judging
  refine (h s₀).reconcileRun cfg runKey (Answers.keeps (A := fun _ => True) fun s hs => ?_) s hs
  refine .bind_run (Answers.of_keeps ((h s₀).reading.history runKey) s hs)
    fun read s₁ hrun₁ hs₁ _ => ?_
  obtain ⟨items, run⟩ := read
  have hhistory : Found runKey s₀ s₁ (history runKey) (items, run) := hrun₁.during hs.since
  -- from here on the moments are those after the history was read
  refine wp_mono (fun _ _ ht => ⟨ht.1.weaken hs₁, ht.2⟩)
    (Answers.of_keeps ((h s₁).reconcileRead cfg runKey run items ((h s₁).reconcileCards cfg run
      items fun latest hlast hdone => Answers.keeps (A := fun _ => True) fun t ht => ?_))
      s₁ hs₁.goOn)
  exact reconcileCompletion_judging (hs₁.since.trans ht.since) (hhistory.mono ht.since) hlast
    hdone ht

theorem reconcileWithPolicy_judging (hs : Judging cfg runKey s₀ s₀ s) :
    wp verdictMachine (judging runKey) (reconcileWithPolicy cfg runKey)
      (fun _ s' => Judging cfg runKey s₀ s₀ s') s :=
  (passing_judging (b := s₀)).reconcileWithPolicy cfg runKey
    (fun _ hs => reconcileRun_judging hs) s hs

end Pass

/-- The world after an undisturbed pass over the reviewed run. -/
def judgedWorld : World :=
  (machine.eval (reconcileWithPolicy sampleConfig "run-a") (reviewedWorld reviewer)).2

theorem judgedWorld_ready : stateOf "run-a" judgedWorld = .completedReady := by decide +kernel

end HollysysController
