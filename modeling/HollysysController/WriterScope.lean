import HollysysController.ArtifactScope
import HollysysController.GateAuthors

/-! # What a writer may change

A completion is judged by reads alone, and what follows from the judgement is
written after it. The judgement of an authoring pass compares commits only for a
finalization, and then up to the commit of the artifact. -/

namespace HollysysController

open Durable

/-! ## Judging a completion -/

/-- What the checks of a completion come to. -/
inductive Judgement where
  | protocolFailed (reason : String)
  | gateFailed (m : CompletionMetadata) (reason : String)
  | frozenViolated (m : CompletionMetadata) (head violation : String)
  | artifactMoved (m : CompletionMetadata) (head reason : String)
  | accepted (m : CompletionMetadata)

/-- The part of the judgement at the live MR head. -/
def judgeLive (cfg : Config) (run : RunRecord) (items : List HistoryItem)
    (m : CompletionMetadata) : Service Judgement := do
  let mr ← deliveryMr .live run m.mrIid
  if mr.head = "" then pure (.accepted m)
  else
    match ← frozenViolation cfg run items mr.head with
    | some violation => pure (.frozenViolated m mr.head violation)
    | none =>
      match ← caught (artifactGate run m.toCompletionPayload mr.head) with
      | .ok _ => pure (.accepted m)
      | .error reason => pure (.artifactMoved m mr.head reason)

def judge (cfg : Config) (run : RunRecord) (items : List HistoryItem) (latest : HistoryItem) :
    Service Judgement := do
  match ← caught (validateCompletion cfg run items latest) with
  | .error reason => pure (.protocolFailed reason)
  | .ok m =>
    match ← caught (authoringCheck run m.toCompletionPayload) with
    | .error reason => pure (.protocolFailed reason)
    | .ok _ =>
      match ← caught (gateCheck run m.toCompletionPayload) with
      | .error reason => pure (.gateFailed m reason)
      | .ok _ =>
        match ← caught (finalizationCheck run m.toCompletionPayload) with
        | .error reason => pure (.protocolFailed reason)
        | .ok _ => judgeLive cfg run items m

/-- What is done about a judgement. -/
def settleJudgement (cfg : Config) (run : RunRecord) (items : List HistoryItem)
    (latest : HistoryItem) : Judgement → Service Unit
  | .protocolFailed reason => protocolFailure cfg run items latest reason
  | .gateFailed m reason => gateFailure cfg run items latest m.toCompletionPayload reason
  | .frozenViolated m head violation => do
    rejectAgentCompletion cfg run latest violation m.mrIid (some head)
    createFrozenRepair cfg run items (phaseForStage m.stage) latest.task.id violation m.mode
  | .artifactMoved m head reason => do
    rejectAgentCompletion cfg run latest reason m.mrIid (some head)
    if m.stage.isDocumentReview then
      createReviewRepair cfg run items m.toCompletionPayload latest.task.id [reason]
    else
      createFrozenRepair cfg run items (phaseForStage m.stage) latest.task.id reason .finalization
  | .accepted m => acceptCompletion cfg run items latest m.toCompletionPayload

section Judge

variable {cfg : Config} {run : RunRecord} {items : List HistoryItem} {latest : HistoryItem}
variable {m : CompletionMetadata} {w w' : World}

/-- What answers `false` at its end accepts nothing. -/
theorem bind_rejected (p q : Service Unit) :
    ((p.bind fun _ => pure false).bind fun accepted => if accepted then q else pure ()) = p := by
  rw [Prog.bind_assoc]
  show (p.bind fun _ => Prog.pure ()) = p
  induction p with
  | pure u => rfl
  | raise e => rfl
  | perform o k ih => exact congrArg (Prog.perform o) (funext ih)

theorem liveCheck_judges :
    ((liveCheck cfg run items latest m.toCompletionPayload).bind fun accepted =>
      if accepted then acceptCompletion cfg run items latest m.toCompletionPayload
      else pure ()) =
    (judgeLive cfg run items m).bind (settleJudgement cfg run items latest) := by
  unfold liveCheck judgeLive
  simp only [Prog.bind_def, Prog.bind_assoc]
  refine congrArg (Prog.bind _) (funext fun mr => ?_)
  split
  · rfl
  · simp only [Prog.bind_assoc]
    refine congrArg (Prog.bind _) (funext fun violation => ?_)
    cases violation with
    | some violation =>
      dsimp only
      rw [← Prog.bind_assoc, bind_rejected]
      rfl
    | none =>
      simp only [Prog.bind_assoc]
      refine congrArg (Prog.bind _) (funext fun r => ?_)
      cases r with
      | ok u => rfl
      | error reason =>
        show _ = settleJudgement cfg run items latest (.artifactMoved m mr.head reason)
        dsimp only [settleJudgement]
        split
        · rw [← Prog.bind_assoc, bind_rejected]
          rfl
        · rw [← Prog.bind_assoc, bind_rejected]
          rfl

/-- **A completion is judged, and then the judgement is settled.** -/
theorem reconcileCompletion_judges :
    reconcileCompletion cfg run items latest =
      (judge cfg run items latest).bind (settleJudgement cfg run items latest) := by
  unfold reconcileCompletion judge
  simp only [Prog.bind_def, Prog.bind_assoc]
  refine congrArg (Prog.bind _) (funext fun r => ?_)
  cases r with
  | error reason => rfl
  | ok m =>
    simp only [Prog.bind_assoc]
    refine congrArg (Prog.bind _) (funext fun r => ?_)
    cases r with
    | error reason => rfl
    | ok u =>
      simp only [Prog.bind_assoc]
      refine congrArg (Prog.bind _) (funext fun r => ?_)
      cases r with
      | error reason => rfl
      | ok u =>
        simp only [Prog.bind_assoc]
        refine congrArg (Prog.bind _) (funext fun r => ?_)
        cases r with
        | error reason => rfl
        | ok u => exact liveCheck_judges

end Judge

/-! ## Worlds over a repository -/

/-- The documents are checked against a repository. -/
def GitLab.over (g : GitLab) (sha256 : String → String) (repo : Repository) : GitLab :=
  { g with
    check := fun c => match c with
      | .artifactCompletion run m =>
        (repo.validateArtifactCompletion sha256 run m).map fun _ => ""
      | c => g.check c }

def World.over (w : World) (cfg : Config) (repo : Repository) : World :=
  { w with gitlab := w.gitlab.over cfg.sha256 repo }

section Reads

variable {α β : Type} {w w' : World}

/-- A sequence that starts with a read answers when the read does, in the same world. -/
theorem eval_read_bind {p : Service α} {f : α → Service β} {b : β}
    (hp : (machine.eval p w).2 = w) :
    machine.eval (p.bind f) w = (.returned b, w') ↔
      ∃ a, machine.eval p w = (.returned a, w) ∧
        machine.eval (f a) w = (.returned b, w') := by
  rw [machine.eval_bind_returned]
  constructor
  · rintro ⟨a, w₁, ha, hf⟩
    obtain rfl : w₁ = w := by rw [← hp, ha]
    exact ⟨a, ha, hf⟩
  · rintro ⟨a, ha, hf⟩
    exact ⟨a, w, ha, hf⟩

theorem eval_fromText {r : Except String α} {a : α}
    (h : machine.eval (fromText r) w = (.returned a, w')) : r = .ok a := by
  cases r with
  | error t => cases h
  | ok b =>
    cases h
    rfl

theorem eval_caught {p : Service α} {a : α}
    (h : machine.eval (caught p) w = (.returned (.ok a), w')) : machine.eval p w = (.returned a, w') := by
  obtain ⟨r, w₁, hr, h⟩ := machine.eval_bind_returned.mp h
  cases r with
  | ok b =>
    cases h
    exact machine.eval_attempt_ok.mp hr
  | error e =>
    dsimp only at h
    split at h <;> cases h

end Reads

section Passes

variable {cfg : Config} {run : RunRecord} {items : List HistoryItem} {latest : HistoryItem}
variable {m : CompletionMetadata} {w w' : World}

/-- Every check of the completion passes. -/
structure Passes (cfg : Config) (run : RunRecord) (items : List HistoryItem)
    (latest : HistoryItem) (m : CompletionMetadata) (w : World) : Prop where
  completion : machine.eval (caught (validateCompletion cfg run items latest)) w =
    (.returned (.ok m), w)
  authoring : machine.eval (caught (authoringCheck run m.toCompletionPayload)) w =
    (.returned (.ok ()), w)
  gate : machine.eval (caught (gateCheck run m.toCompletionPayload)) w = (.returned (.ok ()), w)
  finalization : machine.eval (caught (finalizationCheck run m.toCompletionPayload)) w =
    (.returned (.ok ()), w)
  live : machine.eval (judgeLive cfg run items m) w = (.returned (.accepted m), w)

theorem Looking.judgeLive {K : ∀ {α : Type}, Service α → Prop} (h : Looking K) :
    K (judgeLive cfg run items m) := by
  refine h.bind (h.deliveryMr _ _ _) fun mr => ?_
  split
  · exact h.pure _
  · refine h.bind (h.frozenViolation _ _ _ _) fun violation => ?_
    cases violation with
    | some violation => exact h.pure _
    | none =>
      refine h.bind (h.caught (h.artifactGate _ _ _)) fun r => ?_
      cases r <;> exact h.pure _

theorem Reading.judge {K : ∀ {α : Type}, Service α → Prop} (h : Reading K) :
    K (judge cfg run items latest) := by
  refine h.bind (h.caught (h.validateCompletion _ _ _ _)) fun r => ?_
  cases r with
  | error reason => exact h.pure _
  | ok m =>
    refine h.bind (h.caught (h.authoringCheck _ _)) fun r => ?_
    cases r with
    | error reason => exact h.pure _
    | ok u =>
      refine h.bind (h.caught (h.gateCheck _ _)) fun r => ?_
      cases r with
      | error reason => exact h.pure _
      | ok u =>
        refine h.bind (h.caught (h.finalizationCheck _ _)) fun r => ?_
        cases r with
        | error reason => exact h.pure _
        | ok u => exact h.judgeLive

/-- The live judgement accepts the completion it is about. -/
theorem judgeLive_accepted {n : CompletionMetadata}
    (h : machine.eval (judgeLive cfg run items m) w = (.returned (.accepted n), w')) : n = m := by
  obtain ⟨mr, w₁, -, h⟩ := machine.eval_bind_returned.mp h
  split at h
  · cases h
    rfl
  · obtain ⟨violation, w₂, -, h⟩ := machine.eval_bind_returned.mp h
    cases violation with
    | some violation => cases h
    | none =>
      obtain ⟨r, w₃, -, h⟩ := machine.eval_bind_returned.mp h
      cases r with
      | error reason => cases h
      | ok u =>
        cases h
        rfl

/-- A completion is judged accepted when every check of it passes. -/
theorem judge_accepted :
    machine.eval (judge cfg run items latest) w = (.returned (.accepted m), w') ↔
      Passes cfg run items latest m w ∧ w' = w := by
  have hread := reading_keeps (· = w)
  have hlook := hread.toLooking
  unfold judge
  simp only [Prog.bind_def]
  rw [eval_read_bind (hlook.caught (hlook.validateCompletion cfg run items latest) w rfl)]
  constructor
  · rintro ⟨r, hcompletion, h⟩
    cases r with
    | error reason => cases h
    | ok m' =>
      obtain ⟨r, hauthoring, h⟩ :=
        (eval_read_bind (hlook.caught (hlook.authoringCheck run _) w rfl)).mp h
      cases r with
      | error reason => cases h
      | ok u =>
        obtain ⟨r, hgate, h⟩ :=
          (eval_read_bind (hlook.caught (hread.gateCheck run _) w rfl)).mp h
        cases r with
        | error reason => cases h
        | ok u =>
          obtain ⟨r, hfinal, h⟩ :=
            (eval_read_bind (hlook.caught (hread.finalizationCheck run _) w rfl)).mp h
          cases r with
          | error reason => cases h
          | ok u =>
            obtain rfl := judgeLive_accepted h
            have hsame : w' = w := by
              have : (machine.eval (judgeLive cfg run items m) w).2 = w := hlook.judgeLive (m := m) w rfl
              rwa [h] at this
            subst hsame
            exact ⟨⟨hcompletion, hauthoring, hgate, hfinal, h⟩, rfl⟩
  · rintro ⟨h, rfl⟩
    refine ⟨_, h.completion, ?_⟩
    exact (machine.eval_bind_of h.authoring).trans ((machine.eval_bind_of h.gate).trans
      ((machine.eval_bind_of h.finalization).trans h.live))

/-- The run may be reconciled still. -/
def Reconcilable (runKey : String) (w : World) : Prop :=
  ∃ control, machine.eval (assertReconcileMutable runKey) w = (.returned control, w)

/-- A reconcile of the run accepts the completion of its newest work card. -/
def Accepts (cfg : Config) (run : RunRecord) (items : List HistoryItem) (latest : HistoryItem)
    (m : CompletionMetadata) (w : World) : Prop :=
  machine.eval (judge cfg run items latest) w = (.returned (.accepted m), w) ∧
    Reconcilable run.runKey w

/-- A completion that is checked starts at the head that its card expects. -/
theorem checkIdentity_head {card : CardRecord} {p : CompletionPayload}
    (h : checkIdentity run latest card p = .ok ()) : p.headBeforeSha = card.expectedHeadSha := by
  unfold checkIdentity at h
  split at h
  · next hnone =>
    have hhead := failedChecks_eq_nil.mp hnone
      (p.headBeforeSha != card.expectedHeadSha, "head_before_sha") (by simp [identityChecks])
    simpa using hhead
  · cases h

/-- The card that a completion answers. -/
theorem Passes.card (hpasses : Passes cfg run items latest m w) :
    ∃ card, parseCardBody latest.task.body = .ok card ∧
      checkIdentity run latest card m.toCompletionPayload = .ok () := by
  obtain ⟨_, _, _, h⟩ := machine.eval_bind_returned.mp (eval_caught hpasses.completion)
  obtain ⟨_, _, _, h⟩ := machine.eval_bind_returned.mp h
  obtain ⟨_, _, hcontext, h⟩ := machine.eval_bind_returned.mp h
  obtain ⟨_, _, _, h⟩ := machine.eval_bind_returned.mp h
  obtain ⟨_, _, _, h⟩ := machine.eval_bind_returned.mp h
  cases h
  obtain ⟨_, _, hidentity, _⟩ := machine.eval_bind_returned.mp hcontext
  obtain ⟨card, _, hcard, hidentity⟩ := machine.eval_bind_returned.mp hidentity
  obtain ⟨_, _, hcheck, _⟩ := machine.eval_bind_returned.mp hidentity
  exact ⟨card, eval_fromText hcard, eval_fromText hcheck⟩

end Passes

section Alike

variable {cfg : Config} {run : RunRecord} {items : List HistoryItem} {latest : HistoryItem}
variable {m : CompletionMetadata} {w : World} {repo repo' : Repository}

/-- What compares no commits reads the same over two repositories. -/
theorem looking_alike (cfg : Config) (w : World) (repo repo' : Repository) :
    Looking (fun {α} (p : Service α) =>
      machine.ReadsAlike (w.over cfg repo) (w.over cfg repo') p) where
  toClosed := closed_readsAlike machine _ _
  store o ho := readsAlike_op rfl ((exec_read _).1 o ho) ((exec_read _).1 o ho)
  hermes o ho := readsAlike_op rfl ((exec_read _).2.1 o ho) ((exec_read _).2.1 o ho)
  gitlab o ho := by
    have hread := GitLabOp.isRead_of_look ho
    refine readsAlike_op ?_ ((exec_read _).2.2 o hread) ((exec_read _).2.2 o hread)
    cases o with
    | check c =>
      cases c with
      | artifactCompletion run m => cases ho
      | _ => rfl
    | mr | gateNote => rfl
    | _ => cases hread
  host o := readsAlike_op rfl rfl rfl

/-- The checks of an author's completion compare commits for its artifact alone. -/
theorem Passes.transfer (hauthor : m.stage.isRepositoryAuthor = true)
    (hartifact : m.mode = .finalization →
      repo.validateArtifactCompletion cfg.sha256 run m.toCompletionPayload =
        repo'.validateArtifactCompletion cfg.sha256 run m.toCompletionPayload)
    (hpasses : Passes cfg run items latest m (w.over cfg repo)) :
    Passes cfg run items latest m (w.over cfg repo') := by
  have halike := looking_alike cfg w repo repo'
  have hgate : gateCheck run m.toCompletionPayload = pure () := by
    unfold gateCheck
    refine if_neg ?_
    cases hstage : m.stage <;> simp_all [Stage.isRepositoryAuthor, Stage.isDocumentProducer,
      Stage.isDocumentReview, Stage.isCodeGate]
  have hfinal : machine.ReadsAlike (w.over cfg repo) (w.over cfg repo')
      (finalizationCheck run m.toCompletionPayload) := by
    unfold finalizationCheck
    split
    · next hmode =>
      refine halike.bind (readsAlike_op ?_ rfl rfl) fun _ => halike.pure _
      show (Except.map _ _ : Except ControllerError String) = Except.map _ _
      rw [hartifact hmode]
    · exact halike.pure _
  constructor
  · exact ((halike.caught (halike.validateCompletion _ _ _ _)).eval_iff _).mp hpasses.completion
  · exact ((halike.caught (halike.authoringCheck _ _)).eval_iff _).mp hpasses.authoring
  · rw [hgate]
    rfl
  · exact ((halike.caught hfinal).eval_iff _).mp hpasses.finalization
  · exact ((halike.judgeLive).eval_iff _).mp hpasses.live

theorem Accepts.transfer (hauthor : m.stage.isRepositoryAuthor = true)
    (hartifact : m.mode = .finalization →
      repo.validateArtifactCompletion cfg.sha256 run m.toCompletionPayload =
        repo'.validateArtifactCompletion cfg.sha256 run m.toCompletionPayload)
    (haccepts : Accepts cfg run items latest m (w.over cfg repo)) :
    Accepts cfg run items latest m (w.over cfg repo') := by
  obtain ⟨hjudge, control, hmutable⟩ := haccepts
  refine ⟨judge_accepted.mpr ⟨(judge_accepted.mp hjudge).1.transfer hauthor hartifact, rfl⟩,
    control, ?_⟩
  exact (((looking_alike cfg w repo repo').assertReconcileMutable _).eval_iff _).mp hmutable

end Alike

/-! ## The scope of a writer -/

section Scope

variable {cfg : Config} {run : RunRecord} {items : List HistoryItem} {latest : HistoryItem}
variable {m : CompletionMetadata} {w : World} {repo : Repository} {before : Option String}

/-- A writer that started at `before` changed paths of its own phase only, and its run
changed no document of another PRD. -/
structure WithinScope (run : RunRecord) (repo : Repository) (before : Option String)
    (m : CompletionPayload) : Prop where
  phase : m.stage.isDocumentProducer = true → ∀ start, before = some start →
    ∀ head, m.headSha = some head →
    ∀ path ∈ repo.changed run.project.projectId start head,
      run.artifactScope.phaseContains m.stage path = true
  documents : ∀ head, m.headSha = some head →
    ∀ path ∈ repo.changed run.project.projectId run.workspace.repositoryBaseSha head,
      isPrdPath path = true → run.artifactScope.runAllowsDocumentPath path = true

/-- There is nothing to change outside the scope: the head has not moved, or the scope
has every path. -/
structure NothingOutside (run : RunRecord) (before : Option String) (m : CompletionPayload) :
    Prop where
  phase : m.stage.isDocumentProducer = true → ∀ start, before = some start →
    ∀ head, m.headSha = some head → start ≠ head →
    ∀ path, path ≠ "" → run.artifactScope.phaseContains m.stage path = true
  documents : ∀ head, m.headSha = some head → run.workspace.repositoryBaseSha ≠ head →
    ∀ path, isPrdPath path = true → run.artifactScope.runAllowsDocumentPath path = true

theorem ne_empty_of_prdPath {path : String} (h : isPrdPath path = true) : path ≠ "" := by
  rintro rfl
  exact absurd h (by decide)

theorem mem_diffPaths {diffs : List Diff} {path : String}
    (h : path ∈ Repository.diffPaths diffs) : path ≠ "" := by
  simp only [Repository.diffPaths, List.mem_insertionSort, List.mem_dedup, List.mem_filter,
    bne_iff_ne] at h
  exact h.2

theorem NothingOutside.within (h : NothingOutside run before m.toCompletionPayload)
    (repo : Repository) : WithinScope run repo before m.toCompletionPayload where
  phase hproducer start hstart head hhead path hpath := by
    unfold Repository.changed at hpath
    split at hpath
    · cases hpath
    · next hne => exact h.phase hproducer start hstart head hhead hne path (mem_diffPaths hpath)
  documents head hhead path hpath hprd := by
    unfold Repository.changed at hpath
    split at hpath
    · cases hpath
    · next hne => exact h.documents head hhead hne path hprd

/-- The artifact commit of a finalization that is its head is compared with where the
writer and the run started. -/
theorem Accepts.within_of_finalization (haccepts : Accepts cfg run items latest m (w.over cfg repo))
    (hmode : m.mode = .finalization) (hhead : m.artifactCommitSha = m.headSha)
    (hbefore : m.headBeforeSha = before) :
    WithinScope run repo before m.toCompletionPayload := by
  have hcheck := eval_caught (judge_accepted.mp haccepts.1).1.finalization
  have hok : repo.validateArtifactCompletion cfg.sha256 run m.toCompletionPayload = .ok () := by
    unfold finalizationCheck at hcheck
    rw [if_pos hmode] at hcheck
    obtain ⟨_, _, hcheck, -⟩ := machine.eval_bind_returned.mp hcheck
    rw [gitlab, machine.eval_op] at hcheck
    cases hv : repo.validateArtifactCompletion cfg.sha256 run m.toCompletionPayload with
    | ok u => rfl
    | error e =>
      simp [machine, Op.exec, GitLabOp.exec, World.over, GitLab.over, hv, Except.map] at hcheck
  obtain ⟨commit, hcommit, hphase, hdocuments⟩ := Repository.validateArtifactCompletion_ok hok
  constructor
  · intro hproducer start hstart head hhead'
    obtain ⟨start', hstart', hinside⟩ := Repository.checkPhase_ok hproducer hphase
    obtain rfl : start' = start := Option.some.inj (hstart'.symm.trans (hbefore.trans hstart))
    obtain rfl : commit = head := Option.some.inj (hcommit.symm.trans (hhead.trans hhead'))
    exact hinside
  · intro head hhead'
    obtain rfl : commit = head := Option.some.inj (hcommit.symm.trans (hhead.trans hhead'))
    exact Repository.checkDocuments_ok hdocuments

/-- Every comparison with `head` finds `path` alone. -/
def Repository.touching (repo : Repository) (head path : String) :
    Nat → String → String → List Diff :=
  fun project fromRef toRef =>
    if toRef = head then [⟨path, path⟩] else repo.diffs project fromRef toRef

theorem mem_changed_touching {head path start : String} {project : Nat} (hne : start ≠ head)
    (hpath : path ≠ "") :
    path ∈ (repo.withDiffs (repo.touching head path)).changed project start head := by
  simp [Repository.changed, Repository.withDiffs, Repository.touching, Repository.diffPaths, hne,
    hpath]

/-- A completion is accepted whatever path it touches on the way to a head that is not
the commit of a finalization. -/
theorem Accepts.touching (haccepts : Accepts cfg run items latest m (w.over cfg repo))
    (hauthor : m.stage.isRepositoryAuthor = true) {head : String} (hhead : m.headSha = some head)
    (hfree : ¬ (m.mode = .finalization ∧ m.artifactCommitSha = m.headSha)) (path : String) :
    Accepts cfg run items latest m (w.over cfg (repo.withDiffs (repo.touching head path))) := by
  refine haccepts.transfer hauthor fun hmode => Eq.symm ?_
  refine repo.validateArtifactCompletion_withDiffs fun commit hcommit project start => ?_
  refine if_neg ?_
  rintro rfl
  exact hfree ⟨hmode, hcommit.trans hhead.symm⟩

/-- **The scope of a writer.** The checks keep every change of an accepted authoring pass
within its scope exactly when it is a finalization whose artifact commit is its head, or
nothing is outside. -/
theorem writerScope_iff {card : CardRecord} (hcard : parseCardBody latest.task.body = .ok card)
    (hauthor : m.stage.isRepositoryAuthor = true)
    (haccepts : Accepts cfg run items latest m (w.over cfg repo)) :
    (∀ diffs, Accepts cfg run items latest m (w.over cfg (repo.withDiffs diffs)) →
      WithinScope run (repo.withDiffs diffs) card.expectedHeadSha m.toCompletionPayload) ↔
    (m.mode = .finalization ∧ m.artifactCommitSha = m.headSha) ∨
      NothingOutside run card.expectedHeadSha m.toCompletionPayload := by
  have hbefore : m.headBeforeSha = card.expectedHeadSha := by
    obtain ⟨card', hcard', hcheck⟩ := (judge_accepted.mp haccepts.1).1.card
    obtain rfl : card = card' := Except.ok.inj (hcard.symm.trans hcard')
    exact checkIdentity_head hcheck
  constructor
  · intro hscope
    by_cases hfree : m.mode = .finalization ∧ m.artifactCommitSha = m.headSha
    · exact .inl hfree
    · refine .inr ⟨?_, ?_⟩
      · intro hproducer start hstart head hhead hne path hpath
        have hwithin := hscope _ (haccepts.touching hauthor hhead hfree path)
        exact hwithin.phase hproducer start hstart head hhead path
          (mem_changed_touching hne hpath)
      · intro head hhead hne path hprd
        have hwithin := hscope _ (haccepts.touching hauthor hhead hfree path)
        exact hwithin.documents head hhead path
          (mem_changed_touching hne (ne_empty_of_prdPath hprd)) hprd
  · rintro (⟨hmode, hhead⟩ | hnothing) diffs haccepts'
    · exact haccepts'.within_of_finalization hmode hhead hbefore
    · exact hnothing.within _

end Scope

/-! ## A specification that brings code along -/

def scopedRun : RunRecord :=
  { sampleRun "run-a" "ga" 1 with
    artifactPatterns :=
      { spec := ["docs/prds/a/specs/spec-*.md"], plan := ["docs/prds/a/plans/plan-*.md"],
        tasks := ["docs/prds/a/tasks/task-*.md"] } }

def specRecord : CardRecord :=
  { gateRecord .specWrite ⟨1⟩ with run := scopedRun, frozenBaselines := [] }

def writtenHead : String := "89abcdef0123456789abcdef0123456789abcdef"

/-- A specification that is written on top of the reviewed head. -/
def specPayload : CompletionPayload :=
  { gatePass .specWrite ⟨2⟩ ⟨1⟩ with
    headSha := some writtenHead
    repositoryEvidence := some { repositoryBaseSha := "base", inspectedPaths := ["src/main.py"] } }

def specPass : CompletionMetadata := ⟨specPayload, by decide⟩

/-- A done card of the sample run, as Hermes shows it. -/
def doneTask (id : CardId) (body : CardBody) (key : String) : TaskRecord where
  id
  body
  assignee := none
  status := .done
  createdBy := some "hollysys-controller"
  createdAt := 10 + id.number
  idempotencyKey := some key
  tenant := some "run-a"
  skills := []
  currentRunId := none
  latestMetadata := none
  latestOutcome := some "completed"
  parents := []
  comments := []
  eventKinds := []
  workerPid := none

def rootItem : HistoryItem where
  managed :=
    { board := "app", cardId := ⟨1⟩, runKey := "run-a", stage := .runInit, iteration := 1,
      idempotencyKey := "run-a:run-init", parentCardId := none, purpose := .root, createdAt := 10 }
  task := doneTask ⟨1⟩ (.run scopedRun) "run-a:run-init"

def specItem : HistoryItem where
  managed := { sampleCard 2 1 .specWrite with createdAt := 12 }
  task :=
    { doneTask ⟨2⟩ (.work specRecord) "run-a:spec-write:1:normal:work" with
      latestMetadata := some { payload := .ok specPayload } }

/-- The specification and a source file are committed together. -/
def mixedRepository : Repository where
  branches _ _ := .ok ["delivery-a"]
  tree _ _ := .ok ["docs/prds/a/specs/spec-a.md", "docs/prds/b/specs/spec-b.md", "src/main.py"]
  blobId _ path _ := .ok (some path)
  diffs _ _ _ :=
    [⟨"docs/prds/a/specs/spec-a.md", "docs/prds/a/specs/spec-a.md"⟩,
     ⟨"docs/prds/b/specs/spec-b.md", "docs/prds/b/specs/spec-b.md"⟩,
     ⟨"src/main.py", "src/main.py"⟩]

def specWorld : World where
  store :=
    { runs := [scopedRun]
      deliveryBindings := [("run-a", sampleBinding 7)]
      runControl := Table.empty.put "run-a" {} }
  gitlab :=
    { mr := fun _ _ iid => .ok
        { iid, sha := some writtenHead, sourceBranch := "delivery-a", targetBranch := "main",
          webUrl := (sampleBinding 7).mrUrl, creator := "controller", createdAt := 5 }
      check := fun _ => .ok "" }
  now := 100

/-- What the judgement of the sample is about. -/
def judgedPayload : Durable.Outcome ControllerError Judgement → Option CompletionPayload
  | .returned (.accepted m) => some m.toCompletionPayload
  | _ => none

theorem judgedPayload_accepted {r : Durable.Outcome ControllerError Judgement}
    {m : CompletionMetadata} (h : judgedPayload r = some m.toCompletionPayload) :
    r = .returned (.accepted m) := by
  unfold judgedPayload at h
  split at h
  · next n =>
    obtain rfl : n = m := CompletionMetadata.ext_payload (by simpa using h)
    rfl
  · cases h

theorem specPass_accepted : Accepts sampleConfig scopedRun [rootItem, specItem] specItem specPass
    (specWorld.over sampleConfig mixedRepository) := by
  constructor
  · exact Prod.ext (judgedPayload_accepted (by decide +kernel))
      ((reading_keeps (· = specWorld.over sampleConfig mixedRepository)).judge _ rfl)
  · exact ⟨_, rfl⟩

/-- The SPEC writer changed a source file and a document of another PRD, and its
completion is accepted. -/
theorem specPass_escapes :
    Accepts sampleConfig scopedRun [rootItem, specItem] specItem specPass
        (specWorld.over sampleConfig mixedRepository) ∧
      parseCardBody specItem.task.body = .ok specRecord ∧ specPass.outcome = .pass ∧
      "src/main.py" ∈ mixedRepository.changed 1 reviewedHead writtenHead ∧
      scopedRun.artifactScope.phaseContains .specWrite "src/main.py" = false ∧
      "docs/prds/b/specs/spec-b.md" ∈ mixedRepository.changed 1 "base" writtenHead ∧
      scopedRun.artifactScope.runAllowsDocumentPath "docs/prds/b/specs/spec-b.md" = false ∧
      ¬ WithinScope scopedRun mixedRepository specRecord.expectedHeadSha
        specPass.toCompletionPayload := by
  have hcode : "src/main.py" ∈ mixedRepository.changed 1 reviewedHead writtenHead := by
    decide +kernel
  have hout : scopedRun.artifactScope.phaseContains .specWrite "src/main.py" = false := by
    decide +kernel
  refine ⟨specPass_accepted, rfl, rfl, hcode, hout, by decide +kernel, by decide +kernel, ?_⟩
  intro hwithin
  have hinside := hwithin.phase rfl reviewedHead rfl writtenHead rfl "src/main.py" hcode
  cases hinside.symm.trans hout

/-- The checks do not keep the sample within its scope, whatever its commits contain. -/
theorem specPass_scope :
    ¬ ∀ diffs, Accepts sampleConfig scopedRun [rootItem, specItem] specItem specPass
        (specWorld.over sampleConfig (mixedRepository.withDiffs diffs)) →
      WithinScope scopedRun (mixedRepository.withDiffs diffs) specRecord.expectedHeadSha
        specPass.toCompletionPayload := by
  rw [writerScope_iff rfl rfl specPass_accepted]
  rintro (⟨hmode, -⟩ | hnothing)
  · cases hmode
  · have hinside := hnothing.phase rfl reviewedHead rfl writtenHead rfl (by decide) "src/main.py"
      (by decide)
    exact absurd hinside (by decide +kernel)

end HollysysController
