import HollysysController.WriterScope

/-! # The baseline that a gate binds

A CODE_REVIEW gate names the paths, the commit and the digest of the TASKS baseline that its
card holds. The paths of the gate are sorted for the comparison; those of the baseline are
the ones that the TASKS completion gave, in its order. -/

namespace HollysysController

open Durable

/-! ## From the completion to the card -/

theorem baselineCandidate_freezes {M : Machine Op Op.Ret ControllerError σ}
    {E : Setting Op ControllerError σ} {I : σ → Prop}
    (hread : Reading fun {α} (p : Service α) => Keeps M E I p) (run : RunRecord)
    (producer reviewer : Stage) (items : List HistoryItem) {candidate : Option CompletionMetadata}
    (hcandidate : ∀ m, candidate = some m → freezes producer reviewer m.toCompletionPayload = true) :
    Answers M E I (baselineCandidate run producer reviewer items candidate)
      (fun answer => ∀ m, answer = some m →
        freezes producer reviewer m.toCompletionPayload = true) := by
  induction items generalizing candidate with
  | nil => exact .pure hcandidate
  | cons i is ih =>
    unfold baselineCandidate
    split
    · refine (Answers.of_keeps (hread.caught (hread.baselineCompletion run i))).bind fun read _ =>
        ih fun m hm => ?_
      cases read with
      | error text => exact hcandidate m hm
      | ok n =>
        rw [nextCandidate] at hm
        split at hm
        next hfreezes =>
          obtain rfl := Option.some.inj hm
          exact hfreezes
        next => exact hcandidate m hm
    · exact ih hcandidate

/-- Each baseline repeats a completion that freezes its phase. -/
def PhasesFrozen : List (String × Stage × Stage) → List ArtifactBaseline → Prop
  | _, [] => True
  | [], _ :: _ => False
  | (phase, producer, reviewer) :: phases, b :: baselines =>
    (∃ m : CompletionMetadata, freezes producer reviewer m.toCompletionPayload = true ∧
      b = baselineOf phase m.toCompletionPayload) ∧ PhasesFrozen phases baselines

theorem phaseBaselines_frozen {M : Machine Op Op.Ret ControllerError σ}
    {E : Setting Op ControllerError σ} {I : σ → Prop}
    (hread : Reading fun {α} (p : Service α) => Keeps M E I p) (run : RunRecord)
    (items : List HistoryItem) (phases : List (String × Stage × Stage)) :
    Answers M E I (phaseBaselines run items phases) (PhasesFrozen phases) := by
  induction phases with
  | nil => exact .pure trivial
  | cons c cs ih =>
    obtain ⟨phase, producer, reviewer⟩ := c
    refine (baselineCandidate_freezes hread run producer reviewer items
      (fun m hm => by cases hm)).bind fun candidate hcandidate => ?_
    cases candidate with
    | none => exact .pure trivial
    | some m => exact ih.bind fun baselines h => .pure ⟨⟨m, hcandidate m rfl, rfl⟩, h⟩

def tasksBaselines (baselines : List ArtifactBaseline) : List ArtifactBaseline :=
  baselines.filter (·.phase == "tasks")

/-- **Frozen baselines hold at most one of the TASKS phase**, and that one repeats the paths of
the completion that froze it. -/
theorem frozenBaselines_tasks {M : Machine Op Op.Ret ControllerError σ}
    {E : Setting Op ControllerError σ} {I : σ → Prop}
    (hread : Reading fun {α} (p : Service α) => Keeps M E I p) (cfg : Config)
    (items : List HistoryItem) (run : RunRecord) :
    Answers M E I (frozenBaselines cfg items run) (fun baselines =>
      tasksBaselines baselines = [] ∨ ∃ t : CompletionMetadata,
        freezes .tasksWrite .tasksReview t.toCompletionPayload = true ∧
          tasksBaselines baselines = [baselineOf "tasks" t.toCompletionPayload]) := by
  unfold frozenBaselines
  split
  · exact .raise
  · refine (phaseBaselines_frozen hread run items phaseContracts).bind fun baselines h => .pure ?_
    rcases baselines with _ | ⟨spec, _ | ⟨plan, _ | ⟨tasks, rest⟩⟩⟩
    · exact .inl rfl
    · obtain ⟨⟨m, -, hspec⟩, -⟩ := h
      subst hspec
      exact .inl rfl
    · obtain ⟨⟨m, -, hspec⟩, ⟨n, -, hplan⟩, -⟩ := h
      subst hspec hplan
      exact .inl rfl
    · obtain ⟨⟨m, -, hspec⟩, ⟨n, -, hplan⟩, ⟨t, ht, htasks⟩, hrest⟩ := h
      subst hspec hplan htasks
      cases rest with
      | nil => exact .inr ⟨t, ht, rfl⟩
      | cons b rest => exact hrest.elim

/-! ## The check of a gate -/

/-- The card of a gate, whose one TASKS baseline repeats the completion. -/
def HistoryItem.HoldsBaseline (i : HistoryItem) (t : CompletionPayload) : Prop :=
  ∃ card, i.task.body = .work card ∧
    tasksBaselines card.frozenBaselines = [baselineOf "tasks" t]

/-- Two gates that differ in the order of their paths at most. -/
structure SameBinding (m n : CompletionPayload) : Prop where
  paths : m.gateArtifactPaths.Perm n.gateArtifactPaths
  commit : m.gateArtifactCommitSha = n.gateArtifactCommitSha
  digest : m.gateArtifactDigest = n.gateArtifactDigest

/-- The gate names what the completion froze, in some order. -/
structure NamesArtifact (m t : CompletionPayload) : Prop where
  paths : m.gateArtifactPaths.Perm t.artifactPaths
  commit : m.gateArtifactCommitSha = t.artifactCommitSha
  digest : m.gateArtifactDigest = t.artifactDigest

/-- The binding check of a CODE_REVIEW gate does not depend on the order of paths, and
accepts the gates that name the baseline of the card. -/
structure GateBindingLaw (i : HistoryItem) (t : CompletionPayload) : Prop where
  order : ∀ m n : CompletionPayload, m.stage = .codeReview → n.stage = .codeReview →
    SameBinding m n → (checkGateArtifact i m = .ok () ↔ checkGateArtifact i n = .ok ())
  own : ∀ m : CompletionPayload, m.stage = .codeReview → NamesArtifact m t →
    checkGateArtifact i m = .ok ()

theorem insertionSort_congr {l₁ l₂ : List String} (h : l₁.Perm l₂) :
    l₁.insertionSort (· ≤ ·) = l₂.insertionSort (· ≤ ·) :=
  List.Perm.eq_of_pairwise' (List.pairwise_insertionSort _ l₁) (List.pairwise_insertionSort _ l₂)
    ((List.perm_insertionSort _ l₁).trans (h.trans (List.perm_insertionSort _ l₂).symm))

/-- A completion that freezes a baseline names its digest and its commit. -/
theorem freezes_names {t : CompletionMetadata}
    (h : freezes .tasksWrite .tasksReview t.toCompletionPayload = true) :
    t.artifactDigest.isSome ∧ t.artifactCommitSha.isSome := by
  simp only [freezes, Bool.or_eq_true, Bool.and_eq_true, beq_iff_eq] at h
  rcases h with ⟨⟨hstage, hpass⟩, -⟩ | ⟨⟨⟨-, hmode⟩, hpass⟩, -⟩
  · exact t.review_pass_artifact (by rw [hstage]; rfl) hpass
  · exact t.finalization_pass_artifact hmode hpass

theorem checkGateArtifact_ok_iff {i : HistoryItem} {t m : CompletionPayload}
    (hcard : i.HoldsBaseline t) (hstage : m.stage = .codeReview)
    (hdigest : t.artifactDigest.isSome) (hcommit : t.artifactCommitSha.isSome) :
    checkGateArtifact i m = .ok () ↔
      t.artifactPaths = m.gateArtifactPaths.insertionSort (· ≤ ·) ∧
        m.gateArtifactCommitSha = t.artifactCommitSha ∧
        m.gateArtifactDigest = t.artifactDigest := by
  obtain ⟨card, hbody, hbaseline⟩ := hcard
  obtain ⟨digest, hdigest⟩ := Option.isSome_iff_exists.mp hdigest
  obtain ⟨commit, hcommit⟩ := Option.isSome_iff_exists.mp hcommit
  have hmatching : (card.frozenBaselines.filter fun b =>
      b.phase == "tasks" && b.artifactPaths == m.gateArtifactPaths.insertionSort (· ≤ ·) &&
        some b.artifactCommitSha == m.gateArtifactCommitSha &&
        some b.artifactDigest == m.gateArtifactDigest) =
      [baselineOf "tasks" t].filter fun b =>
        b.artifactPaths == m.gateArtifactPaths.insertionSort (· ≤ ·) &&
          some b.artifactCommitSha == m.gateArtifactCommitSha &&
          some b.artifactDigest == m.gateArtifactDigest := by
    rw [← hbaseline, tasksBaselines, List.filter_filter]
    congr 1
    funext b
    cases b.phase == "tasks" <;> simp
  have hshort : ∀ b : ArtifactBaseline, ∀ p : ArtifactBaseline → Bool,
      ([b].filter p).length = 1 ↔ p b = true := by
    intro b p
    cases hp : p b <;> simp [hp]
  rw [checkGateArtifact, if_neg (by rw [hstage]; nofun), hbody]
  simp only [parseCardBody, hmatching, hshort, ite_eq_left_iff, reduceCtorEq, imp_false, not_not]
  simp only [baselineOf, hdigest, hcommit, Option.getD_some, Bool.and_eq_true, beq_iff_eq]
  rw [and_assoc, eq_comm (b := m.gateArtifactCommitSha), eq_comm (b := m.gateArtifactDigest)]

/-- The check of the artifact itself takes the paths of a completion in any order. -/
theorem checkArtifact_perm (repo : Repository) (sha256 : String → String) (run : RunRecord)
    (t : CompletionPayload) {paths : List String} (h : paths.Perm t.artifactPaths)
    (commit digest : String) :
    repo.checkArtifact sha256 run { t with artifactPaths := paths } commit digest =
      repo.checkArtifact sha256 run t commit digest := by
  unfold Repository.checkArtifact
  simp only [insertionSort_congr h]

/-- So does the gate of the TASKS review. -/
theorem reviewBinding_perm (i : HistoryItem) {m n : CompletionPayload}
    (hm : m.stage = .tasksReview) (hn : n.stage = .tasksReview)
    (hpaths : m.artifactPaths.Perm n.artifactPaths)
    (hcommit : m.artifactCommitSha = n.artifactCommitSha)
    (hdigest : m.artifactDigest = n.artifactDigest) (hsame : SameBinding m n) :
    checkGateArtifact i m = checkGateArtifact i n := by
  have helements : sameElements m.gateArtifactPaths m.artifactPaths =
      sameElements n.gateArtifactPaths n.artifactPaths := by
    rw [sameElements, sameElements, decide_eq_decide, (hsame.paths.congr_left _),
      (hpaths.congr_right _)]
  rw [checkGateArtifact, checkGateArtifact, if_pos hm, if_pos hn, helements, hsame.commit,
    hsame.digest, hcommit, hdigest]

/-- **The binding of a gate does not depend on the order of paths exactly when the completion
that froze the baseline listed them in order.** -/
theorem gateBindingLaw_iff {i : HistoryItem} {t : CompletionMetadata}
    (hfreezes : freezes .tasksWrite .tasksReview t.toCompletionPayload = true)
    (hcard : i.HoldsBaseline t.toCompletionPayload) :
    GateBindingLaw i t.toCompletionPayload ↔ t.artifactPaths.Pairwise (· ≤ ·) := by
  obtain ⟨hdigest, hcommit⟩ := freezes_names hfreezes
  have haccepts : ∀ m : CompletionPayload, m.stage = .codeReview → _ := fun m hm =>
    checkGateArtifact_ok_iff hcard hm hdigest hcommit
  constructor
  · intro h
    -- the gate of the baseline's own paths
    let m : CompletionPayload := { t.toCompletionPayload with
      stage := .codeReview
      gateArtifactPaths := t.artifactPaths
      gateArtifactCommitSha := t.artifactCommitSha
      gateArtifactDigest := t.artifactDigest }
    obtain ⟨hpaths, -⟩ := (haccepts m rfl).mp (h.own m rfl ⟨.refl _, rfl, rfl⟩)
    rw [hpaths]
    exact List.pairwise_insertionSort _ _
  · intro hsorted
    have hfixed := hsorted.insertionSort_eq
    refine ⟨fun m n hm hn hsame => ?_, fun m hm hnames => ?_⟩
    · rw [haccepts m hm, haccepts n hn, insertionSort_congr hsame.paths, hsame.commit, hsame.digest]
    · refine (haccepts m hm).mpr ⟨?_, hnames.commit, hnames.digest⟩
      rw [insertionSort_congr hnames.paths, hfixed]

/-! ## A baseline that no gate binds -/

def taskPaths : List String := ["docs/prds/a/tasks/task-1.md", "docs/prds/a/tasks/task-2.md"]

/-- Two task files on the delivery branch. -/
def tasksRepository : Repository where
  branches _ _ := .ok ["delivery-a"]
  tree _ _ := .ok taskPaths
  blobId _ path _ := .ok (some path)
  diffs _ _ _ := []

/-- The digest of both files, for a hash that changes nothing. -/
def tasksDigest : String := String.join (taskPaths.map fun path => s!"{path}\x00{path}\n")

/-- The review of the TASKS that lists the files so. -/
def tasksReviewed (paths : List String) : CompletionPayload :=
  { gatePass .tasksReview ⟨2⟩ ⟨1⟩ with
    artifactPaths := paths
    artifactDigest := some tasksDigest
    artifactCommitSha := some reviewedHead
    baselineDisposition := some .reviewed
    gatePhase := some .implementationEntry
    gateDecision := some .approved
    gateReviewer := some reviewer.text
    gateReviewedAt := some 90
    gateReason := some "complete"
    gateEvidenceRefs := ["note"]
    gateArtifactPaths := taskPaths
    gateArtifactCommitSha := some reviewedHead
    gateArtifactDigest := some tasksDigest
    contractRefs := ["contract"]
    requirementIds := ["R1"] }

def sortedTasks : CompletionMetadata := ⟨tasksReviewed taskPaths, by decide⟩

def unsortedTasks : CompletionMetadata := ⟨tasksReviewed taskPaths.reverse, by decide⟩

/-- The CODE_REVIEW card that holds the baseline of a TASKS review. -/
def bindingItem (t : CompletionPayload) : HistoryItem where
  managed := { sampleCard 3 2 .codeReview with createdAt := 13 }
  task := doneTask ⟨3⟩ (.work { gateRecord .codeReview ⟨2⟩ with
    frozenBaselines := [baselineOf "tasks" t] }) "run-a:code-review:1:normal:work"

/-- The gate that names both files. -/
def bindingGate : CompletionPayload :=
  { passedReview reviewer with
    gateArtifactPaths := taskPaths
    gateArtifactCommitSha := some reviewedHead
    gateArtifactDigest := some tasksDigest }

/-- The binding law of the baseline whose files are listed in order. -/
theorem sortedTasks_bound : GateBindingLaw (bindingItem sortedTasks.toCompletionPayload)
    sortedTasks.toCompletionPayload :=
  (gateBindingLaw_iff (by decide) ⟨_, rfl, rfl⟩).mpr (by decide)

/-- A TASKS review that lists the two files of the tree in the other order is accepted and
frozen, and the CODE_REVIEW gate that names exactly these files is refused. -/
theorem unsortedTasks_refused :
    tasksRepository.validateArtifactCompletion id scopedRun unsortedTasks.toCompletionPayload =
        .ok () ∧
      freezes .tasksWrite .tasksReview unsortedTasks.toCompletionPayload = true ∧
      (bindingItem unsortedTasks.toCompletionPayload).HoldsBaseline
        unsortedTasks.toCompletionPayload ∧
      bindingGate.stage = .codeReview ∧ bindingGate.validateStageContract = .ok () ∧
      NamesArtifact bindingGate unsortedTasks.toCompletionPayload ∧
      checkGateArtifact (bindingItem unsortedTasks.toCompletionPayload) bindingGate =
        .error "semantic gate must bind exactly one frozen TASKS baseline" := by
  refine ⟨?_, by decide, ⟨_, rfl, rfl⟩, rfl, by decide, ⟨?_, rfl, rfl⟩, ?_⟩
  · decide +kernel
  · exact (List.reverse_perm taskPaths).symm
  · decide +kernel

end HollysysController
