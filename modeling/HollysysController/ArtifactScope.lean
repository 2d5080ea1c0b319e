import Mathlib.Data.List.Dedup
import HollysysController.Validation

/-! # The document scope of a run

A run writes the documents of one PRD. Its scope is given by shell patterns, and
GitLab's comparison of two commits names the paths that a writer changed. -/

namespace HollysysController

/-! ## Shell patterns -/

/-- An item of an `fnmatch` pattern. -/
inductive GlobItem where
  | star
  | any
  | oneOf (negated : Bool) (ranges : List (Char × Char))
  deriving DecidableEq, Repr

/-- The characters of a bracket, as ranges. -/
def bracketRanges : List Char → List (Char × Char)
  | low :: '-' :: high :: rest => (low, high) :: bracketRanges rest
  | c :: rest => (c, c) :: bracketRanges rest
  | [] => []

/-- What a bracket holds and what follows it, none when it is not closed. A bracket
is not closed by its first character. -/
def closeBracket (text : List Char) : Option (List Char × List Char) :=
  let first := match text with
    | '!' :: ']' :: _ => 2
    | '!' :: _ | ']' :: _ => 1
    | _ => 0
  let rest := text.drop first
  if rest.contains ']' then
    some (text.take first ++ rest.takeWhile (· != ']'), (rest.dropWhile (· != ']')).drop 1)
  else none

/-- The items of a pattern. At most `fuel` items are read. -/
def globItems : Nat → List Char → List GlobItem
  | 0, _ => []
  | _, [] => []
  | fuel + 1, c :: rest =>
    if c = '*' then .star :: globItems fuel rest
    else if c = '?' then .any :: globItems fuel rest
    else if c ≠ '[' then .oneOf false [(c, c)] :: globItems fuel rest
    else match closeBracket rest with
      | none => .oneOf false [('[', '[')] :: globItems fuel rest
      | some ('!' :: inside, rest) => .oneOf true (bracketRanges inside) :: globItems fuel rest
      | some (inside, rest) => .oneOf false (bracketRanges inside) :: globItems fuel rest

/-- A text matches the items as a whole. A star takes any text, slashes included. -/
def globMatches : List GlobItem → List Char → Bool
  | [], text => text.isEmpty
  | .star :: items, text => text.tails.any (globMatches items)
  | .any :: items, _ :: text => globMatches items text
  | .oneOf negated ranges :: items, c :: text =>
    (ranges.any fun r => r.1 ≤ c && c ≤ r.2) != negated && globMatches items text
  | _, [] => false

/-- `fnmatch.fnmatchcase`. -/
def fnmatchcase (path pattern : String) : Bool :=
  globMatches (globItems pattern.length pattern.toList) path.toList

/-! ## The scope -/

structure ArtifactScope where
  sourcePrdPath : String
  rootPath : String
  patterns : ArtifactPatterns
  deriving DecidableEq, Repr

def RunRecord.artifactScope (run : RunRecord) : ArtifactScope where
  sourcePrdPath := run.source.prdPath
  rootPath := run.artifactRoot
  patterns := run.artifactPatterns

namespace ArtifactScope

variable (scope : ArtifactScope)

def patternsFor : Stage → Except String (List String)
  | .specWrite | .specReview => .ok scope.patterns.spec
  | .planWrite | .planReview => .ok scope.patterns.plan
  | .tasksWrite | .tasksReview => .ok scope.patterns.tasks
  | stage => .error s!"{stage.value} has no document artifact scope"

def phaseContains (stage : Stage) (path : String) : Bool :=
  match scope.patternsFor stage with
  | .ok patterns => patterns.any (fnmatchcase path)
  | .error _ => false

def runAllowsDocumentPath (path : String) : Bool :=
  path != scope.sourcePrdPath && (scope.rootPath ++ "/").toList.isPrefixOf path.toList

end ArtifactScope

/-- A document of some PRD. -/
def isPrdPath (path : String) : Bool := prdPrefix.isPrefixOf path.toList

/-! ## The repository -/

structure Diff where
  oldPath : String
  newPath : String
  deriving DecidableEq, Repr

/-- What GitLab answers about the commits of a project. -/
structure Repository where
  /-- The branches that contain a commit. -/
  branches : Nat → String → Except ControllerError (List String)
  /-- The paths of the blobs of a tree. -/
  tree : Nat → String → Except ControllerError (List String)
  blobId : Nat → String → String → Except ControllerError (Option String)
  /-- What differs between two commits. -/
  diffs : Nat → String → String → List Diff
  /-- A comparison that gives no answer, or an incomplete one. -/
  unanswered : Nat → String → String → Option ControllerError := fun _ _ _ => none
  /-- `validate_forced_advance`, which reads the notes of the delivery MR. -/
  forcedAdvance : RunRecord → CompletionPayload → Except ControllerError Unit :=
    fun _ _ => .ok ()

namespace Repository

variable (repo : Repository)

def diffPaths (diffs : List Diff) : List String :=
  let paths := (diffs.flatMap fun d => [d.oldPath, d.newPath]).filter (· != "")
  paths.dedup.insertionSort (· ≤ ·)

/-- The paths that changed from one commit to another. -/
def changed (project : Nat) (fromRef toRef : String) : List String :=
  if fromRef = toRef then [] else diffPaths (repo.diffs project fromRef toRef)

def changedPaths (project : Nat) (fromRef toRef : String) :
    Except ControllerError (List String) :=
  if fromRef = toRef then .ok []
  else match repo.unanswered project fromRef toRef with
    | some e => .error e
    | none => .ok (diffPaths (repo.diffs project fromRef toRef))

theorem changedPaths_ok {project : Nat} {fromRef toRef : String} {paths : List String}
    (h : repo.changedPaths project fromRef toRef = .ok paths) :
    repo.changed project fromRef toRef = paths := by
  unfold changedPaths at h
  unfold changed
  split at h
  · next heq =>
    rw [if_pos heq]
    exact Except.ok.inj h
  · next hne =>
    rw [if_neg hne]
    split at h
    · cases h
    · exact Except.ok.inj h

def artifactPaths (project : Nat) (ref : String) (patterns : List String) :
    Except ControllerError (List String) :=
  if patterns = [] then .error (.valueError "artifact patterns are not configured")
  else match repo.tree project ref with
    | .error e => .error e
    | .ok tree =>
      let paths := tree.filter fun path => patterns.any (fnmatchcase path)
      if paths = [] then .error (.valueError "configured artifact patterns matched no files")
      else .ok (paths.insertionSort (· ≤ ·))

/-- The lines whose digest is the digest of an artifact. -/
def digestLines (project : Nat) (ref : String) : List String → Except ControllerError String
  | [] => .ok ""
  | path :: paths =>
    match repo.blobId project path ref with
    | .error e => .error e
    | .ok none => .error (.valueError s!"GitLab returned no blob id for {path}@{ref}")
    | .ok (some blob) =>
      match digestLines project ref paths with
      | .error e => .error e
      | .ok lines => .ok (s!"{path}\x00{blob}\n" ++ lines)

def artifactDigest (sha256 : String → String) (project : Nat) (ref : String)
    (paths : List String) : Except ControllerError String :=
  (repo.digestLines project ref (paths.insertionSort (· ≤ ·))).map sha256

end Repository

/-! ## The check of a document artifact -/

def listed (paths : List String) : String :=
  String.intercalate ", " (paths.insertionSort (· ≤ ·))

/-- The commit and the digest that a document completion names. -/
def namedArtifact (m : CompletionPayload) : Except ControllerError (String × String) :=
  if !(m.stage.isDocumentProducer || m.stage.isDocumentReview) then
    .error (.valueError s!"{m.stage.value} has no document artifact contract")
  else match m.artifactCommitSha, m.artifactDigest with
    | some commit, some digest => .ok (commit, digest)
    | _, _ => .error (.valueError "document artifact metadata is incomplete")

theorem namedArtifact_commit {m : CompletionPayload} {commit digest : String}
    (h : namedArtifact m = .ok (commit, digest)) : m.artifactCommitSha = some commit := by
  unfold namedArtifact at h
  split at h
  · cases h
  · split at h
    · next hcommit _ =>
      cases h
      exact hcommit
    · cases h

namespace Repository

variable (repo : Repository)

/-- The artifact of a completion is the one that its commit holds. -/
def checkArtifact (sha256 : String → String) (run : RunRecord) (m : CompletionPayload)
    (commit digest : String) : Except ControllerError Unit := do
  let project := run.project.projectId
  if !(← repo.branches project commit).contains run.workspace.branch then
    .error (.valueError s!"{m.stage.value} artifact commit is not on the delivery branch")
  let patterns ← (run.artifactScope.patternsFor m.stage).mapError .valueError
  let actual ← repo.artifactPaths project commit patterns
  if m.artifactPaths.insertionSort (· ≤ ·) ≠ actual then
    .error (.valueError s!"{m.stage.value} artifact path set differs from repository tree")
  if (← repo.artifactDigest sha256 project commit actual) ≠ digest then
    .error (.valueError s!"{m.stage.value} artifact digest mismatch")

/-- What a writer changed since its card was created is of its own phase; a reviewer
changes nothing. -/
def checkPhase (run : RunRecord) (m : CompletionPayload) (commit : String) :
    Except ControllerError Unit :=
  match m.headBeforeSha with
  | none => .error (.runtimeError "quote_from_bytes() expected bytes")
  | some before => do
    let paths ← repo.changedPaths run.project.projectId before commit
    let outside := paths.filter fun path => !run.artifactScope.phaseContains m.stage path
    if m.stage.isDocumentProducer then
      if outside ≠ [] then
        .error (.valueError
          s!"{m.stage.value} changed paths outside current PRD scope: {listed outside}")
    else if paths ≠ [] then
      .error (.valueError s!"{m.stage.value} reviewer changed repository head")

/-- The documents that the whole run changed are its own. -/
def checkDocuments (run : RunRecord) (commit : String) : Except ControllerError Unit := do
  let paths ← repo.changedPaths run.project.projectId run.workspace.repositoryBaseSha commit
  let crossScope := paths.filter fun path =>
    isPrdPath path && !run.artifactScope.runAllowsDocumentPath path
  if crossScope ≠ [] then
    .error (.valueError
      s!"delivery changed documents outside current PRD scope: {listed crossScope}")

/-- `validate_artifact_completion`. -/
def validateArtifactCompletion (sha256 : String → String) (run : RunRecord)
    (m : CompletionPayload) : Except ControllerError Unit := do
  let (commit, digest) ← namedArtifact m
  repo.checkArtifact sha256 run m commit digest
  repo.checkPhase run m commit
  repo.checkDocuments run commit
  if m.mode = .finalization then repo.forcedAdvance run m

section Passed

variable {repo : Repository} {sha256 : String → String} {run : RunRecord}
variable {m : CompletionPayload} {commit : String}

theorem checkPhase_ok (hproducer : m.stage.isDocumentProducer = true)
    (h : repo.checkPhase run m commit = .ok ()) :
    ∃ before, m.headBeforeSha = some before ∧
      ∀ path ∈ repo.changed run.project.projectId before commit,
        run.artifactScope.phaseContains m.stage path = true := by
  unfold checkPhase at h
  split at h
  · cases h
  · next before hbefore =>
    refine ⟨before, hbefore, ?_⟩
    cases hpaths : repo.changedPaths run.project.projectId before commit with
    | error e => simp [hpaths, bind, Except.bind] at h
    | ok paths =>
      simp only [hpaths, bind, Except.bind, hproducer, if_true] at h
      split at h
      · cases h
      · next hinside =>
        rw [repo.changedPaths_ok hpaths]
        simpa using hinside

theorem checkDocuments_ok (h : repo.checkDocuments run commit = .ok ()) :
    ∀ path ∈ repo.changed run.project.projectId run.workspace.repositoryBaseSha commit,
      isPrdPath path = true → run.artifactScope.runAllowsDocumentPath path = true := by
  unfold checkDocuments at h
  cases hpaths : repo.changedPaths run.project.projectId run.workspace.repositoryBaseSha commit with
  | error e => simp [hpaths, bind, Except.bind] at h
  | ok paths =>
    simp only [hpaths, bind, Except.bind] at h
    split at h
    · cases h
    · next hinside =>
      rw [repo.changedPaths_ok hpaths]
      simpa using hinside

/-- An artifact that is checked is within the scope of its run, up to its commit. -/
theorem validateArtifactCompletion_ok
    (h : repo.validateArtifactCompletion sha256 run m = .ok ()) :
    ∃ commit, m.artifactCommitSha = some commit ∧ repo.checkPhase run m commit = .ok () ∧
      repo.checkDocuments run commit = .ok () := by
  unfold validateArtifactCompletion at h
  cases hnamed : namedArtifact m with
  | error e => simp [hnamed, bind, Except.bind] at h
  | ok named =>
    obtain ⟨commit, digest⟩ := named
    refine ⟨commit, namedArtifact_commit hnamed, ?_⟩
    simp only [hnamed, bind, Except.bind] at h
    cases hartifact : repo.checkArtifact sha256 run m commit digest with
    | error e => simp [hartifact] at h
    | ok u =>
      simp only [hartifact] at h
      cases hphase : repo.checkPhase run m commit with
      | error e => simp [hphase] at h
      | ok u =>
        simp only [hphase] at h
        cases hdocuments : repo.checkDocuments run commit with
        | error e => simp [hdocuments] at h
        | ok u => exact ⟨rfl, rfl⟩

end Passed

/-! ## Other differences -/

/-- The same repository with other differences between its commits. -/
def withDiffs (diffs : Nat → String → String → List Diff) : Repository := { repo with diffs }

theorem digestLines_withDiffs (diffs : Nat → String → String → List Diff) (project : Nat)
    (ref : String) (paths : List String) :
    (repo.withDiffs diffs).digestLines project ref paths = repo.digestLines project ref paths := by
  induction paths with
  | nil => rfl
  | cons path paths ih =>
    simp only [digestLines, ih]
    rfl

/-- The check of an artifact compares commits with the commit of the artifact only. -/
theorem validateArtifactCompletion_withDiffs {diffs : Nat → String → String → List Diff}
    {sha256 : String → String} {run : RunRecord} {m : CompletionPayload}
    (h : ∀ commit, m.artifactCommitSha = some commit →
      ∀ project before, diffs project before commit = repo.diffs project before commit) :
    (repo.withDiffs diffs).validateArtifactCompletion sha256 run m =
      repo.validateArtifactCompletion sha256 run m := by
  unfold validateArtifactCompletion
  cases hnamed : namedArtifact m with
  | error e => rfl
  | ok named =>
    obtain ⟨commit, digest⟩ := named
    have hcommit := namedArtifact_commit hnamed
    have hpaths : ∀ project before, (repo.withDiffs diffs).changedPaths project before commit =
        repo.changedPaths project before commit := fun project before => by
      simp only [changedPaths, withDiffs, h commit hcommit]
    have hphase : (repo.withDiffs diffs).checkPhase run m commit =
        repo.checkPhase run m commit := by
      simp only [checkPhase, hpaths]
    have hdocuments : (repo.withDiffs diffs).checkDocuments run commit =
        repo.checkDocuments run commit := by
      simp only [checkDocuments, hpaths]
    have hartifact : (repo.withDiffs diffs).checkArtifact sha256 run m commit digest =
        repo.checkArtifact sha256 run m commit digest := by
      simp only [checkArtifact, artifactDigest, digestLines_withDiffs]
      rfl
    simp only [bind, Except.bind, hphase, hdocuments, hartifact]
    rfl

end Repository

end HollysysController
