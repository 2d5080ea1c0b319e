import HollysysController.CompletionFields
import HollysysController.PrdScope
import HollysysController.Python.Codec

/-! # Validated records

The records that the bodies of Hermes tasks carry, with all their fields. A record carries what
its validators have checked, so that each one is a validated record, and its codec is the model
that the class declares. -/

namespace HollysysController.Record

open Python (Value Text Double Codec Fields Tuple Held codePoints)
open JsonSchema (Pattern)

/-! ## Leaf types -/

/-- The types that the validation library reads: URLs, times, and its conversions to integers.
What it writes for a URL or a time it reads back, and it reads an integer as itself. -/
structure Leaves where
  Url : Type
  urlText : Url → String
  url : Value → Option Url
  url_urlText : ∀ u, url (.str (codePoints (urlText u))) = some u
  DateTime : Type
  timeText : DateTime → String
  time : Value → Option DateTime
  time_timeText : ∀ t, time (.str (codePoints (timeText t))) = some t
  /-- The time names its time zone. -/
  aware : DateTime → Bool
  int : Value → Option Int
  int_int : ∀ n, int (.int n) = some n
  /-- `repr` of a float. No record has one. -/
  floatText : Double → Text

/-! ## Texts -/

abbrev Plain := Held fun _ => true

abbrev NonEmpty := Held fun s => s != ""

def messageIdPattern : Pattern := ⟨"^om_[A-Za-z0-9_-]+$", literalThen "om_" (1 ≤ ·) cardChar⟩

def chatIdPattern : Pattern := ⟨"^oc_[A-Za-z0-9_-]+$", literalThen "oc_" (1 ≤ ·) cardChar⟩

def openIdPattern : Pattern := ⟨"^ou_[A-Za-z0-9_-]+$", literalThen "ou_" (1 ≤ ·) cardChar⟩

def boardPattern : Pattern where
  text := "^[a-z0-9][a-z0-9_-]\x7b0,63\x7d$"
  holds s := literalThen "" (fun n => 1 ≤ n && n ≤ 64)
    (fun c => lowerAlnum c || c == '_' || c == '-') s && s.toList.head?.any lowerAlnum

abbrev Sha := Held shaPattern.holds

abbrev Digest := Held digestPattern.holds

abbrev TaskId := Held cardIdPattern.holds

abbrev Positive := { n : Int // 1 ≤ n }

def plain : Codec Plain := .text _

def nonEmpty : Codec NonEmpty := .text _

def sha : Codec Sha := .text _

def digest : Codec Digest := .text _

def taskId : Codec TaskId := .text _

def texts : Codec (List Plain) := plain.list

/-- A list with an item at least. -/
abbrev AtLeastOne (α : Type) := { items : List α // (!items.isEmpty) = true }

def someTexts : Codec (AtLeastOne Plain) := texts.checked _

/-! ## Enumerations -/

def repairKinds : List RepairKind := [.reviewFailure, .codeGateFailure, .frozenArtifactViolation]

def repairKindText : RepairKind → String
  | .reviewFailure => "review_failure"
  | .codeGateFailure => "code_gate_failure"
  | .frozenArtifactViolation => "frozen_artifact_violation"

inductive ChatType where
  | group | p2p
  deriving DecidableEq, Repr

def ChatType.value : ChatType → String
  | .group => "group"
  | .p2p => "p2p"

/-- The phase of a baseline. -/
inductive BaselinePhase where
  | prd | spec | plan | tasks
  deriving DecidableEq, Repr

def BaselinePhase.value : BaselinePhase → String
  | .prd => "prd"
  | .spec => "spec"
  | .plan => "plan"
  | .tasks => "tasks"

def stage : Codec Stage :=
  .choice stages Stage.value (by intro s; cases s <;> simp [stages]) (by decide)

def workMode : Codec WorkMode :=
  .choice workModes WorkMode.value (by intro m; cases m <;> simp [workModes]) (by decide)

def repairKind : Codec RepairKind :=
  .choice repairKinds repairKindText (by intro k; cases k <;> simp [repairKinds]) (by decide)

def disposition : Codec BaselineDisposition :=
  .choice baselineDispositions dispositionText
    (by intro d; cases d <;> simp [baselineDispositions]) (by decide)

def chatType : Codec ChatType :=
  .choice [.group, .p2p] ChatType.value (by intro t; cases t <;> simp) (by decide)

def baselinePhase : Codec BaselinePhase :=
  .choice [.prd, .spec, .plan, .tasks] BaselinePhase.value (by intro p; cases p <;> simp)
    (by decide)

/-! ## The run -/

structure FeishuOrigin where
  messageId : Held messageIdPattern.holds
  chatId : Held chatIdPattern.holds
  threadId : Option Plain
  chatType : ChatType
  initiatorOpenId : Held openIdPattern.holds

structure ProjectFacts where
  host : Plain
  projectId : Positive
  projectPath : Plain
  projectDisplayName : Plain
  defaultBranch : Plain

structure SourceFacts (L : Leaves) where
  prdPath : Plain
  prdCommitSha : Sha
  prdBlobSha : Sha
  prdBlobUrl : L.Url
  prdMrUrl : L.Url

structure WorkspaceFacts where
  board : Held boardPattern.holds
  checkout : Plain
  worktree : Plain
  branch : Plain
  targetBranch : Plain
  repositoryBaseSha : Sha

structure ArtifactScope where
  sourcePrdPath : Plain
  rootPath : Plain
  specPatterns : AtLeastOne Plain
  planPatterns : AtLeastOne Plain
  tasksPatterns : AtLeastOne Plain

structure RunRecord (L : Leaves) where
  runKey : Held runKeyPattern.holds
  sourceKey : Held sourceKeyPattern.holds
  runGeneration : Held runGenerationPattern.holds
  startedAt : L.DateTime
  project : ProjectFacts
  source : SourceFacts L
  artifactScope : ArtifactScope
  workspace : WorkspaceFacts
  origin : FeishuOrigin
  /-- `started_at must include a timezone`. -/
  aware : L.aware startedAt = true
  /-- `artifact scope must be derived from the source PRD`. -/
  derived : (artifactScope.sourcePrdPath == source.prdPath) = true

/-! ## The card -/

structure DeliveryBinding (L : Leaves) where
  mrIid : Positive
  mrUrl : L.Url
  creator : NonEmpty
  createdAt : L.DateTime
  initialHeadSha : Sha
  claimNoteId : Positive
  /-- `delivery created_at must include a timezone`. -/
  aware : L.aware createdAt = true

structure ArtifactBaseline (L : Leaves) where
  phase : BaselinePhase
  disposition : BaselineDisposition
  artifactPaths : AtLeastOne Plain
  artifactDigest : Digest
  artifactCommitSha : Sha
  sourceCardId : TaskId
  decisionUrls : List L.Url
  keyDecisions : List Plain
  unresolvedFindings : List Plain
  residualRisk : List Plain

/-- `validate_repair_contract`. -/
def repairContract (kind : RepairKind) (reviewAttempt reviewLimit : Option Positive)
    (relatedCardIds : List TaskId) (headSha : Option Sha)
    (codeModification codeModificationLimit : Option Positive) : Bool :=
  !(kind == .reviewFailure && (reviewAttempt.isNone || reviewLimit.isNone)) &&
  !(kind != .reviewFailure && (reviewAttempt.isSome || reviewLimit.isSome)) &&
  !(kind == .codeGateFailure && (relatedCardIds.isEmpty || headSha.isNone ||
    codeModification.isNone || codeModificationLimit.isNone)) &&
  !(codeModification.any fun n => codeModificationLimit.all fun limit => limit.val < n.val) &&
  !(kind != .codeGateFailure && (!relatedCardIds.isEmpty || headSha.isSome ||
    codeModification.isSome || codeModificationLimit.isSome)) &&
  !(reviewAttempt.any fun n => reviewLimit.any fun limit => limit.val < n.val)

structure RepairContext (L : Leaves) where
  kind : RepairKind
  triggerCardId : TaskId
  issues : AtLeastOne Plain
  reviewAttempt : Option Positive
  reviewLimit : Option Positive
  relatedCardIds : List TaskId
  headSha : Option Sha
  codeModification : Option Positive
  codeModificationLimit : Option Positive
  frozenBaselines : List (ArtifactBaseline L)
  contract : repairContract kind reviewAttempt reviewLimit relatedCardIds headSha
    codeModification codeModificationLimit = true

/-- The anchor of a `PurePosixPath`. Two slashes are an anchor of their own. -/
def pathAnchor (path : String) : List Char :=
  let slashes := path.toList.takeWhile (· == '/')
  if slashes.length = 2 then slashes else slashes.take 1

def scratchRoot : String := "/opt/data/scratch"

/-- `validate_scratch_dir`. -/
def scratchAllowed (path : String) : Bool :=
  let parts := pathAnchor path :: pathParts path
  let root := pathAnchor scratchRoot :: pathParts scratchRoot
  isAbsolutePath path && parts != root && parts.take root.length == root &&
    !parts.contains ['.', '.']

abbrev ScratchDir := { s : Plain // scratchAllowed s.val = true }

structure CardRecord (L : Leaves) where
  run : RunRecord L
  stage : Stage
  iteration : Positive
  mode : WorkMode
  idempotencyKey : Plain
  parentCardId : TaskId
  assignee : Plain
  skills : List Plain
  frozenBaselines : List (ArtifactBaseline L)
  repairContext : Option (RepairContext L)
  resumeAnswer : Option Plain
  resumedFromCardId : Option Plain
  expectedHeadSha : Option Sha
  contextDigest : Digest
  scratchDir : ScratchDir
  delivery : Option (DeliveryBinding L)

structure ExceptionCardRecord (L : Leaves) where
  run : RunRecord L
  parentCardId : TaskId
  idempotencyKey : Plain
  reason : Held fun s => decide (1 ≤ s.length ∧ s.length ≤ 1000)
  scratchDir : ScratchDir

/-! ## The models -/

/-- A field without a default. -/
def field {α : Type} {ts : List Type} (name : String) (c : Codec α) (rest : Fields ts) :
    Fields (α :: ts) :=
  .cons name c none rest

/-- A field with its default. -/
def withDefault {α : Type} {ts : List Type} (name : String) (c : Codec α) (default : α)
    (rest : Fields ts) : Fields (α :: ts) :=
  .cons name c (some default) rest

/-- A literal, with itself as its default. -/
def fixed {ts : List Type} (name text : String) (rest : Fields ts) : Fields (Unit :: ts) :=
  withDefault name (.literal text) () rest

@[simp] theorem names_nil : Fields.nil.names = [] := rfl

@[simp] theorem names_field {α : Type} {ts : List Type} (name : String) (c : Codec α)
    (rest : Fields ts) : (field name c rest).names = name :: rest.names := rfl

@[simp] theorem names_withDefault {α : Type} {ts : List Type} (name : String) (c : Codec α)
    (default : α) (rest : Fields ts) :
    (withDefault name c default rest).names = name :: rest.names := rfl

@[simp] theorem names_fixed {ts : List Type} (name text : String) (rest : Fields ts) :
    (fixed name text rest).names = name :: rest.names := rfl

def url (L : Leaves) : Codec L.Url := .leaf L.urlText L.url L.url_urlText

def time (L : Leaves) : Codec L.DateTime := .leaf L.timeText L.time L.time_timeText

def positive (L : Leaves) : Codec Positive := .atLeast L.int L.int_int 1

def count (L : Leaves) : Codec (Option Positive) :=
  (positive L).nullable (by simp [positive, Codec.atLeast])

def nullableSha : Codec (Option Sha) := sha.nullable (by simp [sha, Codec.text])

def nullableText : Codec (Option Plain) := plain.nullable (by simp [plain, Codec.text])

def feishuOrigin : Codec FeishuOrigin :=
  (Codec.model
    (fixed "platform" "feishu" <|
      field "message_id" (.text messageIdPattern.holds) <|
      field "chat_id" (.text chatIdPattern.holds) <|
      withDefault "thread_id" nullableText none <|
      field "chat_type" chatType <|
      field "initiator_open_id" (.text openIdPattern.holds) .nil) (by simp)).convert
    (fun (_, messageId, chatId, threadId, chatType, initiatorOpenId, _) =>
      { messageId, chatId, threadId, chatType, initiatorOpenId })
    (fun o => ((), o.messageId, o.chatId, o.threadId, o.chatType, o.initiatorOpenId, ()))
    (fun _ => rfl)

def projectFacts (L : Leaves) : Codec ProjectFacts :=
  (Codec.model
    (field "host" plain <|
      field "project_id" (positive L) <|
      field "project_path" plain <|
      field "project_display_name" plain <|
      field "default_branch" plain .nil) (by simp)).convert
    (fun (host, projectId, projectPath, projectDisplayName, defaultBranch, _) =>
      { host, projectId, projectPath, projectDisplayName, defaultBranch })
    (fun f => (f.host, f.projectId, f.projectPath, f.projectDisplayName, f.defaultBranch, ()))
    (fun _ => rfl)

def sourceFacts (L : Leaves) : Codec (SourceFacts L) :=
  (Codec.model
    (field "prd_path" plain <|
      field "prd_commit_sha" sha <|
      field "prd_blob_sha" sha <|
      field "prd_blob_url" (url L) <|
      field "prd_mr_url" (url L) .nil) (by simp)).convert
    (fun (prdPath, prdCommitSha, prdBlobSha, prdBlobUrl, prdMrUrl, _) =>
      { prdPath, prdCommitSha, prdBlobSha, prdBlobUrl, prdMrUrl })
    (fun f => (f.prdPath, f.prdCommitSha, f.prdBlobSha, f.prdBlobUrl, f.prdMrUrl, ()))
    (fun _ => rfl)

def workspaceFacts : Codec WorkspaceFacts :=
  (Codec.model
    (field "board" (.text boardPattern.holds) <|
      field "checkout" plain <|
      field "worktree" plain <|
      field "branch" plain <|
      field "target_branch" plain <|
      field "repository_base_sha" sha .nil) (by simp)).convert
    (fun (board, checkout, worktree, branch, targetBranch, repositoryBaseSha, _) =>
      { board, checkout, worktree, branch, targetBranch, repositoryBaseSha })
    (fun w => (w.board, w.checkout, w.worktree, w.branch, w.targetBranch, w.repositoryBaseSha, ()))
    (fun _ => rfl)

def artifactScope : Codec ArtifactScope :=
  (Codec.model
    (field "source_prd_path" plain <|
      field "root_path" plain <|
      field "spec_patterns" someTexts <|
      field "plan_patterns" someTexts <|
      field "tasks_patterns" someTexts .nil) (by simp)).convert
    (fun (sourcePrdPath, rootPath, specPatterns, planPatterns, tasksPatterns, _) =>
      { sourcePrdPath, rootPath, specPatterns, planPatterns, tasksPatterns })
    (fun s => (s.sourcePrdPath, s.rootPath, s.specPatterns, s.planPatterns, s.tasksPatterns, ()))
    (fun _ => rfl)

def runRecord (L : Leaves) : Codec (RunRecord L) :=
  ((Codec.model
    (fixed "protocol_version" "hollysys-controller/v4" <|
      fixed "kind" "run-init" <|
      field "run_key" (.text runKeyPattern.holds) <|
      field "source_key" (.text sourceKeyPattern.holds) <|
      field "run_generation" (.text runGenerationPattern.holds) <|
      field "started_at" (time L) <|
      fixed "provenance" "fresh_v4" <|
      field "project" (projectFacts L) <|
      field "source" (sourceFacts L) <|
      field "artifact_scope" artifactScope <|
      field "workspace" workspaceFacts <|
      field "origin" feishuOrigin .nil) (by simp)).checked
    (fun (_, _, _, _, _, startedAt, _, _, source, artifactScope, _) =>
      L.aware startedAt && artifactScope.sourcePrdPath == source.prdPath)).convert
    (fun ⟨(_, _, runKey, sourceKey, runGeneration, startedAt, _, project, source, artifactScope,
        workspace, origin, _), h⟩ =>
      { runKey, sourceKey, runGeneration, startedAt, project, source, artifactScope, workspace,
        origin, aware := (Bool.and_eq_true _ _ ▸ h).1, derived := (Bool.and_eq_true _ _ ▸ h).2 })
    (fun r => ⟨((), (), r.runKey, r.sourceKey, r.runGeneration, r.startedAt, (), r.project,
      r.source, r.artifactScope, r.workspace, r.origin, ()),
      (Bool.and_eq_true _ _).mpr ⟨r.aware, r.derived⟩⟩)
    (fun _ => rfl)

def deliveryBinding (L : Leaves) : Codec (DeliveryBinding L) :=
  ((Codec.model
    (field "mr_iid" (positive L) <|
      field "mr_url" (url L) <|
      field "creator" nonEmpty <|
      field "created_at" (time L) <|
      field "initial_head_sha" sha <|
      field "claim_note_id" (positive L) .nil) (by simp)).checked
    (fun (_, _, _, createdAt, _) => L.aware createdAt)).convert
    (fun ⟨(mrIid, mrUrl, creator, createdAt, initialHeadSha, claimNoteId, _), aware⟩ =>
      { mrIid, mrUrl, creator, createdAt, initialHeadSha, claimNoteId, aware })
    (fun d => ⟨(d.mrIid, d.mrUrl, d.creator, d.createdAt, d.initialHeadSha, d.claimNoteId, ()),
      d.aware⟩)
    (fun _ => rfl)

def artifactBaseline (L : Leaves) : Codec (ArtifactBaseline L) :=
  (Codec.model
    (field "phase" baselinePhase <|
      field "disposition" disposition <|
      field "artifact_paths" someTexts <|
      field "artifact_digest" digest <|
      field "artifact_commit_sha" sha <|
      field "source_card_id" taskId <|
      withDefault "decision_urls" (url L).list [] <|
      withDefault "key_decisions" texts [] <|
      withDefault "unresolved_findings" texts [] <|
      withDefault "residual_risk" texts [] .nil) (by simp)).convert
    (fun (phase, disposition, artifactPaths, artifactDigest, artifactCommitSha, sourceCardId,
        decisionUrls, keyDecisions, unresolvedFindings, residualRisk, _) =>
      { phase, disposition, artifactPaths, artifactDigest, artifactCommitSha, sourceCardId,
        decisionUrls, keyDecisions, unresolvedFindings, residualRisk })
    (fun b => (b.phase, b.disposition, b.artifactPaths, b.artifactDigest, b.artifactCommitSha,
      b.sourceCardId, b.decisionUrls, b.keyDecisions, b.unresolvedFindings, b.residualRisk, ()))
    (fun _ => rfl)

def repairContext (L : Leaves) : Codec (RepairContext L) :=
  ((Codec.model
    (field "kind" repairKind <|
      field "trigger_card_id" taskId <|
      field "issues" someTexts <|
      withDefault "review_attempt" (count L) none <|
      withDefault "review_limit" (count L) none <|
      withDefault "related_card_ids" taskId.list [] <|
      withDefault "head_sha" nullableSha none <|
      withDefault "code_modification" (count L) none <|
      withDefault "code_modification_limit" (count L) none <|
      withDefault "frozen_baselines" (artifactBaseline L).list [] .nil) (by simp)).checked
    (fun (kind, _, _, reviewAttempt, reviewLimit, relatedCardIds, headSha, codeModification,
        codeModificationLimit, _) =>
      repairContract kind reviewAttempt reviewLimit relatedCardIds headSha codeModification
        codeModificationLimit)).convert
    (fun ⟨(kind, triggerCardId, issues, reviewAttempt, reviewLimit, relatedCardIds, headSha,
        codeModification, codeModificationLimit, frozenBaselines, _), contract⟩ =>
      { kind, triggerCardId, issues, reviewAttempt, reviewLimit, relatedCardIds, headSha,
        codeModification, codeModificationLimit, frozenBaselines, contract })
    (fun r => ⟨(r.kind, r.triggerCardId, r.issues, r.reviewAttempt, r.reviewLimit,
      r.relatedCardIds, r.headSha, r.codeModification, r.codeModificationLimit,
      r.frozenBaselines, ()), r.contract⟩)
    (fun _ => rfl)

def scratchDir : Codec ScratchDir := plain.checked _

def cardRecord (L : Leaves) : Codec (CardRecord L) :=
  (Codec.model
    (fixed "protocol_version" "hollysys-controller/v4" <|
      fixed "kind" "work" <|
      field "run" (runRecord L) <|
      field "stage" stage <|
      field "iteration" (positive L) <|
      withDefault "mode" workMode .normal <|
      field "idempotency_key" plain <|
      field "parent_card_id" taskId <|
      field "assignee" plain <|
      field "skills" texts <|
      withDefault "frozen_baselines" (artifactBaseline L).list [] <|
      withDefault "repair_context" ((repairContext L).nullable
        (by simp [repairContext, Codec.convert, Codec.checked, Codec.model])) none <|
      withDefault "resume_answer" nullableText none <|
      withDefault "resumed_from_card_id" nullableText none <|
      withDefault "expected_head_sha" nullableSha none <|
      field "context_digest" digest <|
      field "scratch_dir" scratchDir <|
      withDefault "delivery" ((deliveryBinding L).nullable
        (by simp [deliveryBinding, Codec.convert, Codec.checked, Codec.model])) none .nil)
    (by simp)).convert
    (fun (_, _, run, stage, iteration, mode, idempotencyKey, parentCardId, assignee, skills,
        frozenBaselines, repairContext, resumeAnswer, resumedFromCardId, expectedHeadSha,
        contextDigest, scratchDir, delivery, _) =>
      { run, stage, iteration, mode, idempotencyKey, parentCardId, assignee, skills,
        frozenBaselines, repairContext, resumeAnswer, resumedFromCardId, expectedHeadSha,
        contextDigest, scratchDir, delivery })
    (fun c => ((), (), c.run, c.stage, c.iteration, c.mode, c.idempotencyKey, c.parentCardId,
      c.assignee, c.skills, c.frozenBaselines, c.repairContext, c.resumeAnswer,
      c.resumedFromCardId, c.expectedHeadSha, c.contextDigest, c.scratchDir, c.delivery, ()))
    (fun _ => rfl)

def exceptionCardRecord (L : Leaves) : Codec (ExceptionCardRecord L) :=
  (Codec.model
    (fixed "protocol_version" "hollysys-controller/v4" <|
      fixed "kind" "exception" <|
      field "run" (runRecord L) <|
      field "parent_card_id" taskId <|
      field "idempotency_key" plain <|
      field "reason" (.text _) <|
      field "scratch_dir" scratchDir .nil) (by simp)).convert
    (fun (_, _, run, parentCardId, idempotencyKey, reason, scratchDir, _) =>
      { run, parentCardId, idempotencyKey, reason, scratchDir })
    (fun e => ((), (), e.run, e.parentCardId, e.idempotencyKey, e.reason, e.scratchDir, ()))
    (fun _ => rfl)

end HollysysController.Record
