import HollysysController.CompletionFields

/-! # The published schema of completions

`schemas/card-completion.schema.json`: the object that the model generates, and
the clauses that `generated_schema` writes beside it for the contract of the
stages. Workers check their completions against the schema, the controller
checks them with the model. -/

namespace HollysysController

open JsonSchema

/-! ## The schema -/

def stringSchema : Schema := .all [.type .string]

def patternSchema (p : Pattern) : Schema := .all [.pattern p, .type .string]

def filledSchema : Schema := .all [.minLength 1, .type .string]

/-- A string of `"format": "uri"`, which says nothing. -/
def uriSchema : Schema := .all [.minLength 1, .type .string]

def enumSchema (texts : List String) : Schema := .all [.enum texts, .type .string]

def arrayOf (s : Schema) : Schema := .all [.items s, .type .array]

def filledArrayOf (s : Schema) : Schema := .all [.items s, .minItems 1, .type .array]

def orNull (s : Schema) : Schema := .anyOf [s, .all [.type .null]]

/-- An object with `"additionalProperties": false`. -/
def closedObject (ps : List (String × Schema)) (names : List String) : Schema :=
  .all [.closed (ps.map (·.1)), .properties ps, .required names, .type .object]

def deterministicCheckSchema : Schema :=
  closedObject
    [("validator", filledSchema),
     ("validator_version", filledSchema),
     ("input_digest", patternSchema digestPattern),
     ("passed", .all [.type .boolean]),
     ("error_codes", arrayOf (patternSchema errorCodePattern)),
     ("result_digest", patternSchema digestPattern)]
    ["validator", "validator_version", "input_digest", "passed", "error_codes", "result_digest"]

def forcedAdvanceSchema : Schema :=
  closedObject
    [("review_limit", .all [.minimum 1, .type .integer]),
     ("final_review_card_id", patternSchema cardIdPattern),
     ("final_review_url", uriSchema),
     ("decision_url", uriSchema),
     ("baseline_commit_sha", patternSchema shaPattern),
     ("artifact_paths", filledArrayOf stringSchema),
     ("artifact_digest", patternSchema digestPattern),
     ("key_decisions", filledArrayOf stringSchema),
     ("unresolved_findings", arrayOf stringSchema),
     ("residual_risks", arrayOf stringSchema)]
    ["review_limit", "final_review_card_id", "final_review_url", "decision_url",
      "baseline_commit_sha", "artifact_paths", "artifact_digest", "key_decisions"]

def repositoryEvidenceSchema : Schema :=
  closedObject
    [("repository_base_sha", patternSchema shaPattern),
     ("inspected_paths", filledArrayOf filledSchema),
     ("existing_capabilities", filledArrayOf filledSchema),
     ("change_strategy", enumSchema ["extend_existing", "modify_existing", "extend_and_modify"]),
     ("reuse_decisions", filledArrayOf filledSchema)]
    ["repository_base_sha", "inspected_paths", "existing_capabilities", "change_strategy",
      "reuse_decisions"]

/-- `CompletionMetadata.model_json_schema`. -/
def completionObject : Schema :=
  closedObject
    [("protocol_version", .all [.const "hollysys-controller/v4", .type .string]),
     ("run_key", patternSchema runKeyPattern),
     ("source_key", patternSchema sourceKeyPattern),
     ("run_generation", patternSchema runGenerationPattern),
     ("context_digest", patternSchema digestPattern),
     ("stage", enumSchema ["spec-write", "spec-review", "plan-write", "plan-review",
       "tasks-write", "tasks-review", "implement", "test", "code-review"]),
     ("iteration", .all [.minimum 1, .type .integer]),
     ("mode", enumSchema ["normal", "finalization"]),
     ("outcome", enumSchema ["pass", "fail", "cancelled"]),
     ("project_id", .all [.exclusiveMinimum 0, .type .integer]),
     ("project_path", stringSchema),
     ("checkout", stringSchema),
     ("worktree", stringSchema),
     ("branch", stringSchema),
     ("target_branch", stringSchema),
     ("prd_path", stringSchema),
     ("prd_commit_sha", patternSchema shaPattern),
     ("prd_blob_sha", patternSchema shaPattern),
     ("prd_mr_url", uriSchema),
     ("kanban_card_id", patternSchema cardIdPattern),
     ("mr_iid", orNull (.all [.exclusiveMinimum 0, .type .integer])),
     ("mr_url", orNull uriSchema),
     ("head_before_sha", orNull (patternSchema shaPattern)),
     ("head_sha", orNull (patternSchema shaPattern)),
     ("artifact_commit_sha", orNull (patternSchema shaPattern)),
     ("artifact_digest", orNull (patternSchema digestPattern)),
     ("artifact_paths", arrayOf stringSchema),
     ("baseline_disposition",
       orNull (enumSchema ["source", "reviewed", "forced_after_review_limit"])),
     ("forced_advance", orNull forcedAdvanceSchema),
     ("repository_evidence", orNull repositoryEvidenceSchema),
     ("test_disposition", orNull (enumSchema ["executed", "skipped_unavailable"])),
     ("skip_reason", orNull filledSchema),
     ("verification", arrayOf stringSchema),
     ("gitlab_urls", arrayOf uriSchema),
     ("key_decisions", arrayOf stringSchema),
     ("issues", arrayOf stringSchema),
     ("residual_risk", arrayOf stringSchema),
     ("gate_phase", orNull (enumSchema ["implementation_entry", "implementation_completion",
       "migration_execution", "deployment_entry", "release_acceptance"])),
     ("gate_decision", orNull (enumSchema ["approved", "rejected"])),
     ("gate_reviewer", orNull (patternSchema reviewerPattern)),
     ("gate_reviewed_at", orNull stringSchema),
     ("gate_reason", orNull filledSchema),
     ("gate_evidence_refs", arrayOf filledSchema),
     ("gate_artifact_paths", arrayOf filledSchema),
     ("gate_artifact_commit_sha", orNull (patternSchema shaPattern)),
     ("gate_artifact_digest", orNull (patternSchema digestPattern)),
     ("contract_refs", arrayOf filledSchema),
     ("requirement_ids", arrayOf filledSchema),
     ("deterministic_checks", arrayOf deterministicCheckSchema)]
    ["protocol_version", "run_key", "source_key", "run_generation", "context_digest", "stage",
      "iteration", "outcome", "project_id", "project_path", "checkout", "worktree", "branch",
      "target_branch", "prd_path", "prd_commit_sha", "prd_blob_sha", "prd_mr_url",
      "kanban_card_id", "head_before_sha", "deterministic_checks"]

/-- The object of the schema is the one that the fields of the model generate. -/
theorem completionObject_eq (r : Readers) (cardId : String → CardId) :
    completionObject = (completionModel r cardId).schema := by
  rfl

/-! ## The clauses of the contract -/

def having (names : List String) (ps : List (String × Schema)) : Schema :=
  .all [.required names, .properties ps]

def filledArray : Schema := .all [.type .array, .minItems 1]

def filledSet : Schema := .all [.type .array, .minItems 1, .uniqueItems]

def nullSchema : Schema := .all [.type .null]

def documentReviewTexts : List String := ["spec-review", "plan-review", "tasks-review"]

def repositoryAuthorTexts : List String := ["spec-write", "plan-write", "tasks-write", "implement"]

def ifThen (test yes : Schema) : Schema := .cond test yes (.all [])

def failClause : Schema :=
  ifThen (having ["outcome"] [("outcome", .const "fail")])
    (having ["issues"] [("issues", filledArray)])

def reviewArtifactClause : Schema :=
  ifThen
    (having ["stage", "outcome"]
      [("stage", .enum documentReviewTexts), ("outcome", .enum ["pass", "fail"])])
    (having ["artifact_paths", "artifact_digest", "artifact_commit_sha"]
      [("artifact_paths", filledArray),
       ("artifact_digest", .all [.type .string, .pattern digestPattern]),
       ("artifact_commit_sha", .all [.type .string, .pattern shaPattern])])

def deliveryFields : Schema :=
  having ["mr_iid", "mr_url", "head_sha"]
    [("mr_iid", .all [.type .integer, .minimum 1]),
     ("mr_url", .all [.type .string]),
     ("head_sha", .all [.type .string, .pattern shaPattern])]

def authorDeliveryClause : Schema :=
  ifThen
    (having ["stage", "outcome"]
      [("stage", .enum repositoryAuthorTexts), ("outcome", .const "pass")])
    deliveryFields

def reviewBaselineClause : Schema :=
  ifThen
    (having ["stage", "outcome"]
      [("stage", .enum documentReviewTexts), ("outcome", .const "pass")])
    (having ["baseline_disposition"] [("baseline_disposition", .const "reviewed")])

def gateDeliveryClause : Schema :=
  ifThen
    (having ["stage", "outcome"]
      [("stage", .enum ["test", "code-review"]), ("outcome", .enum ["pass", "fail"])])
    deliveryFields

def testDispositionClause : Schema :=
  .cond
    (having ["stage", "outcome"]
      [("stage", .const "test"), ("outcome", .enum ["pass", "fail"])])
    (having ["test_disposition"]
      [("test_disposition", .enum ["executed", "skipped_unavailable"])])
    (.properties [("test_disposition", nullSchema), ("skip_reason", nullSchema)])

def authorEvidenceClause : Schema :=
  ifThen
    (having ["stage", "outcome"]
      [("stage", .enum repositoryAuthorTexts), ("outcome", .const "pass")])
    (having ["repository_evidence"] [("repository_evidence", .all [.type .object])])

def skippedTestClause : Schema :=
  .cond
    (having ["stage", "test_disposition"]
      [("stage", .const "test"), ("test_disposition", .const "skipped_unavailable")])
    (having ["outcome", "skip_reason", "verification", "residual_risk"]
      [("outcome", .const "pass"),
       ("skip_reason", .all [.type .string, .minLength 1]),
       ("verification", filledArray),
       ("residual_risk", filledArray)])
    (.properties [("skip_reason", nullSchema)])

def finalizationClause : Schema :=
  ifThen
    (having ["mode", "outcome"] [("mode", .const "finalization"), ("outcome", .const "pass")])
    (having ["artifact_paths", "artifact_digest", "artifact_commit_sha", "baseline_disposition",
        "forced_advance", "mr_iid", "mr_url"]
      [("artifact_paths", filledArray),
       ("baseline_disposition", .const "forced_after_review_limit"),
       ("forced_advance", .all [.type .object])])

def gateClause : Schema :=
  ifThen (having ["gate_phase"] [("gate_phase", .all [.type .string])])
    (having ["gate_decision", "gate_reviewer", "gate_reviewed_at", "gate_reason",
        "gate_evidence_refs", "gate_artifact_paths", "gate_artifact_commit_sha",
        "gate_artifact_digest", "contract_refs", "requirement_ids"]
      [("gate_evidence_refs", filledSet),
       ("gate_artifact_paths", filledSet),
       ("contract_refs", filledSet),
       ("requirement_ids", filledSet)])

/-- A passed review of `stage` names an approved gate of `phase`. -/
def reviewGateClause (stage phase : String) : Schema :=
  ifThen (having ["stage", "outcome"] [("stage", .const stage), ("outcome", .const "pass")])
    (having ["gate_phase", "gate_decision"]
      [("gate_phase", .const phase), ("gate_decision", .const "approved")])

def tasksGateClause : Schema := reviewGateClause "tasks-review" "implementation_entry"

def codeGateClause : Schema := reviewGateClause "code-review" "implementation_completion"

/-- `generated_schema`. -/
def completionSchema : Schema :=
  .all [completionObject,
    .all [failClause, reviewArtifactClause, authorDeliveryClause, reviewBaselineClause,
      gateDeliveryClause, testDispositionClause, authorEvidenceClause, skippedTestClause,
      finalizationClause, gateClause, tasksGateClause, codeGateClause]]

/-! ## What validated fields say of the payload -/

section Values

variable {j : Json} {key : String}

theorem textOf_some {t : String} (h : textOf j key = some t) :
    ∃ s, j.get key = some (.str s) ∧ JsonSchema.strip s = t := by
  unfold textOf at h
  split at h
  · rename_i s hget
    exact ⟨s, hget, Option.some.inj h⟩
  · cases h

theorem text_present (h : textOf j key ≠ none) : ∃ s, j.get key = some (.str s) := by
  obtain ⟨t, ht⟩ := Option.ne_none_iff_exists'.mp h
  obtain ⟨s, hs, -⟩ := textOf_some ht
  exact ⟨s, hs⟩

theorem texts_filled (h : textsOf j key ≠ []) :
    ∃ xs, j.get key = some (.arr xs) ∧ 1 ≤ xs.length := by
  unfold textsOf at h
  split at h
  · rename_i xs hget
    refine ⟨xs, hget, List.length_pos_iff.mpr fun hnil => h ?_⟩
    rw [hnil]
    rfl
  · exact absurd rfl h

theorem nat_present (h : natOf j key ≠ none) : ∃ q, j.get key = some (.number q) := by
  unfold natOf at h
  split at h
  · rename_i q hget
    exact ⟨q, hget⟩
  · exact absurd rfl h

theorem choiceOf_some {α : Type} {members : List α} {value : α → String} {v : α}
    (h : choiceOf members value j key = some v) : j.get key = some (.str (value v)) := by
  unfold choiceOf at h
  split at h
  · rename_i s hget
    have hv : value v = s := by simpa using List.find?_some h
    rw [hget, hv]
  · cases h

theorem choiceOf_mem {α : Type} {members : List α} {value : α → String} {s : String}
    (hmem : s ∈ members.map value) (hget : j.get key = some (.str s)) :
    ∃ v, choiceOf members value j key = some v := by
  obtain ⟨v, hv, hs⟩ := List.mem_map.mp hmem
  cases hfind : members.find? (value · == s) with
  | none => exact absurd (beq_iff_eq.mpr hs) (List.find?_eq_none.mp hfind v hv)
  | some w => exact ⟨w, by simp [choiceOf, hget, hfind]⟩

theorem model_present {α : Type} {read : Json → α} (h : modelOf read j key ≠ none) :
    ∃ fields, j.get key = some (.obj fields) := by
  unfold modelOf at h
  split at h
  · rename_i fields hget
    exact ⟨fields, hget⟩
  · exact absurd rfl h

theorem reviewedAt_present {r : Readers} (h : (reviewedAt r j).map (·.1) ≠ none) :
    ∃ s, j.get "gate_reviewed_at" = some (.str s) := by
  unfold reviewedAt at h
  split at h
  · rename_i s hget
    exact ⟨s, hget⟩
  · exact absurd rfl h

end Values

/-- A payload of the types of the fields, without whitespace around its strings. -/
structure Typed (r : Readers) (j : Json) : Prop where
  object : ∃ entries, j = .obj entries
  trimmed : j.trimmed = true
  fields : Ty.acceptsFields r completionFields j = true

namespace Typed

variable {r : Readers} {j : Json} (h : Typed r j)
include h

theorem field {f : String × Bool × Ty} (hf : f ∈ completionFields) {v : Json}
    (hget : j.get f.1 = some v) : f.2.2.accepts r v = true := by
  have hfield := Ty.acceptsFields_iff.mp h.fields f hf
  rw [hget] at hfield
  exact hfield

theorem choice {α : Type} {members : List α} {value : α → String} {name : String}
    (hf : (name, true, Ty.enum (members.map value)) ∈ completionFields) :
    ∃ v, choiceOf members value j name = some v := by
  have hfield := Ty.acceptsFields_iff.mp h.fields _ hf
  cases hget : j.get name with
  | none =>
    rw [hget] at hfield
    cases hfield
  | some v =>
    rw [hget] at hfield
    cases v <;> simp only [Ty.accepts, Bool.false_eq_true] at hfield
    case str s =>
      exact choiceOf_mem (List.contains_iff_mem.mp hfield) hget

theorem stage_get (cardId : String → CardId) :
    j.get "stage" = some (.str (readCompletion r cardId j).stage.value) := by
  have hf : ("stage", true, Ty.enum (stages.map (·.value))) ∈ completionFields := by
    simp [completionFields, required]
  obtain ⟨v, hv⟩ := h.choice hf
  have hstage : (readCompletion r cardId j).stage = v := by simp [readCompletion, hv]
  rw [hstage, choiceOf_some hv]

theorem outcome_get (cardId : String → CardId) :
    j.get "outcome" = some (.str (readCompletion r cardId j).outcome.value) := by
  have hf : ("outcome", true, Ty.enum (outcomes.map (·.value))) ∈ completionFields := by
    simp [completionFields, required]
  obtain ⟨v, hv⟩ := h.choice hf
  have houtcome : (readCompletion r cardId j).outcome = v := by simp [readCompletion, hv]
  rw [houtcome, choiceOf_some hv]

/-- A text that is there matches the pattern of its field. -/
theorem pattern_get {name : String} {pat : Pattern}
    (hf : (name, false, Ty.nullable (.pattern pat)) ∈ completionFields)
    (hne : textOf j name ≠ none) : ∃ s, j.get name = some (.str s) ∧ pat.holds s = true := by
  obtain ⟨s, hget⟩ := text_present hne
  have hs := h.field hf hget
  have htrim := trimmed_get h.trimmed hget
  simp only [Json.trimmed, beq_iff_eq] at htrim
  simp only [Ty.accepts, htrim] at hs
  exact ⟨s, hget, hs⟩

theorem artifact_digest_get (hne : textOf j "artifact_digest" ≠ none) :
    ∃ s, j.get "artifact_digest" = some (.str s) ∧ digestPattern.holds s = true := by
  have hf : ("artifact_digest", false, Ty.nullable (.pattern digestPattern)) ∈
      completionFields := by
    simp [completionFields, optional]
  exact h.pattern_get hf hne

theorem artifact_commit_sha_get (hne : textOf j "artifact_commit_sha" ≠ none) :
    ∃ s, j.get "artifact_commit_sha" = some (.str s) ∧ shaPattern.holds s = true := by
  have hf : ("artifact_commit_sha", false, Ty.nullable (.pattern shaPattern)) ∈
      completionFields := by
    simp [completionFields, optional]
  exact h.pattern_get hf hne

theorem head_sha_get (hne : textOf j "head_sha" ≠ none) :
    ∃ s, j.get "head_sha" = some (.str s) ∧ shaPattern.holds s = true := by
  have hf : ("head_sha", false, Ty.nullable (.pattern shaPattern)) ∈ completionFields := by
    simp [completionFields, optional]
  exact h.pattern_get hf hne

theorem mr_iid_get (hne : natOf j "mr_iid" ≠ none) :
    ∃ q, j.get "mr_iid" = some (.number q) ∧ q.den = 1 ∧ 1 ≤ q := by
  obtain ⟨q, hget⟩ := nat_present hne
  have hq := h.field (f := ("mr_iid", false, .nullable (.above 0)))
    (by simp [completionFields, optional]) hget
  simp only [Ty.accepts, Bool.and_eq_true, beq_iff_eq, decide_eq_true_eq] at hq
  obtain ⟨hden, hpos⟩ := hq
  refine ⟨q, hget, hden, ?_⟩
  rw [Rat.le_iff]
  rw [Rat.lt_iff] at hpos
  have hnum : 0 < q.num := by simpa using hpos
  simp only [hden]
  simp
  omega

/-- The texts of a list without repetitions are distinct values. -/
theorem texts_distinct {name : String}
    (hf : (name, false, Ty.list 0 .nonEmpty) ∈ completionFields) (hne : textsOf j name ≠ [])
    (hnodup : (textsOf j name).Nodup) :
    ∃ xs, j.get name = some (.arr xs) ∧ 1 ≤ xs.length ∧ Json.distinct xs = true := by
  obtain ⟨xs, hget, hlen⟩ := texts_filled hne
  refine ⟨xs, hget, hlen, ?_⟩
  have hxs := h.field hf hget
  simp only [Ty.accepts, Nat.zero_le, decide_true, Bool.true_and, List.all_eq_true] at hxs
  have htrim := trimmed_get h.trimmed hget
  rw [Json.trimmed, trimmedItems_iff] at htrim
  have hmap : xs = (textsOf j name).map .str := by
    rw [textsOf, hget]
    clear hget hnodup hne hlen hf h
    induction xs with
    | nil => rfl
    | cons x xs ih =>
      have hx := hxs x List.mem_cons_self
      have htx := htrim x List.mem_cons_self
      cases x <;> simp only [Bool.false_eq_true] at hx
      case str s =>
        simp only [Json.trimmed, beq_iff_eq] at htx
        have ih := ih (fun y hy => hxs y (List.mem_cons_of_mem _ hy))
          (fun y hy => htrim y (List.mem_cons_of_mem _ hy))
        simp only [List.filterMap_cons, htx, List.map_cons, ← ih]
  rw [hmap]
  exact Json.distinct_str hnodup

/-- A field that may be null either is, or is left out, or names a disposition. -/
theorem test_disposition_get (cardId : String → CardId) :
    ((readCompletion r cardId j).testDisposition = none ∧
      (j.get "test_disposition" = none ∨ j.get "test_disposition" = some .null)) ∨
    ∃ d, (readCompletion r cardId j).testDisposition = some d ∧
      j.get "test_disposition" = some (.str d.value) := by
  cases hget : j.get "test_disposition" with
  | none => exact .inl ⟨by simp [readCompletion, choiceOf, hget], .inl rfl⟩
  | some v =>
    have hfield := h.field
      (f := ("test_disposition", false, .nullable (.enum (testDispositions.map (·.value)))))
      (by simp [completionFields, optional]) hget
    cases v <;> simp only [Ty.accepts, Bool.false_eq_true] at hfield
    case null => exact .inl ⟨by simp [readCompletion, choiceOf, hget], .inr rfl⟩
    case str s =>
      obtain ⟨d, hd⟩ := choiceOf_mem (List.contains_iff_mem.mp hfield) hget
      exact .inr ⟨d, hd, by rw [← hget, choiceOf_some hd]⟩

theorem skip_reason_get (cardId : String → CardId) :
    ((readCompletion r cardId j).skipReason = none ∧
      (j.get "skip_reason" = none ∨ j.get "skip_reason" = some .null)) ∨
    ∃ s, (readCompletion r cardId j).skipReason.isSome ∧ j.get "skip_reason" = some (.str s) ∧
      1 ≤ s.length := by
  cases hget : j.get "skip_reason" with
  | none => exact .inl ⟨by simp [readCompletion, textOf, hget], .inl rfl⟩
  | some v =>
    have hfield := h.field (f := ("skip_reason", false, .nullable .nonEmpty))
      (by simp [completionFields, optional]) hget
    cases v <;> simp only [Ty.accepts, Bool.false_eq_true] at hfield
    case null => exact .inl ⟨by simp [readCompletion, textOf, hget], .inr rfl⟩
    case str s =>
      have htrim := trimmed_get h.trimmed hget
      simp only [Json.trimmed, beq_iff_eq] at htrim
      rw [htrim] at hfield
      have hlen := Ty.length_pos (s := s) (by simpa using hfield)
      exact .inr ⟨s, by simp [readCompletion, textOf, hget], rfl, hlen⟩

/-- A list of texts is filled when its array is. -/
theorem filled_iff {name : String} (hf : (name, false, Ty.list 0 .text) ∈ completionFields) :
    ((j.get name).isSome && (match j.get name with
      | some v => filledArray.valid v
      | none => true)) = !(textsOf j name).isEmpty := by
  cases hget : j.get name with
  | none => simp [textsOf, hget]
  | some v =>
    have hfield := h.field hf hget
    cases v <;> simp only [Ty.accepts, Bool.false_eq_true] at hfield
    case arr xs =>
      cases xs with
      | nil => simp [textsOf, hget, filledArray, Schema.valid, Schema.validAll, JsonType.has]
      | cons x xs =>
        simp only [List.all_cons, Bool.and_eq_true] at hfield
        cases x <;> simp [JsonType.has] at hfield
        simp [textsOf, hget, filledArray, Schema.valid, Schema.validAll, JsonType.has]

end Typed

/-! ## Completions that meet the contract -/

theorem having_valid {j : Json} (hobj : ∃ entries, j = .obj entries) (names : List String)
    (ps : List (String × Schema)) : (having names ps).valid j =
      ((names.all fun name => (j.get name).isSome) && Schema.validProps ps j) := by
  obtain ⟨entries, rfl⟩ := hobj
  simp [having, Schema.valid, Schema.validAll]

theorem ifThen_valid {test yes : Schema} {j : Json} {b : Bool} (htest : test.valid j = b)
    (hyes : b = true → yes.valid j = true) : (ifThen test yes).valid j = true := by
  rw [ifThen, Schema.valid, htest]
  cases b with
  | true => exact hyes rfl
  | false => rfl

section Texts

variable (s : Stage) (o : Outcome)

theorem documentReview_text : documentReviewTexts.contains s.value = s.isDocumentReview := by
  cases s <;> decide

theorem repositoryAuthor_text :
    repositoryAuthorTexts.contains s.value = s.isRepositoryAuthor := by
  cases s <;> decide

theorem codeGate_text : ["test", "code-review"].contains s.value = s.isCodeGate := by
  cases s <;> decide

theorem test_text : (s.value == "test") = (s == .test) := by
  cases s <;> decide

theorem pass_text : (o.value == "pass") = (o == .pass) := by
  cases o <;> decide

theorem fail_text : (o.value == "fail") = (o == .fail) := by
  cases o <;> decide

theorem verdict_text : ["pass", "fail"].contains o.value = (o == .pass || o == .fail) := by
  cases o <;> decide

end Texts

section Dispositions

variable {r : Readers} {j : Json} (h : Typed r j) (cardId : String → CardId)
include h

theorem stage_outcome_test (s o : Schema) :
    (having ["stage", "outcome"] [("stage", s), ("outcome", o)]).valid j =
      (s.valid (.str (readCompletion r cardId j).stage.value) &&
        o.valid (.str (readCompletion r cardId j).outcome.value)) := by
  rw [having_valid h.object]
  simp [Schema.validProps, h.stage_get cardId, h.outcome_get cardId]

theorem testDispositionClause_eq : testDispositionClause.valid j =
    if (readCompletion r cardId j).stage == .test && (readCompletion r cardId j).verdict then
      (readCompletion r cardId j).testDisposition.isSome
    else (readCompletion r cardId j).testDisposition.isNone &&
      (readCompletion r cardId j).skipReason.isNone := by
  rw [testDispositionClause, Schema.valid, stage_outcome_test h cardId, having_valid h.object]
  simp only [Schema.valid, test_text, verdict_text, CompletionPayload.verdict]
  congr 1
  · rcases h.test_disposition_get cardId with ⟨hnone, hget | hget⟩ | ⟨d, hd, hget⟩
    · simp [hnone, hget]
    · simp [hnone, hget, Schema.validProps, Schema.valid]
    · cases d <;> simp [hd, hget, Schema.validProps, Schema.valid, TestDisposition.value]
  · rcases h.test_disposition_get cardId with ⟨hnone, hget | hget⟩ | ⟨d, hd, hget⟩ <;>
      rcases h.skip_reason_get cardId with ⟨hnone', hget' | hget'⟩ | ⟨s, hsome', hget', -⟩ <;>
      simp [*, Schema.validProps, nullSchema, Schema.valid, Schema.validAll, JsonType.has]

theorem skippedTestClause_eq : skippedTestClause.valid j =
    if (readCompletion r cardId j).stage == .test &&
        (readCompletion r cardId j).testDisposition == some .skippedUnavailable then
      (readCompletion r cardId j).outcome == .pass &&
        (readCompletion r cardId j).skipReason.isSome &&
        !(readCompletion r cardId j).verification.isEmpty &&
        !(readCompletion r cardId j).residualRisk.isEmpty
    else (readCompletion r cardId j).skipReason.isNone := by
  have htest : (having ["stage", "test_disposition"]
      [("stage", .const "test"), ("test_disposition", .const "skipped_unavailable")]).valid j =
      ((readCompletion r cardId j).stage == .test &&
        (readCompletion r cardId j).testDisposition == some .skippedUnavailable) := by
    rw [having_valid h.object]
    rcases h.test_disposition_get cardId with ⟨hnone, hget | hget⟩ | ⟨d, hd, hget⟩
    · simp [hnone, hget]
    · simp [hnone, hget, Schema.validProps, Schema.valid]
    · cases d <;>
        simp [hd, hget, h.stage_get cardId, Schema.validProps, Schema.valid, test_text,
          TestDisposition.value]
  rw [skippedTestClause, Schema.valid, htest, having_valid h.object]
  have hlists : ∀ name ∈ ["verification", "residual_risk"],
      (name, false, Ty.list 0 .text) ∈ completionFields := by
    simp [completionFields, optional]
  have hverification := h.filled_iff (hlists "verification" (by simp))
  have hresidual := h.filled_iff (hlists "residual_risk" (by simp))
  congr 1
  · change _ = (_ && _ && !(textsOf j "verification").isEmpty &&
      !(textsOf j "residual_risk").isEmpty)
    rw [← hverification, ← hresidual]
    simp only [List.all_cons, List.all_nil, Schema.validProps, h.outcome_get cardId,
      Option.isSome_some, Schema.valid, pass_text, Bool.true_and, Bool.and_true]
    rcases h.skip_reason_get cardId with ⟨hnone, hget | hget⟩ | ⟨s, hsome, hget, hlen⟩
    · simp [hnone, hget]
    · simp [hnone, hget, Schema.valid, Schema.validAll, JsonType.has]
    · simp only [hsome, hget, Option.isSome_some, Schema.valid, Schema.validAll, JsonType.has,
        hlen, decide_true, Bool.true_and, Bool.and_true]
      ac_rfl
  · rcases h.skip_reason_get cardId with ⟨hnone, hget | hget⟩ | ⟨s, hsome, hget, -⟩ <;>
      simp [*, Schema.validProps, nullSchema, Schema.valid, Schema.validAll, JsonType.has]

/-- The two clauses about the test fields say what the contract says about them. -/
theorem dispositionClauses_iff :
    (testDispositionClause.valid j = true ∧ skippedTestClause.valid j = true) ↔
      ∀ c ∈ ((readCompletion r cardId j).evidenceContract.drop 4).take 4, c.1 = false := by
  rw [testDispositionClause_eq h cardId, skippedTestClause_eq h cardId]
  generalize readCompletion r cardId j = p
  simp only [CompletionPayload.evidenceContract, List.drop_succ_cons, List.drop_zero,
    List.take_succ_cons, List.take_zero, List.forall_mem_cons, List.not_mem_nil,
    false_imp_iff, implies_true, and_true, CompletionPayload.verdict]
  obtain ho | ho | ho : p.outcome = .pass ∨ p.outcome = .fail ∨ p.outcome = .cancelled := by
    cases p.outcome <;> simp
  all_goals
    by_cases hs : p.stage = .test
    all_goals
      rcases hd : p.testDisposition with _ | (_ | _)
      all_goals
        cases hr : p.skipReason <;> simp [ho, hs]

end Dispositions

/-- A typed payload whose completion conforms to the contract of its stage. -/
structure Conforms (r : Readers) (cardId : String → CardId) (j : Json) : Prop extends Typed r j where
  contract : ∀ c ∈ (readCompletion r cardId j).stageContract, c.1 = false

namespace Conforms

variable {r : Readers} {cardId : String → CardId} {j : Json} (h : Conforms r cardId j)
include h

theorem gate_check (i : Nat) (hi : i < (readCompletion r cardId j).gateContract.length) :
    (readCompletion r cardId j).gateContract[i].1 = false :=
  h.contract _ (by simp [CompletionPayload.stageContract])

theorem evidence_check (i : Nat) (hi : i < (readCompletion r cardId j).evidenceContract.length) :
    (readCompletion r cardId j).evidenceContract[i].1 = false :=
  h.contract _ (by simp [CompletionPayload.stageContract])

theorem baseline_check (i : Nat) (hi : i < (readCompletion r cardId j).baselineContract.length) :
    (readCompletion r cardId j).baselineContract[i].1 = false :=
  h.contract _ (by simp [CompletionPayload.stageContract])

theorem failClause_valid : failClause.valid j = true := by
  have htest : (having ["outcome"] [("outcome", .const "fail")]).valid j =
      ((readCompletion r cardId j).outcome == .fail) := by
    rw [having_valid h.object]
    simp [Schema.validProps, Schema.valid, h.outcome_get cardId, fail_text]
  refine ifThen_valid htest fun hfail => ?_
  have hcheck := h.evidence_check 0 (by simp [CompletionPayload.evidenceContract])
  simp only [CompletionPayload.evidenceContract, List.getElem_cons_zero, hfail,
    Bool.true_and, List.isEmpty_eq_false_iff] at hcheck
  obtain ⟨xs, hget, hlen⟩ := texts_filled hcheck
  rw [having_valid h.object]
  simp [Schema.validProps, filledArray, Schema.valid, Schema.validAll, JsonType.has, hget, hlen]

theorem reviewArtifactClause_valid : reviewArtifactClause.valid j = true := by
  refine ifThen_valid (stage_outcome_test h.toTyped cardId _ _) fun htest => ?_
  simp only [Schema.valid, documentReview_text, verdict_text, Bool.and_eq_true] at htest
  have hcheck := h.evidence_check 2 (by simp [CompletionPayload.evidenceContract])
  simp only [CompletionPayload.evidenceContract, List.getElem_cons_succ, List.getElem_cons_zero,
    CompletionPayload.verdict, htest.1, htest.2, Bool.true_and, Bool.or_eq_false_iff,
    List.isEmpty_eq_false_iff, Option.isNone_eq_false_iff] at hcheck
  obtain ⟨⟨hpaths, hdigest⟩, hsha⟩ := hcheck
  obtain ⟨xs, hxs, hlen⟩ := texts_filled hpaths
  obtain ⟨d, hd, hdp⟩ := h.artifact_digest_get (Option.isSome_iff_ne_none.mp hdigest)
  obtain ⟨c, hcommit, hcp⟩ := h.artifact_commit_sha_get (Option.isSome_iff_ne_none.mp hsha)
  rw [having_valid h.object]
  simp [Schema.validProps, filledArray, Schema.valid, Schema.validAll, JsonType.has, hxs, hlen,
    hd, hdp, hcommit, hcp]

theorem deliveryFields_valid (hiid : natOf j "mr_iid" ≠ none) (hurl : textOf j "mr_url" ≠ none)
    (hhead : textOf j "head_sha" ≠ none) : deliveryFields.valid j = true := by
  obtain ⟨q, hq, hden, hone⟩ := h.mr_iid_get hiid
  obtain ⟨u, hu⟩ := text_present hurl
  obtain ⟨s, hs, hsp⟩ := h.head_sha_get hhead
  rw [deliveryFields, having_valid h.object]
  simp [Schema.validProps, Schema.valid, Schema.validAll, JsonType.has, hq, hden, hone, hu, hs, hsp]

theorem authorDeliveryClause_valid : authorDeliveryClause.valid j = true := by
  refine ifThen_valid (stage_outcome_test h.toTyped cardId _ _) fun htest => ?_
  simp only [Schema.valid, repositoryAuthor_text, pass_text, Bool.and_eq_true] at htest
  have hcheck := h.evidence_check 9 (by simp [CompletionPayload.evidenceContract])
  simp only [CompletionPayload.evidenceContract, List.getElem_cons_succ, List.getElem_cons_zero,
    htest.1, htest.2, Bool.true_and, Bool.or_eq_false_iff, Option.isNone_eq_false_iff,
    Option.isSome_iff_ne_none] at hcheck
  obtain ⟨⟨hiid, hurl⟩, hhead⟩ := hcheck
  exact h.deliveryFields_valid hiid hurl hhead

theorem gateDeliveryClause_valid : gateDeliveryClause.valid j = true := by
  refine ifThen_valid (stage_outcome_test h.toTyped cardId _ _) fun htest => ?_
  simp only [Schema.valid, codeGate_text, verdict_text, Bool.and_eq_true] at htest
  have hcheck := h.evidence_check 3 (by simp [CompletionPayload.evidenceContract])
  simp only [CompletionPayload.evidenceContract, List.getElem_cons_succ, List.getElem_cons_zero,
    CompletionPayload.verdict, htest.1, htest.2, Bool.true_and, Bool.or_eq_false_iff,
    Option.isNone_eq_false_iff, Option.isSome_iff_ne_none] at hcheck
  obtain ⟨⟨hiid, hurl⟩, hhead⟩ := hcheck
  exact h.deliveryFields_valid hiid hurl hhead

theorem reviewBaselineClause_valid : reviewBaselineClause.valid j = true := by
  refine ifThen_valid (stage_outcome_test h.toTyped cardId _ _) fun htest => ?_
  simp only [Schema.valid, documentReview_text, pass_text, Bool.and_eq_true] at htest
  have hcheck := h.baseline_check 5 (by simp [CompletionPayload.baselineContract])
  simp only [CompletionPayload.baselineContract, List.getElem_cons_succ, List.getElem_cons_zero,
    htest.1, htest.2, Bool.true_and, bne_eq_false_iff_eq] at hcheck
  have hget := choiceOf_some hcheck
  rw [having_valid h.object]
  simp [Schema.validProps, Schema.valid, hget, dispositionText]

theorem authorEvidenceClause_valid : authorEvidenceClause.valid j = true := by
  refine ifThen_valid (stage_outcome_test h.toTyped cardId _ _) fun htest => ?_
  simp only [Schema.valid, repositoryAuthor_text, pass_text, Bool.and_eq_true] at htest
  have hcheck := h.evidence_check 8 (by simp [CompletionPayload.evidenceContract])
  simp only [CompletionPayload.evidenceContract, List.getElem_cons_succ, List.getElem_cons_zero,
    htest.1, htest.2, Bool.true_and, Option.isNone_eq_false_iff,
    Option.isSome_iff_ne_none] at hcheck
  obtain ⟨fields, hget⟩ := model_present hcheck
  rw [having_valid h.object]
  simp [Schema.validProps, Schema.valid, Schema.validAll, JsonType.has, hget]

theorem reviewGate_valid {stage phase : String} {s : Stage} {g : GatePhase}
    (hstage : ∀ t : Stage, (t.value == stage) = (t == s)) (hphase : gatePhaseText g = phase)
    (hcheck : ((readCompletion r cardId j).stage == s &&
      (readCompletion r cardId j).outcome == .pass && ((readCompletion r cardId j).gatePhase != some g ||
        (readCompletion r cardId j).gateDecision != some .approved)) = false) :
    (reviewGateClause stage phase).valid j = true := by
  refine ifThen_valid (stage_outcome_test h.toTyped cardId _ _) fun htest => ?_
  simp only [Schema.valid, hstage, pass_text, Bool.and_eq_true] at htest
  simp only [htest.1, htest.2, Bool.true_and, Bool.or_eq_false_iff, bne_eq_false_iff_eq] at hcheck
  have hgate := choiceOf_some hcheck.1
  have hdecision := choiceOf_some hcheck.2
  rw [having_valid h.object]
  simp [Schema.validProps, Schema.valid, hgate, hdecision, hphase, gateDecisionText]

theorem tasksGateClause_valid : tasksGateClause.valid j = true :=
  h.reviewGate_valid (fun t => by cases t <;> decide) rfl
    (h.gate_check 10 (by simp [CompletionPayload.gateContract]))

theorem codeGateClause_valid : codeGateClause.valid j = true :=
  h.reviewGate_valid (fun t => by cases t <;> decide) rfl
    (h.gate_check 11 (by simp [CompletionPayload.gateContract]))

theorem finalizationClause_valid : finalizationClause.valid j = true := by
  have hobj := h.object
  refine ifThen_valid rfl fun htest => ?_
  rw [having_valid hobj] at htest
  have hmode : (readCompletion r cardId j).mode = .finalization := by
    cases hget : j.get "mode" with
    | none => simp [hget] at htest
    | some v =>
      cases v <;> simp [hget, Schema.validProps, Schema.valid] at htest
      simp [readCompletion, choiceOf, hget, htest, workModes, WorkMode.value]
  have hpass : (readCompletion r cardId j).outcome = .pass := by
    simp only [Schema.validProps, h.outcome_get cardId, Schema.valid, pass_text, Bool.and_eq_true,
      beq_iff_eq] at htest
    exact htest.2.2.1
  have hcheck := h.baseline_check 1 (by simp [CompletionPayload.baselineContract])
  simp only [CompletionPayload.baselineContract, List.getElem_cons_succ, List.getElem_cons_zero,
    hmode, hpass, beq_self_eq_true, Bool.true_and, Bool.or_eq_false_iff,
    List.isEmpty_eq_false_iff, Option.isNone_eq_false_iff, Option.isSome_iff_ne_none,
    bne_eq_false_iff_eq] at hcheck
  obtain ⟨⟨⟨⟨⟨⟨hpaths, hdigest⟩, hsha⟩, hiid⟩, hurl⟩, hbaseline⟩, hforced⟩ := hcheck
  obtain ⟨xs, hxs, hlen⟩ := texts_filled hpaths
  obtain ⟨d, hd⟩ := text_present hdigest
  obtain ⟨c, hc⟩ := text_present hsha
  obtain ⟨q, hq⟩ := nat_present hiid
  obtain ⟨u, hu⟩ := text_present hurl
  have hb := choiceOf_some hbaseline
  obtain ⟨fields, hf⟩ := model_present hforced
  rw [having_valid hobj]
  simp [Schema.validProps, Schema.valid, Schema.validAll, filledArray, JsonType.has, hxs, hlen, hd,
    hc, hq, hu, hb, hf, dispositionText]

theorem gateClause_valid : gateClause.valid j = true := by
  have hobj := h.object
  refine ifThen_valid rfl fun htest => ?_
  rw [having_valid hobj] at htest
  have hphase : ((readCompletion r cardId j).gatePhase).isSome := by
    cases hget : j.get "gate_phase" with
    | none => simp [hget] at htest
    | some v =>
      have hfield := h.field
        (f := ("gate_phase", false, .nullable (.enum (gatePhases.map gatePhaseText))))
        (by simp [completionFields, optional]) hget
      simp only [Schema.validProps, hget, Schema.valid, Schema.validAll] at htest
      cases v <;> simp [JsonType.has] at htest
      case str s =>
        simp only [Ty.accepts, List.contains_iff_mem] at hfield
        obtain ⟨g, hg⟩ := choiceOf_mem hfield hget
        simp [readCompletion, hg]
  have hcheck := h.gate_check 1 (by simp [CompletionPayload.gateContract])
  simp only [CompletionPayload.gateContract, List.getElem_cons_succ, List.getElem_cons_zero,
    hphase, Bool.true_and, Bool.or_eq_false_iff, List.isEmpty_eq_false_iff,
    Option.isNone_eq_false_iff] at hcheck
  obtain ⟨⟨⟨⟨⟨⟨⟨⟨⟨hdecision, hreviewer⟩, hat⟩, hreason⟩, hrefs⟩, hpaths⟩, hsha⟩, hdigest⟩, hcontracts⟩,
    hrequirements⟩ := hcheck
  have hdecided : (readCompletion r cardId j).gateDecided = true := by
    simp [CompletionPayload.gateDecided, hphase, hdecision, hat]
  have hr' := h.gate_check 5 (by simp [CompletionPayload.gateContract])
  have hc' := h.gate_check 6 (by simp [CompletionPayload.gateContract])
  have he' := h.gate_check 7 (by simp [CompletionPayload.gateContract])
  have hp' := h.gate_check 8 (by simp [CompletionPayload.gateContract])
  simp only [CompletionPayload.gateContract, List.getElem_cons_succ, List.getElem_cons_zero,
    hdecided, Bool.true_and, Bool.not_eq_false', decide_eq_true_eq] at hr' hc' he' hp'
  have hfield : ∀ name ∈ ["gate_evidence_refs", "gate_artifact_paths", "contract_refs",
      "requirement_ids"], (name, false, Ty.list 0 .nonEmpty) ∈ completionFields := by
    simp [completionFields, optional]
  obtain ⟨es, hes, helen, hedist⟩ := h.texts_distinct (hfield _ (by simp)) hrefs he'
  obtain ⟨ps, hps, hplen, hpdist⟩ := h.texts_distinct (hfield _ (by simp)) hpaths hp'
  obtain ⟨cs, hcs, hclen, hcdist⟩ := h.texts_distinct (hfield _ (by simp)) hcontracts hc'
  obtain ⟨rs, hrs, hrlen, hrdist⟩ := h.texts_distinct (hfield _ (by simp)) hrequirements hr'
  obtain ⟨d, hd⟩ := Option.isSome_iff_exists.mp hdecision
  have hd := choiceOf_some hd
  obtain ⟨w, hw⟩ := text_present (Option.isSome_iff_ne_none.mp hreviewer)
  obtain ⟨t, ht⟩ := reviewedAt_present (Option.isSome_iff_ne_none.mp hat)
  obtain ⟨m, hm⟩ := text_present (Option.isSome_iff_ne_none.mp hreason)
  obtain ⟨c, hc⟩ := text_present (Option.isSome_iff_ne_none.mp hsha)
  obtain ⟨g, hg⟩ := text_present (Option.isSome_iff_ne_none.mp hdigest)
  rw [having_valid hobj]
  simp [Schema.validProps, Schema.valid, Schema.validAll, filledSet, JsonType.has, hes, helen,
    hedist, hps, hplen, hpdist, hcs, hclen, hcdist, hrs, hrlen, hrdist, hd, hw, ht, hm, hc, hg]

theorem clauses_valid :
    Schema.valid (.all [failClause, reviewArtifactClause, authorDeliveryClause,
      reviewBaselineClause, gateDeliveryClause, testDispositionClause, authorEvidenceClause,
      skippedTestClause, finalizationClause, gateClause, tasksGateClause, codeGateClause]) j =
      true := by
  have hdispositions := (dispositionClauses_iff h.toTyped cardId).mpr fun c hc =>
    h.contract c (by
      have hc := List.mem_of_mem_drop (List.mem_of_mem_take hc)
      simp [CompletionPayload.stageContract, hc])
  rw [Schema.valid, Schema.validAll_iff]
  simp only [List.forall_mem_cons, List.not_mem_nil, false_imp_iff, implies_true, and_true]
  exact ⟨h.failClause_valid, h.reviewArtifactClause_valid, h.authorDeliveryClause_valid,
    h.reviewBaselineClause_valid, h.gateDeliveryClause_valid, hdispositions.1,
    h.authorEvidenceClause_valid, hdispositions.2, h.finalizationClause_valid,
    h.gateClause_valid, h.tasksGateClause_valid, h.codeGateClause_valid⟩

end Conforms

section Agreement

variable {r : Readers} {cardId : String → CardId} {j : Json}

theorem accepts_iff : (completionModel r cardId).accepts r j = true ↔
    ∃ entries, j = .obj entries ∧
      (entries.all fun entry => (Ty.names completionFields).contains entry.1) = true ∧
      Ty.acceptsFields r completionFields j = true ∧ meetsContract r cardId j = true := by
  cases j <;> simp [completionModel, Ty.accepts, and_assoc]

theorem meetsContract_iff : meetsContract r cardId j = true ↔
    (∀ c ∈ (readCompletion r cardId j).stageContract, c.1 = false) ∧
      ((readCompletion r cardId j).gateDecided && (reviewedAt r j).any (!·.2)) = false := by
  simp only [meetsContract, Bool.and_eq_true, List.all_eq_true, Bool.not_eq_true']

theorem conforms_of_accepts (htrim : j.trimmed = true)
    (haccepts : (completionModel r cardId).accepts r j = true) : Conforms r cardId j := by
  obtain ⟨entries, hentries, -, hfields, hcheck⟩ := accepts_iff.mp haccepts
  exact ⟨⟨⟨entries, hentries⟩, htrim, hfields⟩, (meetsContract_iff.mp hcheck).1⟩

/-- The schema accepts what the model accepts. -/
theorem schema_of_accepts (hurl : r.isUrl "" = false) (htrim : j.trimmed = true)
    (haccepts : (completionModel r cardId).accepts r j = true) :
    completionSchema.valid j = true := by
  have hobject := Ty.accepts_valid hurl _ j htrim haccepts
  rw [← completionObject_eq] at hobject
  have hclauses := (conforms_of_accepts htrim haccepts).clauses_valid
  rw [completionSchema, Schema.valid, Schema.validAll, hobject, Schema.validAll, hclauses]
  rfl

/-- The payload with other test fields. -/
def withTestFields (j disposition reason : Json) : Json :=
  (j.set "test_disposition" disposition).set "skip_reason" reason

variable {disposition reason : Json}

theorem withTestFields_get {key : String} (hobj : ∃ entries, j = .obj entries) :
    (withTestFields j disposition reason).get key =
      if key = "skip_reason" then some reason
      else if key = "test_disposition" then some disposition else j.get key := by
  rw [withTestFields, Json.get_set (Json.set_obj hobj), Json.get_set hobj]

/-- Only the two fields of the completion change. -/
theorem readCompletion_withTestFields (hobj : ∃ entries, j = .obj entries) :
    readCompletion r cardId (withTestFields j disposition reason) =
      { readCompletion r cardId j with
        testDisposition := choiceOf testDispositions (·.value)
          (withTestFields j disposition reason) "test_disposition"
        skipReason := textOf (withTestFields j disposition reason) "skip_reason" } := by
  simp [readCompletion, textOf, textsOf, natOf, choiceOf, modelOf, reviewedAt,
    withTestFields_get hobj]

theorem test_disposition_valid
    (h : (orNull (enumSchema ["executed", "skipped_unavailable"])).valid disposition = true) :
    (Ty.nullable (.enum (testDispositions.map (·.value)))).accepts r disposition = true ∧
      disposition.trimmed = true := by
  cases disposition <;>
    simp [orNull, enumSchema, Schema.valid, Schema.validAny, Schema.validAll, JsonType.has] at h
  case null => exact ⟨rfl, rfl⟩
  case str s =>
    rcases h with rfl | rfl
    · exact ⟨by simp [Ty.accepts, testDispositions, TestDisposition.value], by decide⟩
    · exact ⟨by simp [Ty.accepts, testDispositions, TestDisposition.value], by decide⟩

theorem skip_reason_valid (htrim : reason.trimmed = true)
    (h : (orNull filledSchema).valid reason = true) :
    (Ty.nullable .nonEmpty).accepts r reason = true := by
  cases reason <;>
    simp [orNull, filledSchema, Schema.valid, Schema.validAny, Schema.validAll, JsonType.has] at h
  case null => rfl
  case str s =>
    simp only [Json.trimmed, beq_iff_eq] at htrim
    simp only [Ty.accepts, htrim]
    cases hs : s != "" with
    | true => rfl
    | false =>
      rw [bne_eq_false_iff_eq] at hs
      subst hs
      exact absurd h (by decide)

theorem test_disposition_field :
    ∀ f ∈ completionFields, f.1 = "test_disposition" →
      f.2 = (false, .nullable (.enum (testDispositions.map (·.value)))) := by
  simp [completionFields, required, optional]

theorem skip_reason_field :
    ∀ f ∈ completionFields, f.1 = "skip_reason" → f.2 = (false, .nullable .nonEmpty) := by
  simp [completionFields, required, optional]

/-- The other fields keep their types. -/
theorem fields_withTestFields (h : Typed r j)
    (hdisposition :
      (Ty.nullable (.enum (testDispositions.map (·.value)))).accepts r disposition = true)
    (hreason : (Ty.nullable .nonEmpty).accepts r reason = true) :
    Ty.acceptsFields r completionFields (withTestFields j disposition reason) = true := by
  rw [Ty.acceptsFields_iff]
  intro f hf
  rw [withTestFields_get h.object]
  by_cases hskip : f.1 = "skip_reason"
  · simp only [hskip, if_true, skip_reason_field f hf hskip, hreason]
  · by_cases htest : f.1 = "test_disposition"
    · simp only [htest, if_true, test_disposition_field f hf htest]
      exact hdisposition
    · simp only [hskip, htest, if_false]
      exact Ty.acceptsFields_iff.mp h.fields f hf

/-- What the contract says besides the test fields. -/
theorem contract_of_others {p : CompletionPayload} {d : Option TestDisposition}
    {s : Option String} (h : ∀ c ∈ p.stageContract, c.1 = false)
    (htest : ∀ c ∈ ((CompletionPayload.evidenceContract
      { p with testDisposition := d, skipReason := s }).drop 4).take 4, c.1 = false) :
    ∀ c ∈ CompletionPayload.stageContract { p with testDisposition := d, skipReason := s },
      c.1 = false := by
  have hevidence : ∀ c ∈ p.evidenceContract, c.1 = false := fun c hc =>
    h c (by simp [CompletionPayload.stageContract, hc])
  intro c hc
  rcases List.mem_append.mp hc with hc | hc
  · rcases List.mem_append.mp hc with hc | hc
    · exact h c (List.mem_append_left _ (List.mem_append_left _ hc))
    · rw [← List.take_append_drop 4 (CompletionPayload.evidenceContract _)] at hc
      rcases List.mem_append.mp hc with hc | hc
      · exact hevidence c (List.mem_of_mem_take (i := 4) hc)
      · rw [← List.take_append_drop 4 (List.drop 4 _)] at hc
        rcases List.mem_append.mp hc with hc | hc
        · exact htest c hc
        · exact hevidence c (List.mem_of_mem_drop (i := 4) (List.mem_of_mem_drop (i := 4) hc))
  · exact h c (List.mem_append_right _ hc)

/-- The model accepts other test fields when the schema does. -/
theorem accepts_withTestFields (htrim : j.trimmed = true)
    (haccepts : (completionModel r cardId).accepts r j = true) (hreason : reason.trimmed = true)
    (hvalid : completionSchema.valid (withTestFields j disposition reason) = true) :
    (completionModel r cardId).accepts r (withTestFields j disposition reason) = true := by
  have h := conforms_of_accepts htrim haccepts
  have hget (key : String) : (withTestFields j disposition reason).get key = _ :=
    withTestFields_get h.object
  rw [completionSchema, Schema.valid, Schema.validAll_iff] at hvalid
  have hobject := hvalid completionObject List.mem_cons_self
  have hclauses := hvalid _ (List.mem_cons_of_mem _ List.mem_cons_self)
  rw [Schema.valid, Schema.validAll_iff] at hclauses
  rw [completionObject, closedObject, Schema.valid, Schema.validAll_iff] at hobject
  have hclosed := hobject _ List.mem_cons_self
  have hprops := hobject _ (List.mem_cons_of_mem _ List.mem_cons_self)
  rw [Schema.valid, Schema.validProps_iff] at hprops
  obtain ⟨hd, hdtrim⟩ := test_disposition_valid (r := r)
    (hprops ("test_disposition", _) (by simp; rfl) disposition (by simp [hget]))
  have hr := skip_reason_valid (r := r) hreason
    (hprops ("skip_reason", _) (by simp; rfl) reason (by simp [hget]))
  obtain ⟨entries, hentries⟩ : ∃ entries, withTestFields j disposition reason = .obj entries :=
    Json.set_obj (Json.set_obj h.object)
  have htyped : Typed r (withTestFields j disposition reason) :=
    ⟨⟨entries, hentries⟩, trimmed_set (trimmed_set htrim hdtrim) hreason,
      fields_withTestFields h.toTyped hd hr⟩
  have htest := (dispositionClauses_iff htyped cardId).mp
    ⟨hclauses _ (by simp), hclauses _ (by simp)⟩
  rw [readCompletion_withTestFields h.object] at htest
  have hcontract := contract_of_others h.contract htest
  obtain ⟨-, -, -, -, hcheck⟩ := accepts_iff.mp haccepts
  have hzone := (meetsContract_iff.mp hcheck).2
  refine accepts_iff.mpr ⟨entries, hentries, ?_, htyped.fields, meetsContract_iff.mpr ⟨?_, ?_⟩⟩
  · rw [hentries] at hclosed
    exact hclosed
  · rw [readCompletion_withTestFields h.object]
    exact hcontract
  · rw [readCompletion_withTestFields h.object]
    have hat : reviewedAt r (withTestFields j disposition reason) = reviewedAt r j := by
      simp [reviewedAt, hget]
    rw [hat]
    exact hzone

/-- **The published schema and the model agree on completions.** The schema accepts every
completion that the model accepts; and with any other test fields such a completion is accepted
by both or by neither. Of a URL it is only used that the empty text is none. -/
theorem schema_model_agree (r : Readers) (cardId : String → CardId) (hurl : r.isUrl "" = false)
    (payload : Json) (htrim : payload.trimmed = true)
    (haccepts : (completionModel r cardId).accepts r payload = true) :
    completionSchema.valid payload = true ∧
      ∀ disposition reason : Json, reason.trimmed = true →
        ((completionModel r cardId).accepts r (withTestFields payload disposition reason) = true ↔
          completionSchema.valid (withTestFields payload disposition reason) = true) := by
  refine ⟨schema_of_accepts hurl htrim haccepts, fun disposition reason hreason => ⟨?_, ?_⟩⟩
  · intro hmodel
    have hobj := (conforms_of_accepts htrim haccepts).object
    obtain ⟨entries, hentries, -, hfields, -⟩ := accepts_iff.mp hmodel
    have hd := Ty.acceptsFields_iff.mp hfields
      ("test_disposition", false, .nullable (.enum (testDispositions.map (·.value))))
      (by simp [completionFields, optional])
    rw [withTestFields_get hobj] at hd
    have hdtrim : disposition.trimmed = true := by
      cases disposition <;> simp [Ty.accepts, testDispositions, TestDisposition.value] at hd
      case null => rfl
      case str s => rcases hd with rfl | rfl <;> decide
    exact schema_of_accepts hurl (trimmed_set (trimmed_set htrim hdtrim) hreason) hmodel
  · exact accepts_withTestFields htrim haccepts hreason

end Agreement

def sampleReaders : Readers where
  isUrl s := literalThen "https://" (1 ≤ ·) (fun _ => true) s
  datetime _ := none

/-- A passed test. -/
def testedPayload : Json :=
  .obj
    [("protocol_version", .str "hollysys-controller/v4"),
     ("run_key", .str "hollysys-aaaaaaaaaaaaaaaaaaaa"),
     ("source_key", .str "source-bbbbbbbbbbbbbbbbbbbb"),
     ("run_generation", .str "cccccccccccccccccccc"),
     ("context_digest", .str
       "0123456789abcdef0123456789abcdef0123456789abcdef0123456789abcdef"),
     ("stage", .str "test"),
     ("iteration", .number 1),
     ("outcome", .str "pass"),
     ("project_id", .number 7),
     ("project_path", .str "group/project"),
     ("checkout", .str "/work/project"),
     ("worktree", .str "/work/project-tree"),
     ("branch", .str "feature/prd"),
     ("target_branch", .str "main"),
     ("prd_path", .str "docs/prd.md"),
     ("prd_commit_sha", .str "0123456789abcdef0123456789abcdef01234567"),
     ("prd_blob_sha", .str "0123456789abcdef0123456789abcdef01234567"),
     ("prd_mr_url", .str "https://gitlab.example.com/group/project/-/merge_requests/1"),
     ("kanban_card_id", .str "t_test1"),
     ("mr_iid", .number 2),
     ("mr_url", .str "https://gitlab.example.com/group/project/-/merge_requests/2"),
     ("head_before_sha", .str "0123456789abcdef0123456789abcdef01234567"),
     ("head_sha", .str "0123456789abcdef0123456789abcdef01234567"),
     ("test_disposition", .str "executed"),
     ("verification", .arr [.str "unit tests passed"]),
     ("residual_risk", .arr [.str "browser interaction remains unverified"]),
     ("deterministic_checks", .arr [])]

theorem schema_model_agree_tested : completionSchema.valid testedPayload = true ∧
    ∀ disposition reason : Json, reason.trimmed = true →
      ((completionModel sampleReaders (⟨·.length⟩)).accepts sampleReaders
          (withTestFields testedPayload disposition reason) = true ↔
        completionSchema.valid (withTestFields testedPayload disposition reason) = true) := by
  have hsample : sampleReaders.isUrl "" = false ∧ testedPayload.trimmed = true ∧
      (completionModel sampleReaders (⟨·.length⟩)).accepts sampleReaders testedPayload = true := by
    decide +kernel
  obtain ⟨hurl, htrim, haccepts⟩ := hsample
  exact schema_model_agree sampleReaders (⟨·.length⟩) hurl testedPayload htrim haccepts

end HollysysController
