import HollysysController.Operations

/-! # The workflow

The stages of a run in order, and where an accepted completion leads. -/

namespace HollysysController

/-- `PRODUCER_FOR_REVIEW`. -/
def producerForReview : Stage → Option Stage
  | .specReview => some .specWrite
  | .planReview => some .planWrite
  | .tasksReview => some .tasksWrite
  | .test | .codeReview => some .implement
  | _ => none

/-- `DOCUMENT_REVIEW_FOR_PRODUCER`. -/
def documentReviewForProducer : Stage → Option Stage
  | .specWrite => some .specReview
  | .planWrite => some .planReview
  | .tasksWrite => some .tasksReview
  | _ => none

/-- `PHASE_FOR_STAGE`. -/
def phaseForStage : Stage → Phase
  | .specWrite | .specReview => .spec
  | .planWrite | .planReview => .plan
  | .tasksWrite | .tasksReview => .tasks
  | .implement | .test | .codeReview => .code

/-- `PRODUCER_FOR_PHASE`. -/
def producerForPhase : Phase → Stage
  | .spec => .specWrite
  | .plan => .planWrite
  | .tasks => .tasksWrite
  | .code => .implement

/-- `NEXT_PHASE_STAGE`. -/
def nextPhaseStage : Phase → Option Stage
  | .spec => some .planWrite
  | .plan => some .tasksWrite
  | .tasks => some .implement
  | .code => none

/-- `next_stage`, along `SEQUENCE`. -/
def nextStage : Stage → Option Stage
  | .specWrite => some .specReview
  | .specReview => some .planWrite
  | .planWrite => some .planReview
  | .planReview => some .tasksWrite
  | .tasksWrite => some .tasksReview
  | .tasksReview => some .implement
  | .implement => some .test
  | .test => some .codeReview
  | .codeReview => none

inductive Route where
  | next (stage : Stage) (mode : WorkMode)
  | merge
  | terminal (state : RunState)
  | blocked (reason : String)
  deriving DecidableEq, Repr

/-- The route of a stage that has a successor, `merge` at the end. -/
def Route.ofStage : Option Stage → Route
  | none => .merge
  | some s => .next s .normal

/-- Both gates looked at one MR and one head. -/
def sameDelivery (test review : CompletionPayload) : Bool :=
  test.mrIid == review.mrIid && test.mrUrl == review.mrUrl && test.headSha == review.headSha

/-- The route of a failed document review or of a `fail` no stage may return. -/
def routeFailure (cfg : Config) (p : CompletionPayload) (reviewAttempt : Nat) : Route :=
  match producerForReview p.stage with
  | none => .blocked s!"{p.stage.value} cannot return fail"
  | some target =>
    if p.stage.isDocumentReview then
      .next target (if cfg.documentReviewLimit ≤ reviewAttempt then .finalization else .normal)
    else .next target .normal

/-- `route_completion`. -/
def routeCompletion (cfg : Config) (p : CompletionPayload) (reviewAttempt : Nat)
    (pairedTest : Option CompletionPayload) (codeModifications : Nat) : Route :=
  if p.outcome = .cancelled then
    if p.stage.isCodeGate then .next .test .normal
    else .blocked s!"{p.stage.value} was cancelled"
  else match p.stage with
    | .test =>
      if p.outcome = .pass then .next .codeReview .normal
      else if cfg.codeModificationLimit ≤ codeModifications then .terminal .completedTestFailed
      else .next .implement .normal
    | .codeReview =>
      match pairedTest with
      | none => .next .test .normal
      | some test =>
        if !sameDelivery test p then .next .test .normal
        else if test.outcome = .pass ∧ p.outcome = .pass then .terminal .completedReady
        else if cfg.codeModificationLimit ≤ codeModifications then
          .terminal .completedWithFindings
        else .next .implement .normal
    | stage =>
      if p.outcome = .fail then routeFailure cfg p reviewAttempt
      else if p.mode = .finalization then Route.ofStage (nextPhaseStage (phaseForStage stage))
      else Route.ofStage (nextStage stage)

/-- `protocol_retry_allowed`. -/
def protocolRetryAllowed (cfg : Config) (invalidCount : Nat) : Bool :=
  decide (invalidCount ≤ cfg.protocolRetryLimit)

/-- No completion that meets its contract is routed to a merge: only CODE_REVIEW
has no successor, and a finalization belongs to a document producer. -/
theorem routeCompletion_ne_merge (cfg : Config) (m : CompletionMetadata) (reviewAttempt : Nat)
    (pairedTest : Option CompletionPayload) (codeModifications : Nat) :
    routeCompletion cfg m.toCompletionPayload reviewAttempt pairedTest codeModifications ≠
      .merge := by
  have hfin : m.mode = .finalization → m.stage.isDocumentProducer = true := by
    intro hm
    have h := m.baseline_check 0 (by simp [CompletionPayload.baselineContract])
    simpa [CompletionPayload.baselineContract, hm] using h
  have hfail : routeFailure cfg m.toCompletionPayload reviewAttempt ≠ .merge := by
    unfold routeFailure
    split <;> [skip; split] <;> simp
  cases hs : m.stage <;> simp only [hs, Stage.isDocumentProducer, reduceCtorEq] at hfin <;>
    simp only [routeCompletion, hs, Stage.isCodeGate, phaseForStage, nextPhaseStage, nextStage,
      Route.ofStage] <;>
    grind

/-- What ends the flow: a passed review of a passed test, a review of its test when the
budget is spent, or a failed test when the budget is spent. -/
theorem routeCompletion_terminal {cfg : Config} {p : CompletionPayload}
    {reviewAttempt codeModifications : Nat} {pairedTest : Option CompletionPayload}
    {state : RunState}
    (h : routeCompletion cfg p reviewAttempt pairedTest codeModifications = .terminal state) :
    (state = .completedReady ∧ p.stage = .codeReview ∧ p.outcome = .pass ∧
      ∃ test, pairedTest = some test ∧ test.outcome = .pass ∧ sameDelivery test p = true) ∨
    (state = .completedWithFindings ∧ p.stage = .codeReview ∧
      cfg.codeModificationLimit ≤ codeModifications ∧
      ∃ test, pairedTest = some test ∧ sameDelivery test p = true) ∨
    (state = .completedTestFailed ∧ p.stage = .test ∧ p.outcome = .fail ∧
      cfg.codeModificationLimit ≤ codeModifications) := by
  unfold routeCompletion at h
  split at h
  · split at h <;> cases h
  · next hcancelled =>
    split at h
    · next hstage =>
      split at h
      · cases h
      · next hpass =>
        split at h
        · next hlimit =>
          cases h
          refine .inr (.inr ⟨rfl, hstage, ?_, hlimit⟩)
          cases ho : p.outcome with
          | pass => exact absurd ho hpass
          | fail => rfl
          | cancelled => exact absurd ho hcancelled
        · cases h
    · next hstage =>
      split at h
      · cases h
      · next test =>
        split at h
        · cases h
        · next hsame =>
          have hdelivery : sameDelivery test p = true := by simpa using hsame
          split at h
          · next hpass =>
            cases h
            exact .inl ⟨rfl, hstage, hpass.2, test, rfl, hpass.1, hdelivery⟩
          · split at h
            · next hlimit =>
              cases h
              exact .inr (.inl ⟨rfl, hstage, hlimit, test, rfl, hdelivery⟩)
            · cases h
    · unfold routeFailure Route.ofStage at h
      split at h
      · split at h
        · cases h
        · split at h <;> cases h
      · split at h <;> split at h <;> cases h

end HollysysController
