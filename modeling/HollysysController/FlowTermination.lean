import HollysysController.WriterScope

/-! # The end of the workflow

The routes of accepted completions form a graph with cycles: a failed review goes back
to its writer, a failed gate back to the implementation. The counters that the service
keeps over the history bound every cycle, so a run comes to a terminal route. -/

namespace HollysysController

open Durable

/-! ## Accepted completions -/

/-- A done work card with a completion that was validated, decided and not marked as a
protocol error. -/
structure Completed where
  item : HistoryItem
  m : CompletionMetadata
  work : item.isWork = true
  done : item.task.status = .done
  stage : item.managed.stage = .work m.stage
  metadata : validatePersistedCompletionMetadata item.task.latestMetadata = .ok m
  unmarked : item.hasComment protocolErrorMarker = false
  decided : m.outcome ≠ .cancelled

/-- The ledger says that the attempt of the card was accepted, and its completion still
answers the card. -/
structure Completed.Recorded (c : Completed) (w : World) : Prop where
  accepted : (w.store.cardRuntime (c.item.managed.board, c.item.managed.cardId)).any
    (·.attemptStatus == "completed_accepted") = true
  identity : ∃ card, parseCardBody c.item.task.body = .ok card ∧
    machine.eval (validateCompletionIdentity card.run c.item c.m.toCompletionPayload) w =
      (.returned (), w)

/-- The history of a run: what comes before its work, then its completed work. -/
def flowHistory (prior : List HistoryItem) (completed : List Completed) : List HistoryItem :=
  prior ++ completed.map (·.item)

/-- The completed cards of a stage. -/
def completedAt (completed : List Completed) (s : Stage) : Nat :=
  completed.countP (·.m.stage == s)

namespace Completed

variable (c : Completed)

/-- An author completes its card with a pass. -/
theorem author_pass (hauthor : c.m.stage.isRepositoryAuthor = true) : c.m.outcome = .pass := by
  have hfail := c.m.evidence_check 1 (by simp [CompletionPayload.evidenceContract])
  simp only [CompletionPayload.evidenceContract, List.getElem_cons_succ, List.getElem_cons_zero]
    at hfail
  have hdecided := c.decided
  cases houtcome : c.m.outcome with
  | pass => rfl
  | cancelled => exact absurd houtcome hdecided
  | fail =>
    cases hstage : c.m.stage <;> simp_all [Stage.isRepositoryAuthor, Stage.isDocumentProducer,
      Stage.isDocumentReview, Stage.isCodeGate]

/-- Only the writer of a document completes a finalization. -/
theorem mode_normal (hproducer : c.m.stage.isDocumentProducer = false) : c.m.mode = .normal := by
  have hfinal := c.m.baseline_check 0 (by simp [CompletionPayload.baselineContract])
  cases hmode : c.m.mode with
  | normal => rfl
  | finalization => simp [CompletionPayload.baselineContract, hmode, hproducer] at hfinal

theorem atStage_iff (s : Stage) : c.item.atStage s = (c.m.stage == s) := by
  simp [HistoryItem.atStage, c.stage]

theorem countsAsReview_eq {s : Stage} (hs : s.isDocumentReview = true) :
    countsAsReview s c.item = (c.m.stage == s) := by
  have hverdict : (c.m.outcome == .pass || c.m.outcome == .fail) = true := by
    have hdecided := c.decided
    cases houtcome : c.m.outcome <;> simp_all
  simp [countsAsReview, c.work, c.atStage_iff, hs, c.done, c.unmarked, c.metadata, hverdict]

/-- A recorded implementation counts, and nothing else does. -/
theorem countsAsImplementation_eval {w : World} (h : c.m.stage = .implement → c.Recorded w) :
    machine.eval (countsAsImplementation c.item) w =
      (.returned (c.m.stage == .implement), w) := by
  unfold countsAsImplementation
  by_cases hstage : c.m.stage = .implement
  · have hpass := c.author_pass (by rw [hstage]; rfl)
    obtain ⟨card, hcard, hidentity⟩ := (h hstage).identity
    have hread : machine.eval (caught do
        let m ← fromText (validatePersistedCompletionMetadata c.item.task.latestMetadata)
        let card ← fromText (parseCardBody c.item.task.body)
        validateCompletionIdentity card.run c.item m.toCompletionPayload
        pure m) w = (.returned (.ok c.m), w) := by
      rw [c.metadata, hcard]
      refine machine.eval_bind_of (a := Except.ok c.m) (machine.eval_attempt_ok.mpr ?_)
      exact machine.eval_bind_of hidentity
    rw [if_pos (by simp [c.work, c.atStage_iff, hstage, c.done])]
    have hruntime : machine.eval (store (.cardRuntime c.item.managed.board c.item.managed.cardId)) w =
        (.returned (w.store.cardRuntime (c.item.managed.board, c.item.managed.cardId)), w) := rfl
    refine (machine.eval_bind_of hruntime).trans ?_
    rw [if_pos (h hstage).accepted]
    refine (machine.eval_bind_of hread).trans ?_
    simp [hpass, hstage]
  · rw [if_neg (by simp [c.atStage_iff, hstage])]
    simp [hstage]

end Completed

/-! ## The counters -/

section Counters

variable {prior : List HistoryItem} {completed : List Completed} {w : World}

theorem reviewAttempts_flow (hprior : ∀ i ∈ prior, i.isWork = false) {s : Stage}
    (hs : s.isDocumentReview = true) :
    reviewAttempts (flowHistory prior completed) s = completedAt completed s := by
  have hnone : prior.countP (countsAsReview s) = 0 := by
    refine List.countP_eq_zero.mpr fun i hi => ?_
    simp [countsAsReview, hprior i hi]
  simp only [reviewAttempts, flowHistory, List.countP_append, hnone, List.countP_map, Nat.zero_add]
  refine List.countP_congr fun c _ => ?_
  rw [Function.comp_apply, c.countsAsReview_eq hs]

theorem implementationVersions_flow (hrecorded : ∀ c ∈ completed, c.m.stage = .implement → c.Recorded w) :
    machine.eval (implementationVersions (completed.map (·.item))) w =
      (.returned (completedAt completed .implement), w) := by
  induction completed with
  | nil => rfl
  | cons c completed ih =>
    have hc := c.countsAsImplementation_eval (hrecorded c (by simp))
    have hrest := ih fun d hd => hrecorded d (by simp [hd])
    refine (machine.eval_bind_of hc).trans ((machine.eval_bind_of hrest).trans ?_)
    simp [completedAt, List.countP_cons]

theorem implementationVersions_prior {rest : List HistoryItem} {n : Nat}
    (hprior : ∀ i ∈ prior, i.isWork = false)
    (hrest : machine.eval (implementationVersions rest) w = (.returned n, w)) :
    machine.eval (implementationVersions (prior ++ rest)) w = (.returned n, w) := by
  induction prior with
  | nil => exact hrest
  | cons i prior ih =>
    have hi : machine.eval (countsAsImplementation i) w = (.returned false, w) := by
      simp [countsAsImplementation, hprior i (by simp)]
    exact (machine.eval_bind_of hi).trans
      (machine.eval_bind_of (ih fun j hj => hprior j (by simp [hj])))

/-- `_code_modification_count` over the history of a flow. -/
theorem codeModificationCount_flow (hprior : ∀ i ∈ prior, i.isWork = false)
    (hrecorded : ∀ c ∈ completed, c.m.stage = .implement → c.Recorded w) :
    machine.eval (codeModificationCount (flowHistory prior completed)) w =
      (.returned (completedAt completed .implement - 1), w) :=
  machine.eval_bind_of (implementationVersions_prior hprior
    (implementationVersions_flow hrecorded))

end Counters

/-! ## Flows -/

/-- The route that the service takes after a completion, with the counters it keeps over
the history. A review whose test is missing, at another head or without its gate has none. -/
def Routed (cfg : Config) (run : RunRecord) (w : World) (items : List HistoryItem)
    (m : CompletionPayload) (route : Route) : Prop :=
  ∃ modifications pairing,
    machine.eval (codeModificationCount items) w = (.returned modifications, w) ∧
    machine.eval (pairedTest run items m) w = (.returned pairing, w) ∧ pairing ≠ .missing ∧
    route = routeCompletion cfg m (reviewAttempts items m.stage)
      (pairing.test.map (·.toCompletionPayload)) modifications

/-- The accepted completions of a run, each on the card that the route before it
dispatched, and the route after the last one. -/
inductive Flow (cfg : Config) (run : RunRecord) (prior : List HistoryItem) :
    List Completed → Route → Prop where
  | start : Flow cfg run prior [] (.next .specWrite .normal)
  | step {completed : List Completed} {c : Completed} {route : Route} {w : World} :
      Flow cfg run prior completed (.next c.m.stage c.m.mode) →
      (∀ d ∈ completed ++ [c], d.m.stage = .implement → d.Recorded w) →
      Routed cfg run w (flowHistory prior (completed ++ [c])) c.m.toCompletionPayload route →
      Flow cfg run prior (completed ++ [c]) route

/-- What a found test guarantees. -/
theorem pairedTest_found {run : RunRecord} {items : List HistoryItem} {m : CompletionPayload}
    {w : World} {pairing : Pairing} (hstage : m.stage = .codeReview) (hverdict : m.verdict = true)
    (h : machine.eval (pairedTest run items m) w = (.returned pairing, w))
    (hfound : pairing ≠ .missing) :
    ∃ test, pairing.test = some test ∧ sameDelivery test.toCompletionPayload m = true := by
  unfold pairedTest at h
  rw [if_pos ⟨hstage, hverdict⟩] at h
  split at h
  · cases h
    exact absurd rfl hfound
  · next test _ =>
    split at h
    · cases h
      exact absurd rfl hfound
    · next hsame =>
      obtain ⟨r, w₁, -, h⟩ := machine.eval_bind_returned.mp h
      cases r with
      | error text =>
        cases h
        exact absurd rfl hfound
      | ok u =>
        cases h
        exact ⟨test, rfl, by simpa using hsame⟩

/-! ## The measure -/

/-- The most completions of the phases before `p`. -/
def passedPhases (limit : Nat) : Phase → Nat
  | .spec => 0
  | .plan => 2 * limit + 1
  | .tasks => 2 * (2 * limit + 1)
  | .code => 3 * (2 * limit + 1)

def Phase.index : Phase → Nat
  | .spec => 0
  | .plan => 1
  | .tasks => 2
  | .code => 3

/-- The most completions of a run. -/
def flowBound (cfg : Config) : Nat :=
  3 * (2 * cfg.documentReviewLimit + 1) + 3 * (cfg.codeModificationLimit + 1)

/-- How far a flow is when it stands before a card of `stage`: the completions are
bounded by the reviews of its phase, or by its implementations. -/
def StandsBefore (cfg : Config) (n : Nat) (at_ : Stage → Nat) (stage : Stage) (mode : WorkMode) :
    Prop :=
  let passed := passedPhases cfg.documentReviewLimit (phaseForStage stage)
  match stage with
  | .specWrite | .planWrite | .tasksWrite =>
    ∀ review, documentReviewForProducer stage = some review →
      if mode = .finalization then n ≤ passed + 2 * cfg.documentReviewLimit
      else at_ review < cfg.documentReviewLimit ∧ n ≤ passed + 2 * at_ review
  | .specReview | .planReview | .tasksReview =>
    at_ stage < cfg.documentReviewLimit ∧ n ≤ passed + 2 * at_ stage + 1
  | .implement => at_ .implement ≤ cfg.codeModificationLimit ∧ n ≤ passed + 3 * at_ .implement
  | .test =>
    at_ .implement ≤ cfg.codeModificationLimit + 1 ∧ n + 2 ≤ passed + 3 * at_ .implement
  | .codeReview =>
    at_ .implement ≤ cfg.codeModificationLimit + 1 ∧ n + 1 ≤ passed + 3 * at_ .implement

/-- How far a flow is at a route. -/
def Within (cfg : Config) (completed : List Completed) : Route → Prop
  | .next stage mode =>
    StandsBefore cfg completed.length (completedAt completed) stage mode ∧
      ∀ c ∈ completed, (phaseForStage c.m.stage).index ≤ (phaseForStage stage).index
  | .terminal _ => completed.length ≤ flowBound cfg
  | .merge | .blocked _ => False

section Step

variable {cfg : Config} {run : RunRecord} {prior : List HistoryItem}
variable {completed : List Completed} {c : Completed} {route : Route} {w : World}

@[simp] theorem completedAt_concat (completed : List Completed) (c : Completed) (s : Stage) :
    completedAt (completed ++ [c]) s =
      completedAt completed s + if c.m.stage = s then 1 else 0 := by
  by_cases h : c.m.stage = s <;> simp [completedAt, h]

/-- No card of a later phase is completed. -/
theorem completedAt_ahead {k : Nat}
    (h : ∀ c ∈ completed, (phaseForStage c.m.stage).index ≤ k) {s : Stage}
    (hs : k < (phaseForStage s).index) : completedAt completed s = 0 := by
  refine List.countP_eq_zero.mpr fun c hc => ?_
  have hle := h c hc
  rintro heq
  rw [eq_of_beq heq] at hle
  omega

/-- The phases only go forward. -/
theorem phases_concat {stage : Stage}
    (h : ∀ d ∈ completed, (phaseForStage d.m.stage).index ≤ (phaseForStage c.m.stage).index)
    (hle : (phaseForStage c.m.stage).index ≤ (phaseForStage stage).index) :
    ∀ d ∈ completed ++ [c], (phaseForStage d.m.stage).index ≤ (phaseForStage stage).index := by
  intro d hd
  rcases List.mem_append.mp hd with hd | hd
  · exact (h d hd).trans hle
  · rw [List.mem_singleton.mp hd]
    exact hle

/-- The route after a writer: its review, or the next phase after a finalization. -/
theorem routeCompletion_writer {attempts modifications : Nat} {test : Option CompletionPayload}
    (hstage : c.m.stage.isDocumentProducer = true) :
    routeCompletion cfg c.m.toCompletionPayload attempts test modifications =
      if c.m.mode = .finalization then Route.ofStage (nextPhaseStage (phaseForStage c.m.stage))
      else Route.ofStage (nextStage c.m.stage) := by
  have hpass := c.author_pass (by simp [Stage.isRepositoryAuthor, hstage])
  cases hs : c.m.stage <;> simp [hs, Stage.isDocumentProducer] at hstage <;>
    simp [routeCompletion, hs, hpass]

/-- The route after a document review: the next phase, or back to its writer. -/
theorem routeCompletion_review {attempts modifications : Nat} {test : Option CompletionPayload}
    {producer : Stage} (hstage : c.m.stage.isDocumentReview = true)
    (hproducer : producerForReview c.m.stage = some producer) :
    routeCompletion cfg c.m.toCompletionPayload attempts test modifications =
      if c.m.outcome = .pass then Route.ofStage (nextStage c.m.stage)
      else .next producer
        (if cfg.documentReviewLimit ≤ attempts then .finalization else .normal) := by
  have hmode := c.mode_normal (by
    cases hs : c.m.stage <;> simp_all [Stage.isDocumentReview, Stage.isDocumentProducer])
  have hdecided := c.decided
  cases hs : c.m.stage <;> simp [hs, Stage.isDocumentReview] at hstage <;>
    cases ho : c.m.outcome <;>
    simp_all [routeCompletion, routeFailure, Stage.isDocumentReview]

theorem standsBefore_writer {n : Nat} {at_ : Stage → Nat} {stage review : Stage} {mode : WorkMode}
    (hreview : documentReviewForProducer stage = some review) :
    StandsBefore cfg n at_ stage mode ↔
      if mode = .finalization then
        n ≤ passedPhases cfg.documentReviewLimit (phaseForStage stage) + 2 * cfg.documentReviewLimit
      else at_ review < cfg.documentReviewLimit ∧
        n ≤ passedPhases cfg.documentReviewLimit (phaseForStage stage) + 2 * at_ review := by
  cases stage <;> simp [documentReviewForProducer] at hreview <;> subst hreview <;>
    simp [StandsBefore, documentReviewForProducer]

theorem standsBefore_review {n : Nat} {at_ : Stage → Nat} {stage : Stage} {mode : WorkMode}
    (hstage : stage.isDocumentReview = true) :
    StandsBefore cfg n at_ stage mode ↔ at_ stage < cfg.documentReviewLimit ∧
      n ≤ passedPhases cfg.documentReviewLimit (phaseForStage stage) + 2 * at_ stage + 1 := by
  cases stage <;> simp [Stage.isDocumentReview] at hstage <;> simp [StandsBefore]

/-- A finished phase leads to the start of the next one. -/
theorem within_nextPhase (hlimit : 1 ≤ cfg.documentReviewLimit) {stage next : Stage}
    (hnext : nextPhaseStage (phaseForStage stage) = some next)
    (hphases : ∀ d ∈ completed, (phaseForStage d.m.stage).index ≤ (phaseForStage stage).index)
    (hlength : completed.length ≤ passedPhases cfg.documentReviewLimit (phaseForStage stage) +
      2 * cfg.documentReviewLimit + 1) :
    Within cfg completed (.next next .normal) := by
  have hahead : ∀ s, (phaseForStage stage).index < (phaseForStage s).index →
      completedAt completed s = 0 := fun s => completedAt_ahead hphases
  cases hphase : phaseForStage stage <;> rw [hphase] at hnext hlength hphases hahead <;>
    simp [nextPhaseStage] at hnext <;> subst hnext
  · refine ⟨?_, fun d hd => (hphases d hd).trans (by decide)⟩
    rw [standsBefore_writer rfl, if_neg (by decide), hahead _ (by decide)]
    simp only [phaseForStage, passedPhases] at hlength ⊢
    omega
  · refine ⟨?_, fun d hd => (hphases d hd).trans (by decide)⟩
    rw [standsBefore_writer rfl, if_neg (by decide), hahead _ (by decide)]
    simp only [phaseForStage, passedPhases] at hlength ⊢
    omega
  · refine ⟨?_, fun d hd => (hphases d hd).trans (by decide)⟩
    simp only [StandsBefore, hahead .implement (by decide), phaseForStage, passedPhases]
      at hlength ⊢
    omega

/-- The reviewer of a document works in the phase of its writer. -/
theorem review_of_producer {producer review : Stage}
    (h : documentReviewForProducer producer = some review) :
    nextStage producer = some review ∧ review.isDocumentReview = true ∧
      phaseForStage review = phaseForStage producer ∧ producer ≠ review ∧
      nextStage review = nextPhaseStage (phaseForStage review) ∧
      producerForReview review = some producer := by
  cases producer <;> simp [documentReviewForProducer] at h <;> subst h <;> decide

theorem within_writer (hlimit : 1 ≤ cfg.documentReviewLimit) {review : Stage}
    (hreview : documentReviewForProducer c.m.stage = some review)
    (h : Within cfg completed (.next c.m.stage c.m.mode)) (attempts modifications : Nat)
    (test : Option CompletionPayload) :
    Within cfg (completed ++ [c])
      (routeCompletion cfg c.m.toCompletionPayload attempts test modifications) := by
  obtain ⟨hnext, hisReview, hphase, hne, -, -⟩ := review_of_producer hreview
  have hstage : c.m.stage.isDocumentProducer = true := by
    cases hs : c.m.stage <;> simp [hs, documentReviewForProducer] at hreview <;> rfl
  obtain ⟨hstands, hphases⟩ := h
  rw [standsBefore_writer hreview] at hstands
  rw [routeCompletion_writer hstage]
  split
  · next hmode =>
    rw [if_pos hmode] at hstands
    obtain ⟨next, hfollowing⟩ : ∃ next, nextPhaseStage (phaseForStage c.m.stage) = some next := by
      cases hs : c.m.stage <;> simp [hs, Stage.isDocumentProducer] at hstage <;> exact ⟨_, rfl⟩
    rw [hfollowing]
    refine within_nextPhase hlimit hfollowing (phases_concat hphases (le_refl _)) ?_
    rw [List.length_append, List.length_singleton]
    omega
  · next hmode =>
    rw [if_neg hmode] at hstands
    rw [hnext]
    refine ⟨?_, phases_concat hphases (by rw [hphase])⟩
    rw [standsBefore_review hisReview, completedAt_concat, if_neg hne, hphase,
      List.length_append, List.length_singleton]
    omega

theorem within_review (hlimit : 1 ≤ cfg.documentReviewLimit)
    (hstage : c.m.stage.isDocumentReview = true)
    (h : Within cfg completed (.next c.m.stage c.m.mode)) (modifications : Nat)
    (test : Option CompletionPayload) :
    Within cfg (completed ++ [c])
      (routeCompletion cfg c.m.toCompletionPayload (completedAt (completed ++ [c]) c.m.stage) test
        modifications) := by
  obtain ⟨producer, hproducer⟩ : ∃ producer, documentReviewForProducer producer = some c.m.stage := by
    cases hs : c.m.stage <;> simp [hs, Stage.isDocumentReview] at hstage
    · exact ⟨.specWrite, rfl⟩
    · exact ⟨.planWrite, rfl⟩
    · exact ⟨.tasksWrite, rfl⟩
  obtain ⟨-, -, hphase, hne, hnext, hback⟩ := review_of_producer hproducer
  obtain ⟨hstands, hphases⟩ := h
  rw [standsBefore_review hstage] at hstands
  rw [routeCompletion_review hstage hback]
  split
  · obtain ⟨next, hfollowing⟩ : ∃ next, nextPhaseStage (phaseForStage c.m.stage) = some next := by
      cases hs : c.m.stage <;> simp [hs, Stage.isDocumentReview] at hstage <;> exact ⟨_, rfl⟩
    rw [hnext, hfollowing]
    refine within_nextPhase hlimit hfollowing (phases_concat hphases (le_refl _)) ?_
    rw [List.length_append, List.length_singleton]
    omega
  · refine ⟨?_, phases_concat hphases (by rw [hphase])⟩
    rw [standsBefore_writer hproducer]
    simp only [completedAt_concat, if_true, ← hphase, List.length_append, List.length_singleton]
    split
    · next hlast =>
      rw [if_pos rfl]
      omega
    · next hmore =>
      rw [if_neg (by decide)]
      omega

theorem within_implement (hstage : c.m.stage = .implement)
    (h : Within cfg completed (.next c.m.stage c.m.mode)) (attempts modifications : Nat)
    (test : Option CompletionPayload) :
    Within cfg (completed ++ [c])
      (routeCompletion cfg c.m.toCompletionPayload attempts test modifications) := by
  have hpass := c.author_pass (by rw [hstage]; rfl)
  have hmode := c.mode_normal (by rw [hstage]; rfl)
  have hroute : routeCompletion cfg c.m.toCompletionPayload attempts test modifications =
      .next .test .normal := by
    simp [routeCompletion, hstage, hpass, hmode, nextStage, Route.ofStage]
  obtain ⟨hstands, hphases⟩ := h
  rw [hroute]
  refine ⟨?_, phases_concat hphases (by rw [hstage]; decide)⟩
  simp only [hstage, StandsBefore, completedAt_concat, if_true, List.length_append,
    List.length_singleton, phaseForStage] at hstands ⊢
  omega

/-- A test or a review that goes on with the implementation, while the budget lasts. -/
theorem within_modification (hphase : phaseForStage c.m.stage = .code)
    (hne : c.m.stage ≠ .implement)
    (hphases : ∀ d ∈ completed, (phaseForStage d.m.stage).index ≤ (phaseForStage c.m.stage).index)
    (hlength : completed.length + 1 ≤
      passedPhases cfg.documentReviewLimit .code + 3 * completedAt completed .implement)
    (hbudget : ¬ cfg.codeModificationLimit ≤ completedAt (completed ++ [c]) .implement - 1) :
    Within cfg (completed ++ [c]) (.next .implement .normal) := by
  refine ⟨?_, phases_concat hphases (by rw [hphase]; decide)⟩
  simp only [completedAt_concat, if_neg hne, Nat.add_zero] at hbudget
  simp only [StandsBefore, completedAt_concat, if_neg hne, List.length_append,
    List.length_singleton, phaseForStage]
  omega

theorem within_test (hstage : c.m.stage = .test)
    (h : Within cfg completed (.next c.m.stage c.m.mode)) (attempts : Nat)
    (test : Option CompletionPayload) :
    Within cfg (completed ++ [c])
      (routeCompletion cfg c.m.toCompletionPayload attempts test
        (completedAt (completed ++ [c]) .implement - 1)) := by
  have hne : c.m.stage ≠ .implement := by rw [hstage]; decide
  have hdecided := c.decided
  obtain ⟨hstands, hphases⟩ := h
  simp only [hstage, StandsBefore, phaseForStage] at hstands
  simp only [routeCompletion, hstage, hdecided, if_false]
  split
  · refine ⟨?_, phases_concat hphases (by rw [hstage]; decide)⟩
    simp only [StandsBefore, completedAt_concat, if_neg hne, List.length_append,
      List.length_singleton, phaseForStage]
    omega
  · split
    · show (completed ++ [c]).length ≤ flowBound cfg
      simp only [List.length_append, List.length_singleton, flowBound, passedPhases] at hstands ⊢
      omega
    · next hbudget =>
      exact within_modification (by rw [hstage]; rfl) hne hphases (by omega) hbudget

theorem within_codeReview (hstage : c.m.stage = .codeReview)
    (h : Within cfg completed (.next c.m.stage c.m.mode)) (attempts : Nat)
    {test : CompletionPayload} (hsame : sameDelivery test c.m.toCompletionPayload = true) :
    Within cfg (completed ++ [c])
      (routeCompletion cfg c.m.toCompletionPayload attempts (some test)
        (completedAt (completed ++ [c]) .implement - 1)) := by
  have hne : c.m.stage ≠ .implement := by rw [hstage]; decide
  have hdecided := c.decided
  obtain ⟨hstands, hphases⟩ := h
  simp only [hstage, StandsBefore, phaseForStage] at hstands
  have hend : (completed ++ [c]).length ≤ flowBound cfg := by
    simp only [List.length_append, List.length_singleton, flowBound, passedPhases] at hstands ⊢
    omega
  simp only [routeCompletion, hstage, hdecided, hsame, if_false, Bool.not_true, Bool.false_eq_true]
  split
  · exact hend
  · split
    · exact hend
    · next hbudget =>
      exact within_modification (by rw [hstage]; rfl) hne hphases (by omega) hbudget

/-- One completion takes a flow on within its bound. -/
theorem within_step (hlimit : 1 ≤ cfg.documentReviewLimit)
    (hprior : ∀ i ∈ prior, i.isWork = false)
    (h : Within cfg completed (.next c.m.stage c.m.mode))
    (hrecorded : ∀ d ∈ completed ++ [c], d.m.stage = .implement → d.Recorded w)
    (hroute : Routed cfg run w (flowHistory prior (completed ++ [c])) c.m.toCompletionPayload
      route) : Within cfg (completed ++ [c]) route := by
  obtain ⟨modifications, pairing, hmodifications, hpairing, hfound, rfl⟩ := hroute
  obtain rfl : modifications = completedAt (completed ++ [c]) .implement - 1 := by
    have := hmodifications.symm.trans (codeModificationCount_flow hprior hrecorded)
    simpa using this
  cases hstage : c.m.stage with
  | specWrite | planWrite | tasksWrite =>
    exact within_writer hlimit (by rw [hstage]; rfl) h _ _ _
  | specReview | planReview | tasksReview =>
    rw [reviewAttempts_flow hprior rfl, ← hstage]
    exact within_review hlimit (by rw [hstage]; rfl) h _ _
  | implement => exact within_implement hstage h _ _ _
  | test => exact within_test hstage h _ _
  | codeReview =>
    have hverdict : c.m.verdict = true := by
      have hdecided := c.decided
      cases houtcome : c.m.outcome <;> simp_all [CompletionPayload.verdict]
    obtain ⟨test, htest, hsame⟩ := pairedTest_found hstage hverdict hpairing hfound
    rw [htest]
    exact within_codeReview hstage h _ hsame

end Step

/-- Every flow stays within its bound. -/
theorem Flow.within {cfg : Config} {run : RunRecord} {prior : List HistoryItem}
    {completed : List Completed} {route : Route} (hlimit : 1 ≤ cfg.documentReviewLimit)
    (hprior : ∀ i ∈ prior, i.isWork = false) (h : Flow cfg run prior completed route) :
    Within cfg completed route := by
  induction h with
  | start =>
    refine ⟨?_, fun d hd => absurd hd (List.not_mem_nil)⟩
    rw [standsBefore_writer rfl, if_neg (by decide)]
    exact ⟨hlimit, Nat.zero_le _⟩
  | step _ hrecorded hroute ih => exact within_step hlimit hprior ih hrecorded hroute

/-- Before a card there is room for its completion. -/
theorem Within.room {cfg : Config} {completed : List Completed} {stage : Stage} {mode : WorkMode}
    (h : Within cfg completed (.next stage mode)) : completed.length < flowBound cfg := by
  obtain ⟨hstands, -⟩ := h
  unfold flowBound
  cases stage with
  | specWrite | planWrite | tasksWrite =>
    rw [standsBefore_writer rfl] at hstands
    simp only [phaseForStage, passedPhases] at hstands
    split at hstands <;> omega
  | specReview | planReview | tasksReview | implement | test | codeReview =>
    simp only [StandsBefore, phaseForStage, passedPhases] at hstands
    omega

/-- The specification of the sample, as an accepted completion. -/
def specCompleted : Completed where
  item := specItem
  m := specPass
  work := rfl
  done := rfl
  stage := rfl
  metadata := rfl
  unmarked := rfl
  decided := by decide

theorem specCompleted_flow :
    Flow sampleConfig scopedRun [rootItem] [specCompleted] (.next .specReview .normal) := by
  show Flow sampleConfig scopedRun [rootItem] ([] ++ [specCompleted]) _
  refine Flow.step (w := specWorld) .start ?_ ?_
  · intro d hd hstage
    rw [List.mem_singleton.mp hd] at hstage
    cases hstage
  · exact ⟨0, .notNeeded, rfl, rfl, by rintro ⟨⟩, rfl⟩

end HollysysController
