import HollysysController.CompletionTemplate
import HollysysController.WriterScope

/-! # The preview of a completion

Before it completes its card, a worker has the Controller validate the completion. What the
preview accepts, the reconcile of the completed card refuses for a finalization or for what became
of the artifacts only. -/

namespace HollysysController

open Durable

/-! ## The preview -/

structure CompletionValidationRequest where
  cardId : CardId
  metadata : RawMetadata

structure CompletionPreview where
  runKey : String
  cardId : CardId
  stage : String
  iteration : Nat
  deriving DecidableEq, Repr

/-- `CompletionMetadata.model_validate`, which knows no session. -/
def CompletionValidationRequest.completion (r : CompletionValidationRequest) :
    Except String CompletionMetadata :=
  if r.metadata.workerSessionId.isSome then .error "Extra inputs are not permitted"
  else r.metadata.completion

/-- The checks of `validate_completion`. Unlike those of a reconcile, they check the gate of a
review that was cancelled too. -/
def previewChecks (cfg : Config) (run : RunRecord) (items : List HistoryItem) (i : HistoryItem)
    (m : CompletionPayload) : Service Unit := do
  validateCompletionContext .context run i m true
  fromText (checkFinalizationContext cfg items i m)
  validateSemanticGate run i m
  authoringCheck run m
  if m.stage.isDocumentReview || m.stage.isCodeGate then validateReviewedGate .gate run m
  else pure ()

/-- The one work card with the id, in the history of its run. -/
def workInHistory (cardId : CardId) : Service (List HistoryItem × HistoryItem × RunRecord) := do
  let runKeys ← store .runKeys
  let cards ← workCards cardId runKeys
  match cards with
  | [managed] =>
    let (items, run) ← history managed.runKey
    match items.find? fun i => i.task.id == cardId with
    | none => raise (.runtimeError "")
    | some item => pure (items, item, run)
  | _ => raise (.valueError "card_id must identify exactly one managed Hollysys work card")

/-- `validate_completion`. -/
def previewCompletion (cfg : Config) (r : CompletionValidationRequest) :
    Service CompletionPreview := do
  let (items, item, run) ← workInHistory r.cardId
  let m ← fromText r.completion
  previewChecks cfg run items item m.toCompletionPayload
  pure { runKey := run.runKey, cardId := item.task.id, stage := m.stage.value,
         iteration := m.iteration }

/-! ## What the checks read -/

/-- A judgement about what is read to check a completion of the card. -/
structure Checking (run : RunRecord) (cardId : CardId)
    (K : ∀ {α : Type}, Service α → Prop) : Prop extends Closed K where
  binding : K (store (.deliveryBinding run.runKey))
  recorded : K (store (.validationRuns run.runKey cardId))
  gitlab : ∀ o : GitLabOp, o.isRead = true → K (gitlab o)

namespace Checking

variable {run : RunRecord} {i : HistoryItem} {K : ∀ {α : Type}, Service α → Prop}
  (h : Checking run i.task.id K)
include h

theorem fromText {α : Type} (r : Except String α) : K (fromText r) := by
  cases r with
  | error t => exact h.raise _
  | ok a => exact h.pure _

theorem validateCompletionIdentity (m : CompletionPayload) :
    K (validateCompletionIdentity run i m) := by
  refine h.bind (h.fromText _) fun card => h.bind (h.fromText _) fun _ => ?_
  refine h.bind h.binding fun binding => h.bind (h.fromText _) fun _ => ?_
  refine h.bind ?_ fun persisted => h.bind (h.fromText _) fun _ => h.fromText _
  unfold persistedChecks
  split
  · exact h.pure _
  · exact h.recorded

theorem deliveryMr (site : ReadSite) (iid : Option Nat) : K (deliveryMr site run iid) := by
  cases iid with
  | none => exact h.raise _
  | some iid =>
    refine h.bind (h.gitlab _ rfl) fun mr => ?_
    split
    · exact h.raise _
    · exact h.pure _

theorem boundDeliveryMr (site : ReadSite) : K (boundDeliveryMr site run) := by
  refine h.bind h.binding fun binding => ?_
  cases binding with
  | none => exact h.pure _
  | some b =>
    refine h.bind (h.bind (h.deliveryMr _ _) fun mr => ?_) fun _ => h.pure _
    split
    · exact h.raise _
    · exact h.bind (h.gitlab _ rfl) fun _ => h.pure _

theorem validateCompletionContext (site : ReadSite) (m : CompletionPayload)
    (requireCurrentHead : Bool) :
    K (validateCompletionContext site run i m requireCurrentHead) := by
  refine h.bind (h.validateCompletionIdentity m) fun _ => h.bind (h.fromText _) fun _ => ?_
  refine h.bind (h.boundDeliveryMr site) fun mr => ?_
  cases mr with
  | none => exact h.pure _
  | some mr =>
    dsimp only
    split
    · exact h.raise _
    · exact h.pure _

theorem authoringCheck (m : CompletionPayload) : K (authoringCheck run m) := by
  unfold HollysysController.authoringCheck
  split
  · refine h.bind (h.gitlab _ rfl) fun _ => ?_
    unfold validateAuthorCompletion
    split
    · exact h.raise _
    · split
      · exact h.raise _
      · refine h.bind (h.deliveryMr _ _) fun mr => ?_
        split
        · exact h.raise _
        · exact h.pure _
  · exact h.pure _

theorem validateReviewedGate (site : ReadSite) (m : CompletionPayload) :
    K (validateReviewedGate site run m) := by
  refine h.bind ?_ fun author => ?_
  · unfold validateGate
    split
    · exact h.pure _
    · refine h.bind (h.deliveryMr _ _) fun mr => ?_
      split
      · exact h.raise _
      · split
        · exact h.bind (h.gitlab _ rfl) fun _ => h.bind (h.gitlab _ rfl) fun _ => h.pure _
        · split
          · exact h.bind (h.raise _) fun _ => h.bind (h.gitlab _ rfl) fun _ => h.pure _
          · exact h.bind (h.gitlab _ rfl) fun _ => h.pure _
  · split
    · exact h.raise _
    · exact h.pure _

end Checking

/-! ## The completed card -/

/-- The card was completed with the metadata. -/
structure CompletedAs (m : CompletionMetadata) (i i' : HistoryItem) : Prop where
  managed : i'.managed = i.managed
  task : i'.task.id = i.task.id
  body : i'.task.body = i.task.body
  metadata : validatePersistedCompletionMetadata i'.task.latestMetadata = .ok m

/-- The history, in which that card alone changed. -/
def Replaced (i i' : HistoryItem) : List HistoryItem → List HistoryItem → Prop :=
  List.Forall₂ fun x x' => x' = x ∨ x = i ∧ x' = i'

/-- What the checks of the completion read is what the preview read; the clock went on. -/
structure Rests (run : RunRecord) (cardId : CardId) (w w' : World) : Prop where
  gitlab : w'.gitlab = w.gitlab
  binding : w'.store.deliveryBinding run.runKey = w.store.deliveryBinding run.runKey
  recorded : (w'.store.validationRuns.filter fun v => v.runKey == run.runKey && v.cardId == cardId)
    = w.store.validationRuns.filter fun v => v.runKey == run.runKey && v.cardId == cardId
  now : w.now ≤ w'.now

section Later

variable {cfg : Config} {run : RunRecord} {items : List HistoryItem} {i i' : HistoryItem}
  {items' : List HistoryItem} {m : CompletionMetadata} {w w' : World}

theorem Rests.checking (h : Rests run i.task.id w w') :
    Checking run i.task.id (fun {α} (p : Service α) => machine.ReadsAlike w w' p) :=
  { closed_readsAlike machine w w' with
    binding := readsAlike_op (congrArg Except.ok h.binding.symm) rfl rfl
    recorded := by
      refine readsAlike_op ?_ rfl rfl
      show Except.ok (List.map _ _) = Except.ok (List.map _ _)
      rw [h.recorded]
    gitlab := fun o ho => by
      refine readsAlike_op ?_ ?_ ?_
      · show (o.exec w.gitlab).1 = (o.exec w'.gitlab).1
        rw [h.gitlab]
      · cases o <;> first | rfl | cases ho
      · cases o <;> first | rfl | cases ho }

theorem CompletedAs.identity (h : CompletedAs m i i') (run : RunRecord) (p : CompletionPayload) :
    validateCompletionIdentity run i' p = validateCompletionIdentity run i p := by
  have hchecks (card : CardRecord) : checkIdentity run i' card p = checkIdentity run i card p := by
    simp only [checkIdentity, identityChecks, h.managed, h.task, HistoryItem.atStage]
  have hpersisted : persistedChecks run i' p = persistedChecks run i p := by
    unfold persistedChecks
    generalize hid : i'.task.id = id
    obtain rfl : id = i.task.id := hid.symm.trans h.task
    rfl
  simp only [validateCompletionIdentity, h.body, hpersisted, hchecks]

theorem CompletedAs.context (h : CompletedAs m i i') (site : ReadSite) (run : RunRecord)
    (p : CompletionPayload) (requireCurrentHead : Bool) :
    validateCompletionContext site run i' p requireCurrentHead =
      validateCompletionContext site run i p requireCurrentHead := by
  rw [validateCompletionContext, validateCompletionContext, h.identity]

theorem CompletedAs.gateArtifact (h : CompletedAs m i i') (p : CompletionPayload) :
    checkGateArtifact i' p = checkGateArtifact i p := by
  rw [checkGateArtifact, checkGateArtifact, h.body]

/-- The card is at the stage of its completion. -/
theorem validateCompletionIdentity_stage
    (h : machine.eval (validateCompletionIdentity run i m.toCompletionPayload) w =
      (.returned (), w')) : i.atStage m.stage = true := by
  obtain ⟨card, w₁, -, hrest⟩ := machine.eval_bind_returned.mp h
  obtain ⟨u, w₂, hchecks, -⟩ := machine.eval_bind_returned.mp hrest
  have hnone := eval_fromText hchecks
  rw [checkIdentity] at hnone
  split at hnone
  · next hempty =>
    have hstage := failedChecks_eq_nil.mp hempty (!i.atStage m.stage, "stage")
      (by simp [identityChecks])
    simpa using hstage
  · cases hnone

theorem Replaced.find (h : Replaced i i' items items') (hid : i'.task.id = i.task.id)
    (t : CardId) :
    items'.find? (·.task.id == t) = items.find? (·.task.id == t) ∨
      items.find? (·.task.id == t) = some i ∧ items'.find? (·.task.id == t) = some i' := by
  induction h with
  | nil => exact .inl rfl
  | @cons x x' items items' hx _ ih =>
    rw [List.find?_cons, List.find?_cons]
    obtain rfl | ⟨rfl, rfl⟩ := hx
    · cases x'.task.id == t with
      | true => exact .inl rfl
      | false => exact ih
    · rw [hid]
      cases x.task.id == t with
      | true => exact .inr ⟨rfl, rfl⟩
      | false => exact ih

theorem Replaced.attempts {s : Stage} (h : Replaced i i' items items')
    (hid : i'.task.id = i.task.id) (hi : countsAsReview s i = false)
    (hi' : countsAsReview s i' = false) (t : CardId) :
    reviewAttempts (items'.takeWhile (·.task.id != t)) s =
      reviewAttempts (items.takeWhile (·.task.id != t)) s := by
  induction h with
  | nil => rfl
  | @cons x x' items items' hx _ ih =>
    rw [List.takeWhile_cons, List.takeWhile_cons]
    obtain rfl | ⟨rfl, rfl⟩ := hx
    · cases x'.task.id != t with
      | true => simpa only [if_true, reviewAttempts, List.countP_cons, Nat.add_right_cancel_iff]
      | false => rfl
    · rw [hid]
      cases x.task.id != t with
      | true => simpa only [if_true, reviewAttempts, List.countP_cons, hi, hi',
          Nat.add_right_cancel_iff]
      | false => rfl

theorem countsAsReview_off {s : Stage} (h : i.atStage s = false) : countsAsReview s i = false := by
  simp [countsAsReview, h]

/-- A card at another stage is not the review a finalization goes back to. -/
theorem checkFinalReview_off {s : Stage} {p : CompletionPayload} {forced : ForcedAdvance} {n : Nat}
    (h : i.atStage s = false) : checkFinalReview cfg p forced s (some (i, n)) ≠ .ok () := by
  unfold checkFinalReview
  dsimp only
  split
  · nofun
  · simp [h]

theorem Replaced.finalReview {s : Stage} {p : CompletionPayload} {forced : ForcedAdvance}
    (h : Replaced i i' items items') (hid : i'.task.id = i.task.id) (hi : i.atStage s = false)
    (hi' : i'.atStage s = false) (t : CardId) :
    checkFinalReview cfg p forced s (finalReview items' s t) = .ok () ↔
      checkFinalReview cfg p forced s (finalReview items s t) = .ok () := by
  have hattempts := h.attempts hid (countsAsReview_off hi) (countsAsReview_off hi') t
  unfold HollysysController.finalReview
  obtain hfind | ⟨hfind, hfind'⟩ := h.find hid t
  · rw [hfind]
    simp only [reviewAttempts, List.countP_append] at hattempts ⊢
    rw [hattempts]
  · rw [hfind, hfind', Option.map_some, Option.map_some]
    exact iff_of_false (checkFinalReview_off hi') (checkFinalReview_off hi)

/-- The context of a finalization is the same when its own card is completed. -/
theorem CompletedAs.finalization (h : CompletedAs m i i') (hreplaced : Replaced i i' items items')
    (hstage : i.atStage m.stage = true) :
    checkFinalizationContext cfg items' i' m.toCompletionPayload = .ok () ↔
      checkFinalizationContext cfg items i m.toCompletionPayload = .ok () := by
  have hoff (s : Stage) (hs : documentReviewForProducer m.stage = some s) :
      i.atStage s = false := by
    have hmanaged : i.managed.stage = .work m.stage := by simpa [HistoryItem.atStage] using hstage
    cases hm : m.stage <;> rw [hm] at hs hmanaged <;> cases hs <;>
      simp [HistoryItem.atStage, hmanaged]
  unfold checkFinalizationContext
  rw [h.body]
  split
  · rfl
  · split
    · rfl
    · split
      · split
        · rfl
        · split
          · rfl
          · split
            · rfl
            · next s hs =>
              refine hreplaced.finalReview h.task (hoff s hs) ?_ _
              rw [HistoryItem.atStage, h.managed]
              exact hoff s hs
      · rfl

/-! ## The preview and the judgement -/

/-- What follows the clock in the check of the semantic gate. -/
theorem gateRest_alike {p : CompletionPayload} (h : Rests run i.task.id w w') :
    machine.ReadsAlike w w' (do
      fromText (checkGateArtifact i p)
      let _ ← gitlab (.check (.semanticGate run p))
      pure () : Service Unit) := by
  have hchecking := h.checking
  exact hchecking.bind (hchecking.fromText _) fun _ =>
    hchecking.bind (hchecking.gitlab _ rfl) fun _ => hchecking.pure _

/-- The gate was reviewed by the moment `now`. -/
def reviewedBy (p : CompletionPayload) (now : Nat) : Prop :=
  p.gatePhase.isNone = true ∨ p.gateReviewedAt.all (now + 300 < ·) = false

theorem reviewedBy_later {p : CompletionPayload} {now now' : Nat} (h : reviewedBy p now)
    (hnow : now ≤ now') : reviewedBy p now' := by
  refine h.imp_right fun hclock => ?_
  cases hat : p.gateReviewedAt with
  | none => simp [hat] at hclock
  | some t =>
    simp only [hat, Option.all_some, decide_eq_false_iff_not] at hclock ⊢
    omega

theorem validateSemanticGate_iff {p : CompletionPayload} :
    machine.eval (validateSemanticGate run i p) w = (.returned (), w) ↔
      reviewedBy p w.now ∧ (p.gatePhase.isNone = false → machine.eval (do
        fromText (checkGateArtifact i p)
        let _ ← gitlab (.check (.semanticGate run p))
        pure () : Service Unit) w = (.returned (), w)) := by
  have hnow : machine.eval (host .now) w = (.returned w.now, w) := rfl
  unfold validateSemanticGate reviewedBy
  cases hphase : p.gatePhase.isNone with
  | true => simp
  | false =>
    rw [if_neg Bool.false_ne_true, Prog.bind_def, machine.eval_bind_of hnow]
    cases hclock : p.gateReviewedAt.all (w.now + 300 < ·) with
    | true => simp [raise]
    | false => simp

theorem CompletedAs.semantic {p : CompletionPayload} (h : CompletedAs m i i')
    (hrests : Rests run i.task.id w w') (hclock : reviewedBy p w.now) :
    machine.eval (validateSemanticGate run i' p) w' = (.returned (), w') ↔
      machine.eval (validateSemanticGate run i p) w = (.returned (), w) := by
  rw [validateSemanticGate_iff, validateSemanticGate_iff, h.gateArtifact,
    ← (gateRest_alike hrests).eval_iff]
  simp only [hclock, reviewedBy_later hclock hrests.now]

/-- The checks that a preview and a reconcile have in common. -/
structure Checked (cfg : Config) (run : RunRecord) (items : List HistoryItem) (i : HistoryItem)
    (p : CompletionPayload) (w : World) : Prop where
  context : machine.eval (validateCompletionContext .context run i p true) w = (.returned (), w)
  finalization : checkFinalizationContext cfg items i p = .ok ()
  semantic : machine.eval (validateSemanticGate run i p) w = (.returned (), w)
  authoring : machine.eval (authoringCheck run p) w = (.returned (), w)

/-- The check of the gate of a review or a test. -/
def GateChecked (run : RunRecord) (p : CompletionPayload) (w : World) : Prop :=
  (p.stage.isDocumentReview || p.stage.isCodeGate) = true →
    machine.eval (validateReviewedGate .gate run p) w = (.returned (), w)

theorem Checked.reviewed {p : CompletionPayload} (h : Checked cfg run items i p w) :
    reviewedBy p w.now :=
  (validateSemanticGate_iff.mp h.semantic).1

theorem Checked.stage (h : Checked cfg run items i m.toCompletionPayload w) :
    i.atStage m.stage = true := by
  obtain ⟨u, w₁, hidentity, -⟩ := machine.eval_bind_returned.mp h.context
  exact validateCompletionIdentity_stage hidentity

/-- The completed card passes the checks that its preview passed. -/
theorem Checked.later (h : Checked cfg run items i m.toCompletionPayload w)
    (hcompleted : CompletedAs m i i') (hreplaced : Replaced i i' items items')
    (hrests : Rests run i.task.id w w') :
    Checked cfg run items' i' m.toCompletionPayload w' where
  context := by
    rw [hcompleted.context]
    exact ((hrests.checking.validateCompletionContext _ _ _).eval_iff _).mp h.context
  finalization := (hcompleted.finalization hreplaced h.stage).mpr h.finalization
  semantic := (hcompleted.semantic hrests h.reviewed).mpr h.semantic
  authoring := ((hrests.checking.authoringCheck _).eval_iff _).mp h.authoring

theorem GateChecked.later {p : CompletionPayload} (h : GateChecked run p w)
    (hrests : Rests run i.task.id w w') : GateChecked run p w' :=
  fun hgate => ((hrests.checking.validateReviewedGate _ _).eval_iff _).mp (h hgate)

/-- The preview of a card passed the checks that the completed card passes. -/
theorem Checked.earlier (h : Checked cfg run items' i' m.toCompletionPayload w')
    (hcompleted : CompletedAs m i i') (hreplaced : Replaced i i' items items')
    (hrests : Rests run i.task.id w w')
    (hclock : reviewedBy m.toCompletionPayload w.now) :
    Checked cfg run items i m.toCompletionPayload w where
  context := by
    have hcontext := h.context
    rw [hcompleted.context] at hcontext
    exact ((hrests.checking.validateCompletionContext _ _ _).eval_iff _).mpr hcontext
  finalization := by
    have hstage := h.stage
    rw [HistoryItem.atStage, hcompleted.managed] at hstage
    exact (hcompleted.finalization hreplaced hstage).mp h.finalization
  semantic := (hcompleted.semantic hrests hclock).mp h.semantic
  authoring := ((hrests.checking.authoringCheck _).eval_iff _).mpr h.authoring

/-- A preview accepts what passes the checks. -/
theorem previewChecks_returns {p : CompletionPayload} :
    machine.eval (previewChecks cfg run items i p) w = (.returned (), w') ↔
      (Checked cfg run items i p w ∧ GateChecked run p w) ∧ w' = w := by
  have hread := reading_keeps (· = w)
  have hlook := hread.toLooking
  unfold previewChecks
  simp only [Prog.bind_def]
  rw [eval_read_bind (hlook.validateCompletionContext .context run i p true w rfl)]
  constructor
  · rintro ⟨u, hcontext, h⟩
    obtain ⟨u, hfinal, h⟩ := (eval_read_bind (hlook.fromText _ w rfl)).mp h
    obtain ⟨u, hsemantic, h⟩ := (eval_read_bind (hlook.validateSemanticGate run i p w rfl)).mp h
    obtain ⟨u, hauthoring, h⟩ := (eval_read_bind (hlook.authoringCheck run p w rfl)).mp h
    have hchecked : Checked cfg run items i p w :=
      ⟨hcontext, eval_fromText hfinal, hsemantic, hauthoring⟩
    split at h
    · have hsame := hread.validateReviewedGate .gate run p w rfl
      rw [h] at hsame
      obtain rfl : w' = w := hsame
      exact ⟨⟨hchecked, fun _ => h⟩, rfl⟩
    · next hgate =>
      cases h
      exact ⟨⟨hchecked, fun hgated => absurd hgated hgate⟩, rfl⟩
  · rintro ⟨⟨hchecked, hgate⟩, rfl⟩
    refine ⟨(), hchecked.context, ?_⟩
    rw [hchecked.finalization]
    refine (machine.eval_bind_of hchecked.semantic).trans ?_
    refine (machine.eval_bind_of hchecked.authoring).trans ?_
    split
    · next hgated => exact hgate hgated
    · rfl

theorem eval_caught_ok {α : Type} {p : Service α} {a : α}
    (h : machine.eval p w = (.returned a, w')) :
    machine.eval (caught p) w = (.returned (.ok a), w') := by
  rw [caught, Prog.bind_def, machine.eval_bind_of (machine.eval_attempt_ok.mpr h)]
  rfl

/-- The session of the completion is the one that the runtime row of the card records. -/
def SessionMatches (i' : HistoryItem) (w' : World) : Prop :=
  attemptMatches (w'.store.cardRuntime (i'.managed.board, i'.managed.cardId))
    (completedSession i'.task.latestMetadata) = true

theorem Checked.validateCompletion (h : Checked cfg run items' i' m.toCompletionPayload w')
    (hcompleted : CompletedAs m i i') (hsession : SessionMatches i' w') :
    machine.eval (validateCompletion cfg run items' i') w' = (.returned m, w') := by
  have hattempt : machine.eval (validateWorkerAttempt i') w' = (.returned (), w') := by
    have hread : machine.eval (store (.cardRuntime i'.managed.board i'.managed.cardId)) w' =
      (.returned (w'.store.cardRuntime (i'.managed.board, i'.managed.cardId)), w') := rfl
    have hmatches : attemptMatches (w'.store.cardRuntime (i'.managed.board, i'.managed.cardId))
      (completedSession i'.task.latestMetadata) = true := hsession
    rw [validateWorkerAttempt, Prog.bind_def, machine.eval_bind_of hread, if_pos hmatches]
    rfl
  rw [HollysysController.validateCompletion, Prog.bind_def, machine.eval_bind_of hattempt,
    hcompleted.metadata]
  refine (machine.eval_bind_of h.context).trans ?_
  rw [h.finalization]
  exact machine.eval_bind_of h.semantic

/-- What is left to refuse after a preview: a finalization for its artifact, and a completion for
what became of the frozen artifacts or of its own. -/
def Judgement.Foretold (m : CompletionMetadata) : Judgement → Prop
  | .protocolFailed _ => m.mode = .finalization
  | .gateFailed _ _ => False
  | .frozenViolated n _ _ | .artifactMoved n _ _ | .accepted n => n = m

theorem judgeLive_foretold {j : Judgement}
    (h : machine.eval (judgeLive cfg run items m) w = (.returned j, w')) : j.Foretold m := by
  obtain ⟨mr, w₁, -, h⟩ := machine.eval_bind_returned.mp h
  split at h
  · cases h
    rfl
  · obtain ⟨violation, w₂, -, h⟩ := machine.eval_bind_returned.mp h
    cases violation with
    | some violation =>
      cases h
      rfl
    | none =>
      obtain ⟨r, w₃, -, h⟩ := machine.eval_bind_returned.mp h
      cases r <;> cases h <;> rfl

theorem finalizationCheck_foretold {reason : String}
    (h : machine.eval (caught (finalizationCheck run m.toCompletionPayload)) w =
      (.returned (.error reason), w')) : m.mode = .finalization := by
  by_contra hmode
  rw [finalizationCheck, if_neg hmode] at h
  cases h

theorem Checked.foretells {j : Judgement} {v : World}
    (h : Checked cfg run items' i' m.toCompletionPayload w')
    (hgate : GateChecked run m.toCompletionPayload w') (hcompleted : CompletedAs m i i')
    (hsession : SessionMatches i' w')
    (hjudge : machine.eval (judge cfg run items' i') w' = (.returned j, v)) : j.Foretold m := by
  have hcompletion := eval_caught_ok (h.validateCompletion hcompleted hsession)
  have hauthoring := eval_caught_ok h.authoring
  have hgated : machine.eval (caught (gateCheck run m.toCompletionPayload)) w' =
      (.returned (.ok ()), w') := by
    refine eval_caught_ok ?_
    unfold gateCheck
    split
    · next hverdict =>
      rw [Bool.and_eq_true] at hverdict
      exact hgate hverdict.1
    · rfl
  rw [judge, Prog.bind_def, machine.eval_bind_of hcompletion] at hjudge
  have hafter := (machine.eval_bind_of hauthoring).symm.trans hjudge
  have hlast := (machine.eval_bind_of hgated).symm.trans hafter
  obtain ⟨r, w₁, hcheck, hrest⟩ := machine.eval_bind_returned.mp hlast
  cases r with
  | ok u => exact judgeLive_foretold hrest
  | error reason =>
    cases hrest
    exact finalizationCheck_foretold hcheck

/-- What a reconcile accepts, passed the checks of a preview. -/
theorem accepted_checked {v : World} (hcompleted : CompletedAs m i i')
    (h : machine.eval (judge cfg run items' i') w' = (.returned (.accepted m), v)) :
    Checked cfg run items' i' m.toCompletionPayload w' ∧
      ((m.stage.isDocumentReview || m.stage.isCodeGate) = true → m.verdict = true →
        machine.eval (validateReviewedGate .gate run m.toCompletionPayload) w' =
          (.returned (), w')) := by
  have hread := reading_keeps (· = w')
  have hlook := hread.toLooking
  obtain ⟨hpasses, -⟩ := judge_accepted.mp h
  have hcompletion := eval_caught hpasses.completion
  rw [validateCompletion, Prog.bind_def,
    eval_read_bind (hlook.validateWorkerAttempt i' w' rfl)] at hcompletion
  obtain ⟨u, -, hrest⟩ := hcompletion
  rw [hcompleted.metadata] at hrest
  obtain ⟨u, hcontext, hrest⟩ :=
    (eval_read_bind (hlook.validateCompletionContext .context run i' _ true w' rfl)).mp hrest
  obtain ⟨u, hfinal, hrest⟩ := (eval_read_bind (hlook.fromText _ w' rfl)).mp hrest
  obtain ⟨u, hsemantic, -⟩ :=
    (eval_read_bind (hlook.validateSemanticGate run i' _ w' rfl)).mp hrest
  refine ⟨⟨hcontext, eval_fromText hfinal, hsemantic, eval_caught hpasses.authoring⟩, ?_⟩
  intro hgate hverdict
  have hgated := eval_caught hpasses.gate
  rwa [gateCheck, if_pos (by rw [hgate, hverdict]; rfl)] at hgated

end Later

/-! ## What a preview foretells -/

section Foretell

variable {cfg : Config} {r : CompletionValidationRequest} {items items' : List HistoryItem}
  {i i' : HistoryItem} {run : RunRecord} {m : CompletionMetadata} {w w' : World}

theorem Reading.workInHistory {K : ∀ {α : Type}, Service α → Prop} (h : Reading K)
    (cardId : CardId) : K (workInHistory cardId) := by
  refine h.bind (h.store _ rfl) fun runKeys => h.bind (h.workCards cardId runKeys) fun cards => ?_
  split
  · refine h.bind (h.history _) fun read => ?_
    dsimp only
    split
    · exact h.raise _
    · exact h.pure _
  · exact h.raise _

theorem workInHistory_mem {cardId : CardId}
    (h : machine.eval (workInHistory cardId) w = (.returned (items, i, run), w')) :
    i ∈ items := by
  obtain ⟨runKeys, w₁, -, hcards⟩ := machine.eval_bind_returned.mp h
  obtain ⟨cards, w₂, -, hfound⟩ := machine.eval_bind_returned.mp hcards
  split at hfound
  · obtain ⟨read, w₃, -, hitem⟩ := machine.eval_bind_returned.mp hfound
    dsimp only at hitem
    split at hitem
    · cases hitem
    · next item hfind =>
      cases hitem
      exact List.mem_of_find?_eq_some hfind
  · cases hfound

theorem exists_replaced (i' : HistoryItem) (h : i ∈ items) :
    ∃ items', i' ∈ items' ∧ Replaced i i' items items' := by
  have hsame (l : List HistoryItem) : Replaced i i' l l :=
    List.forall₂_same.mpr fun x _ => .inl rfl
  obtain ⟨before, after, rfl⟩ := List.append_of_mem h
  refine ⟨before ++ i' :: after, by simp, ?_⟩
  exact List.rel_append (hsame before) (.cons (.inr ⟨rfl, rfl⟩) (hsame after))

end Foretell

/-! ## The template of a writer, previewed -/

def sampleTemplate : Option CompletionTemplate :=
  match (machine.eval (sampleSite.completionTemplate .context ⟨2⟩ "pass") templateWorld).1 with
  | .returned t => some t
  | _ => none

def samplePreview : CompletionValidationRequest where
  cardId := ⟨2⟩
  metadata := { payload := match sampleTemplate with
    | some t => .ok t.metadata.toCompletionPayload
    | none => .error "" }

/-- The check of the template was recorded. -/
def previewWorld : World :=
  { templateWorld with
    store := { templateWorld.store with
      validationRuns := (sampleTemplate.bind (·.recorded)).toList } }

/-- No worker session is known of the card. -/
def sessionless : Durable.Outcome ControllerError (List HistoryItem × HistoryItem × RunRecord) →
    Bool
  | .returned (_, i, _) =>
    attemptMatches (previewWorld.store.cardRuntime (i.managed.board, i.managed.cardId)) none
  | _ => false

def previewOk : Durable.Outcome ControllerError CompletionPreview → Bool
  | .returned _ => true
  | _ => false

/-- What passed as the completion of a request is read as that from the card too. -/
theorem CompletionValidationRequest.persisted {r : CompletionValidationRequest}
    {m : CompletionMetadata} (h : r.completion = .ok m) :
    validatePersistedCompletionMetadata (some r.metadata) = .ok m := by
  unfold completion at h
  split at h
  · cases h
  · next hunnamed =>
    have hsession : r.metadata.sessionField = true := by
      cases hs : r.metadata.workerSessionId with
      | none => rw [RawMetadata.sessionField, hs]
      | some s => exact absurd (by rw [hs]; rfl) hunnamed
    rw [validatePersistedCompletionMetadata, if_pos hsession, h]

/-- What a preview that passed found. -/
theorem previewed {cfg : Config} {r : CompletionValidationRequest} {w : World}
    (hok : previewOk (machine.eval (previewCompletion cfg r) w).1 = true) :
    ∃ items i run m, (∃ a, machine.eval (previewCompletion cfg r) w = (.returned a, w)) ∧
      machine.eval (workInHistory r.cardId) w = (.returned (items, i, run), w) ∧
      r.completion = .ok m := by
  have hread := reading_keeps (· = w)
  obtain ⟨a, w', hpreview⟩ : ∃ a w', machine.eval (previewCompletion cfg r) w =
      (.returned a, w') := by
    rcases hrun : machine.eval (previewCompletion cfg r) w with ⟨outcome, w'⟩
    rw [hrun] at hok
    cases outcome with
    | returned a => exact ⟨a, w', rfl⟩
    | raised e => cases hok
    | stopped => cases hok
  obtain ⟨⟨items, i, run⟩, hwork, hrest⟩ :=
    (eval_read_bind (hread.workInHistory _ w rfl)).mp hpreview
  obtain ⟨m, hm, hchecks⟩ := (eval_read_bind (hread.fromText _ w rfl)).mp hrest
  obtain ⟨u, w₁, hchecked, hanswer⟩ := machine.eval_bind_returned.mp hchecks
  obtain ⟨-, rfl⟩ := previewChecks_returns.mp hchecked
  cases hanswer
  exact ⟨items, i, run, m, ⟨_, hpreview⟩, hwork, eval_fromText hm⟩

theorem previewWorld_ok :
    previewOk (machine.eval (previewCompletion sampleConfig samplePreview) previewWorld).1 = true ∧
      sessionless (machine.eval (workInHistory ⟨2⟩) previewWorld).1 = true := by
  decide +kernel

end HollysysController
