import HollysysController.Calls

/-! # Opening the database again

At startup the Controller checks its `run_control` rows and refuses to run on a
database that fails a check. Whatever calls it served before, and wherever they
were cut off, the checks pass, and a run that has ended keeps its row. -/

namespace HollysysController

open Durable

/-! ## The checks -/

/-- `RUN_STATES`, as the check of the states lists them. -/
def runStates : List String :=
  ["active", "transition_pending", "human_blocked", "retry_wait", "dependency_degraded",
   "merge_wait", "abort_requested", "aborting", "exception", "completed", "completed_ready",
   "completed_with_findings", "completed_test_failed", "aborted", "completed_before_abort"]

/-- The ends of the code flow. -/
def RunState.isFlowEnd : RunState → Bool
  | .completedReady | .completedWithFindings | .completedTestFailed => true
  | _ => false

/-- The ends of an abort. -/
def RunState.isAbortEnd : RunState → Bool
  | .aborted | .completedBeforeAbort => true
  | _ => false

/-- The `invariant_checks` of `_validate_existing`: the code of a check, and the rows that
violate it. A comparison with NULL violates nothing. -/
def invariantChecks : List (String × (RunControl → Bool)) := [
  ("unknown_run_state", fun r => !runStates.contains r.state.value),
  ("invalid_state_version", fun r => decide (r.stateVersion < 1)),
  ("terminal_timestamp_mismatch", fun r =>
    r.state.isTerminal && r.terminalAt.isNone || !r.state.isTerminal && r.terminalAt.isSome),
  ("retry_schedule_mismatch", fun r =>
    r.state.isScheduled && r.nextRetryAt.isNone ||
      !r.state.isScheduled && !r.state.isAborting && r.nextRetryAt.isSome),
  ("completed_metadata_missing", fun r => r.state == .completed &&
    (r.compliance.any (!isCompliance ·) ||
      r.completionSource.any (fun source => source != "controller" && source != "external") ||
      !r.checkedHead.any isSha)),
  ("flow_completion_metadata_missing", fun r => r.state.isFlowEnd &&
    (r.compliance.any (!isCompliance ·) || r.completionSource.any (· != "controller") ||
      !r.checkedHead.any isSha || r.mergeCommitSha.isSome)),
  ("abort_metadata_missing", fun r => (r.state.isAborting || r.state.isAbortEnd) &&
    (!truthy r.abortRequestedBy || !truthy r.abortReason || r.abortRequestedAt.isNone)),
  ("abort_terminal_timestamp_missing", fun r => r.state.isAbortEnd && r.abortedAt.isNone),
  ("completed_before_abort_head_missing", fun r =>
    r.state == .completedBeforeAbort && !r.checkedHead.any isSha),
  ("invalid_merge_commit_sha", fun r => r.mergeCommitSha.any (!isSha ·))]

/-- The startup fails with `controller_store_invariant_failed:{code}`. -/
def Store.Refused (s : Store) (code : String) : Prop :=
  ∃ check ∈ invariantChecks, check.1 = code ∧
    ∃ k row, s.runControl k = some row ∧ check.2 row = true

/-! ## What every row satisfies -/

/-- A completion is recorded with its compliance, its source and its head. -/
structure CompletionRecorded (row : RunControl) : Prop where
  compliance : row.compliance.any isCompliance = true
  source : row.completionSource = some "controller" ∨
    row.state = .completed ∧ row.completionSource = some "external"
  head : row.checkedHead.any isSha = true

/-- An abort is recorded with who asked for it, why and when. -/
structure AbortRecorded (row : RunControl) : Prop where
  requestedBy : truthy row.abortRequestedBy = true
  reason : truthy row.abortReason = true
  requestedAt : row.abortRequestedAt.isSome = true

structure RunControl.Sound (row : RunControl) : Prop where
  version : 1 ≤ row.stateVersion
  ended : row.terminalAt.isSome = row.state.isTerminal
  scheduled : row.state.isAborting = false → row.nextRetryAt.isSome = row.state.isScheduled
  completed : row.state = .completed ∨ row.state.isFlowEnd = true → CompletionRecorded row
  abort : row.state.isAborting = true ∨ row.state.isAbortEnd = true → AbortRecorded row
  aborted : row.state.isAbortEnd = true → row.abortedAt.isSome = true
  merged : row.state = .completedBeforeAbort → row.checkedHead.any isSha = true
  /-- Only the ends that can follow a merge have a merge commit. -/
  unmerged : row.state ≠ .completed → row.state.isAbortEnd = false → row.mergeCommitSha = none
  mergeCommit : row.mergeCommitSha.all isSha = true

/-- The rows of the store pass, and no abort was requested without a name and a reason. -/
structure Store.Sound (s : Store) : Prop where
  rows : ∀ k row, s.runControl k = some row → row.Sound
  requests : ∀ r ∈ s.abortRequests, r.sender ≠ "" ∧ r.reason ≠ ""

theorem RunControl.sound_default : ({} : RunControl).Sound where
  version := le_rfl
  ended := rfl
  scheduled _ := rfl
  completed h := by simp [RunState.isFlowEnd] at h
  abort h := by simp [RunState.isAborting, RunState.isAbortEnd] at h
  aborted h := by cases h
  merged h := by cases h
  unmerged _ _ := rfl
  mergeCommit := rfl

theorem runStates_all (state : RunState) : runStates.contains state.value = true := by
  cases state <;> decide

theorem CompletionRecorded.passes {row : RunControl} (h : CompletionRecorded row) :
    row.compliance.any (!isCompliance ·) = false ∧ row.checkedHead.any isSha = true ∧
      ∃ source, row.completionSource = some source ∧
        (source = "controller" ∨ row.state = .completed ∧ source = "external") := by
  obtain ⟨c, hc, hcompliance⟩ := (Option.any_eq_true _ _).mp h.compliance
  refine ⟨by simp [hc, hcompliance], h.head, ?_⟩
  rcases h.source with hsource | ⟨hstate, hsource⟩
  · exact ⟨_, hsource, .inl rfl⟩
  · exact ⟨_, hsource, .inr ⟨hstate, rfl⟩⟩

/-- A sound row violates no check. -/
theorem RunControl.Sound.passes {row : RunControl} (h : row.Sound) :
    ∀ check ∈ invariantChecks, check.2 row = false := by
  simp only [invariantChecks, List.forall_mem_cons, List.not_mem_nil, false_imp_iff,
    implies_true, and_true]
  refine ⟨?known, ?version, ?ended, ?scheduled, ?completed, ?flow, ?abort, ?aborted, ?merged,
    ?mergeCommit⟩
  case known => simp only [runStates_all, Bool.not_true]
  case version =>
    have := h.version
    simp only [decide_eq_false_iff_not]
    omega
  case ended =>
    rw [← h.ended]
    cases row.terminalAt <;> rfl
  case scheduled =>
    cases habort : row.state.isAborting with
    | true =>
      have : row.state.isScheduled = false := by
        revert habort
        cases row.state <;> decide
      simp [this]
    | false =>
      rw [← h.scheduled habort]
      cases row.nextRetryAt <;> rfl
  case completed =>
    by_cases hstate : row.state = .completed
    · obtain ⟨hcompliance, hhead, source, hs, hsource⟩ := (h.completed (.inl hstate)).passes
      rw [hcompliance, hhead, hs]
      rcases hsource with rfl | ⟨-, rfl⟩ <;> simp
    · simp [hstate]
  case flow =>
    cases hstate : row.state.isFlowEnd with
    | false => rfl
    | true =>
      obtain ⟨hcompliance, hhead, source, hs, hsource⟩ := (h.completed (.inr hstate)).passes
      have hother : row.state ≠ .completed ∧ row.state.isAbortEnd = false := by
        revert hstate
        cases row.state <;> decide
      rw [hcompliance, hhead, hs, h.unmerged hother.1 hother.2]
      rcases hsource with rfl | ⟨hc, -⟩
      · rfl
      · exact absurd hc hother.1
  case abort =>
    cases hstate : row.state.isAborting || row.state.isAbortEnd with
    | false => rfl
    | true =>
      obtain ⟨hby, hreason, hat⟩ := h.abort (by simpa using hstate)
      rw [hby, hreason]
      cases hr : row.abortRequestedAt <;> simp_all
  case aborted =>
    cases hstate : row.state.isAbortEnd with
    | false => rfl
    | true =>
      have hat := h.aborted hstate
      cases hr : row.abortedAt <;> simp_all
  case merged =>
    by_cases hstate : row.state = .completedBeforeAbort
    · simp [h.merged hstate]
    · simp [hstate]
  case mergeCommit =>
    have hmerge := h.mergeCommit
    cases hr : row.mergeCommitSha <;> simp_all

theorem Store.Sound.accepted {s : Store} (h : s.Sound) (code : String) : ¬ s.Refused code := by
  rintro ⟨check, hcheck, -, k, row, hrow, hviolated⟩
  rw [(h.rows k row hrow).passes check hcheck] at hviolated
  cases hviolated

/-! ## What one operation does -/

/-- The run is being aborted, or its abort has come to its end. -/
def RunState.inAbort (state : RunState) : Bool := state.isAborting || state.isAbortEnd

/-- The step keeps the rows sound, the rows of runs that have ended as they are, and an
abort an abort. -/
structure Advances (s s' : Store) : Prop where
  sound : s.Sound → s'.Sound
  absorbed : ∀ k row, s.runControl k = some row → row.state.isTerminal = true →
    s'.runControl k = some row
  aborts : ∀ k row, s.runControl k = some row → row.state.inAbort = true →
    ∃ row', s'.runControl k = some row' ∧ row'.state.inAbort = true

theorem Advances.refl (s : Store) : Advances s s :=
  ⟨id, fun _ _ h _ => h, fun _ row h habort => ⟨row, h, habort⟩⟩

theorem Advances.trans {s s' s'' : Store} (h : Advances s s') (h' : Advances s' s'') :
    Advances s s'' where
  sound hs := h'.sound (h.sound hs)
  absorbed k row hrow hended := h'.absorbed k row (h.absorbed k row hrow hended) hended
  aborts k row hrow habort := by
    obtain ⟨row', hrow', habort'⟩ := h.aborts k row hrow habort
    exact h'.aborts k row' hrow' habort'

/-- What leaves the rows alone and names each abort request advances. -/
theorem advances_unmoved {s s' : Store} (hcontrol : s'.runControl = s.runControl)
    (hrequests : s.Sound → ∀ r ∈ s'.abortRequests, r.sender ≠ "" ∧ r.reason ≠ "") :
    Advances s s' where
  sound hs := ⟨by rw [hcontrol]; exact hs.rows, hrequests hs⟩
  absorbed k row hrow _ := by rw [hcontrol]; exact hrow
  aborts k row hrow habort := ⟨row, by rw [hcontrol]; exact hrow, habort⟩

/-- What touches neither the rows nor the abort requests advances. -/
theorem advances_same {s s' : Store} (hcontrol : s'.runControl = s.runControl)
    (haborts : s'.abortRequests = s.abortRequests) : Advances s s' :=
  advances_unmoved hcontrol fun hs => by rw [haborts]; exact hs.requests

/-- One row is written, over none or over the row of a run that has not ended. -/
theorem advances_put {s s' : Store} {k : String} {new : RunControl}
    (hcontrol : s'.runControl = s.runControl.put k new)
    (hrequests : s.Sound → ∀ r ∈ s'.abortRequests, r.sender ≠ "" ∧ r.reason ≠ "")
    (hnew : s.Sound → new.Sound)
    (hlive : ∀ row, s.runControl k = some row → row.state.isTerminal = false ∧
      (row.state.isAborting = true → new.state.inAbort = true)) :
    Advances s s' where
  sound hs := by
    refine ⟨fun k' row hrow => ?_, hrequests hs⟩
    rw [hcontrol, Table.put_apply] at hrow
    split at hrow
    · cases hrow
      exact hnew hs
    · exact hs.rows k' row hrow
  absorbed k' row hrow hended := by
    by_cases hk : k' = k
    · subst hk
      rw [(hlive row hrow).1] at hended
      cases hended
    · rw [hcontrol, Table.put_ne _ _ hk]
      exact hrow
  aborts k' row hrow habort := by
    by_cases hk : k' = k
    · subst hk
      obtain ⟨hended, hstays⟩ := hlive row hrow
      refine ⟨new, by rw [hcontrol, Table.put_self], hstays ?_⟩
      revert habort hended
      cases row.state <;> decide
    · exact ⟨row, by rw [hcontrol, Table.put_ne _ _ hk]; exact hrow, habort⟩

theorem advances_commit {α : Type} {t : Txn α}
    (h : ∀ s a s', t s = .ok (a, s') → Advances s s') (s : Store) : Advances s (t.commit s).2 := by
  unfold Txn.commit
  split
  · exact h s _ _ ‹_›
  · exact .refl s

/-- The row written over that of a live run, by a transition the service issues. -/
theorem Transition.Issued.apply_sound {t : Transition} (ht : t.Issued) {row : RunControl}
    (hrow : row.Sound) (hstate : row.state ∈ t.expectedStates) (now : Nat) :
    (t.apply now row).Sound := by
  have hlive := ht.live _ hstate
  have hunended := ht.unended
  have hnew : (t.apply now row).state = t.newState := rfl
  have hother : t.newState ≠ .completed ∧ t.newState.isFlowEnd = false ∧
      t.newState.isAbortEnd = false ∧ t.newState ≠ .completedBeforeAbort := by
    revert hunended
    cases t.newState <;> decide
  have hold : row.mergeCommitSha = none := by
    refine hrow.unmerged ?_ ?_ <;> revert hlive <;> cases row.state <;> decide
  have hmerge : (t.apply now row).mergeCommitSha = none := by
    show (t.mergeCommitSha <|> row.mergeCommitSha) = none
    rw [ht.unmerged, hold]
    rfl
  refine ⟨by simp [apply], ?_, fun h => ht.scheduled h, ?_, ?_, ?_, ?_, fun _ _ => hmerge, ?_⟩
  · show (if t.newState.isTerminal then some now else none).isSome = t.newState.isTerminal
    simp [hunended]
  · rw [hnew]
    rintro (h | h)
    · exact absurd h hother.1
    · rw [hother.2.1] at h
      cases h
  · rw [hnew]
    rintro (h | h)
    · -- the abort goes on, and its request stays recorded
      obtain ⟨hby, hreason, hat⟩ := hrow.abort (.inl ((ht.abort _ hstate).trans h))
      exact ⟨hby, hreason, hat⟩
    · rw [hother.2.2.1] at h
      cases h
  · rw [hnew, hother.2.2.1]
    exact fun h => by cases h
  · rw [hnew]
    exact fun h => absurd h hother.2.2.2
  · rw [hmerge]
    rfl

/-- A transition advances when the row it writes over a live one is sound. -/
theorem transitionRun_advances {t : Transition} {now : Nat}
    (hlive : ∀ state ∈ t.expectedStates, state.isTerminal = false ∧
      (state.isAborting = true → t.newState.inAbort = true))
    (hnew : ∀ row : RunControl, row.Sound → row.state ∈ t.expectedStates →
      (t.apply now row).Sound) (s : Store) (a : RunControl) (s' : Store)
    (h : transitionRun t now s = .ok (a, s')) : Advances s s' := by
  unfold transitionRun at h
  split at h
  · cases h
  · next row hrow =>
    split at h
    · cases h
    · next hstate =>
      split at h <;> cases h
      refine advances_put rfl Store.Sound.requests (fun hs => hnew row (hs.rows _ _ hrow) (not_not.mp hstate))
        fun q hq => ?_
      cases hrow.symm.trans hq
      exact hlive _ (not_not.mp hstate)

theorem Transition.Issued.advances {t : Transition} (ht : t.Issued) (now : Nat) (s : Store)
    (a : RunControl) (s' : Store) (h : transitionRun t now s = .ok (a, s')) : Advances s s' :=
  transitionRun_advances (fun state hs => ⟨ht.live state hs, fun habort => by
      rw [RunState.inAbort, ← ht.abort state hs, habort]
      rfl⟩)
    (fun _ hrow hstate => ht.apply_sound hrow hstate now) s a s' h

theorem unsettledStates_live : ∀ state ∈ unsettledStates,
    state.isTerminal = false ∧ state.isAborting = false := by
  decide

/-- A live run that is not being aborted has no abort to keep. -/
theorem RunState.keeps_no_abort {state : RunState} {p : Prop}
    (h : state.isTerminal = false ∧ state.isAborting = false) :
    state.isTerminal = false ∧ (state.isAborting = true → p) := by
  refine ⟨h.1, fun habort => ?_⟩
  rw [h.2] at habort
  cases habort

theorem setRunException_advances (runKey reason : String) (now : Nat) (s : Store)
    (a : RunControl) (s' : Store) (h : setRunException runKey reason now s = .ok (a, s')) :
    Advances s s' := by
  unfold setRunException at h
  split at h
  · cases h
  · split at h
    · cases h
      exact .refl s
    · have hissued : Transition.Issued
          { runKey, expectedStates := unsettledStates, newState := .exception, reason } :=
        ⟨fun _ h => (unsettledStates_live _ h).1, rfl, fun _ => rfl,
          fun _ h => (unsettledStates_live _ h).2, rfl⟩
      exact hissued.advances now s a s' h

/-- The row of a live run that is completed. -/
theorem completed_sound {t : Transition} {row : RunControl} {now : Nat} (hrow : row.Sound)
    (hlive : row.state.isTerminal = false)
    (hstate : t.newState = .completed ∨ t.newState.isFlowEnd = true ∧ t.mergeCommitSha = none)
    (hretry : t.nextRetryAt = none) (hcompliance : t.compliance.any isCompliance = true)
    (hsource : t.completionSource = some "controller" ∨
      t.newState = .completed ∧ t.completionSource = some "external")
    (hhead : t.checkedHead.any isSha = true) (hmerge : t.mergeCommitSha.all isSha = true) :
    (t.apply now row).Sound := by
  have hkind : t.newState.isTerminal = true ∧ t.newState.isScheduled = false ∧
      t.newState.isAborting = false ∧ t.newState.isAbortEnd = false ∧
      t.newState ≠ .completedBeforeAbort := by
    rcases hstate with h | ⟨h, -⟩
    · rw [h]
      decide
    · revert h
      cases t.newState <;> decide
  obtain ⟨hterminal, hscheduled, haborting, habortEnd, hbefore⟩ := hkind
  have hold : row.mergeCommitSha = none := by
    refine hrow.unmerged ?_ ?_ <;> revert hlive <;> cases row.state <;> decide
  have hnew : (t.apply now row).mergeCommitSha = t.mergeCommitSha := by
    show (t.mergeCommitSha <|> row.mergeCommitSha) = t.mergeCommitSha
    rw [hold]
    cases t.mergeCommitSha <;> rfl
  refine ⟨by simp [Transition.apply], ?_, fun _ => ?_, fun _ => ⟨?_, ?_, ?_⟩, ?_, ?_, ?_, ?_, ?_⟩
  · show (if t.newState.isTerminal then some now else none).isSome = t.newState.isTerminal
    simp [hterminal]
  · show t.nextRetryAt.isSome = t.newState.isScheduled
    rw [hretry, hscheduled]
    rfl
  · obtain ⟨c, hc, h⟩ := (Option.any_eq_true _ _).mp hcompliance
    simp [Transition.apply, hc, h]
  · rcases hsource with h | ⟨hc, h⟩
    · exact .inl (by simp [Transition.apply, h])
    · exact .inr ⟨hc, by simp [Transition.apply, h]⟩
  · obtain ⟨c, hc, h⟩ := (Option.any_eq_true _ _).mp hhead
    simp [Transition.apply, hc, h]
  · show t.newState.isAborting = true ∨ t.newState.isAbortEnd = true → _
    simp [haborting, habortEnd]
  · show t.newState.isAbortEnd = true → _
    simp [habortEnd]
  · exact fun h => absurd h hbefore
  · intro hc _
    rw [hnew]
    exact hstate.elim (fun h => absurd h hc) (·.2)
  · rw [hnew]
    exact hmerge

theorem flowCompliance_some {state : RunState} {compliance : String}
    (h : flowCompliance state = some compliance) :
    state.isFlowEnd = true ∧ isCompliance compliance = true := by
  revert h
  cases state <;> simp [flowCompliance, RunState.isFlowEnd] <;> rintro rfl <;> decide

theorem markFlowCompleted_advances (runKey : String) (state : RunState) (head reason : String)
    (now : Nat) (s : Store) (a : RunControl) (s' : Store)
    (h : markFlowCompleted runKey state head reason now s = .ok (a, s')) : Advances s s' := by
  unfold markFlowCompleted at h
  split at h
  · cases h
  · next compliance hcompliance =>
    obtain ⟨hflow, hc⟩ := flowCompliance_some hcompliance
    split at h
    · cases h
    · next hsha =>
      split at h
      · cases h
      · split at h
        · cases h
          exact .refl s
        · exact transitionRun_advances (fun _ hs => RunState.keeps_no_abort (unsettledStates_live _ hs))
            (fun row hrow hstate => completed_sound hrow (unsettledStates_live _ hstate).1
              (.inr ⟨hflow, rfl⟩) rfl (by simpa using hc) (.inl rfl) (by simpa using hsha) rfl)
            s a s' h

theorem markCompleted_advances {compliance : String} (hcompliance : isCompliance compliance = true)
    (runKey : String) (external : Bool) (head : String) (merge : Option String) (reason : String)
    (now : Nat) (s : Store) (a : RunControl) (s' : Store)
    (h : markCompleted runKey external compliance head merge reason now s = .ok (a, s')) :
    Advances s s' := by
  have hlive : ∀ state ∈ RunState.exception :: unsettledStates,
      state.isTerminal = false ∧ state.isAborting = false := by
    decide
  unfold markCompleted at h
  split at h
  · cases h
  · next hsha =>
    split at h
    · cases h
    · next hmerge =>
      split at h
      · cases h
      · split at h
        · cases h
          exact .refl s
        · refine transitionRun_advances (fun _ hs => RunState.keeps_no_abort (hlive _ hs))
            (fun row hrow hstate => completed_sound hrow (hlive _ hstate).1 (.inl rfl) rfl
              (by simpa using hcompliance) ?_ (by simpa using hsha) ?_) s a s' h
          · cases external
            · exact .inl rfl
            · exact .inr ⟨rfl, rfl⟩
          · cases merge <;> simp_all

theorem ensureRunControl_advances (runKey : String) (s : Store) (a : Unit) (s' : Store)
    (h : ensureRunControl runKey s = .ok (a, s')) : Advances s s' := by
  unfold ensureRunControl at h
  split at h <;> cases h
  · exact .refl s
  · next hnone =>
    exact advances_put rfl Store.Sound.requests (fun _ => RunControl.sound_default) fun row hrow => by
      rw [hnone] at hrow
      cases hrow

theorem markAborting_advances (runKey : String) (s : Store) (a : Unit) (s' : Store)
    (h : markAborting runKey s = .ok (a, s')) : Advances s s' := by
  unfold markAborting at h
  split at h
  · cases h
    exact .refl s
  · next row hrow =>
    split at h <;> cases h
    · next hstate =>
      refine advances_put rfl Store.Sound.requests (fun hs => ?_) fun q hq => ?_
      · have hr := hs.rows _ _ hrow
        have habort := hr.abort (.inl (by rw [hstate]; rfl))
        refine ⟨by simp [RunControl.abortStarted], rfl, nofun, ?_, fun _ => ⟨habort.requestedBy,
          habort.reason, habort.requestedAt⟩, nofun, nofun, fun _ _ => ?_, ?_⟩
        · rintro (h | h) <;> cases h
        · exact hr.unmerged (by rw [hstate]; nofun) (by rw [hstate]; rfl)
        · exact hr.mergeCommit
      · cases hrow.symm.trans hq
        exact ⟨by rw [hstate]; rfl, fun _ => rfl⟩
    · exact .refl s

theorem finishAbort_advances (runKey : String) (merged : Bool) (head merge : Option String)
    (now : Nat) (s : Store) (a : Unit) (s' : Store)
    (h : finishAbort runKey merged head merge now s = .ok (a, s')) : Advances s s' := by
  unfold finishAbort at h
  split at h
  · cases h
  · next hhead =>
    split at h
    · cases h
    · next hmerge =>
      split at h
      · cases h
        exact .refl s
      · next row hrow =>
        split at h <;> cases h
        · next hstate =>
          have haborting : row.state.isAborting = true := by
            rcases hstate with h | h <;> rw [h] <;> rfl
          refine advances_put rfl Store.Sound.requests (fun hs => ?_) fun q hq => ?_
          · have hr := hs.rows _ _ hrow
            have habort := hr.abort (.inl haborting)
            have hold : row.mergeCommitSha = none := by
              refine hr.unmerged ?_ ?_ <;> rcases hstate with h | h <;> rw [h] <;> decide
            refine ⟨by simp [RunControl.abortFinished], ?_, ?_, ?_, fun _ =>
              ⟨habort.requestedBy, habort.reason, habort.requestedAt⟩, fun _ => rfl, ?_, ?_, ?_⟩
            · cases merged <;> rfl
            · cases merged <;> exact fun _ => rfl
            · cases merged <;> rintro (h | h) <;> cases h
            · cases merged
              · nofun
              · intro _
                obtain ⟨c, hc, hsha⟩ := (Option.any_eq_true _ _).mp (by simpa using hhead)
                simp [RunControl.abortFinished, hc, hsha]
            · cases merged <;> exact fun _ h => by cases h
            · show (merge <|> row.mergeCommitSha).all isSha = true
              rw [hold]
              cases merge <;> simp_all
          · cases hrow.symm.trans hq
            refine ⟨?_, fun _ => by cases merged <;> rfl⟩
            revert haborting
            cases row.state <;> decide
        · exact .refl s

/-! ## Abort requests -/

theorem createAbortRequest_advances {row : AbortRow} (hrow : row.sender ≠ "" ∧ row.reason ≠ "")
    (now : Nat) (s : Store) (a : Unit) (s' : Store)
    (h : createAbortRequest row now s = .ok (a, s')) : Advances s s' := by
  unfold createAbortRequest at h
  split at h
  · cases h
  · split at h
    · cases h
    · split at h <;> cases h
      refine advances_unmoved rfl fun hs r hr => ?_
      rcases List.mem_append.mp hr with hr | hr
      · obtain ⟨r₀, hr₀, rfl⟩ := List.mem_map.mp hr
        split
        · exact hs.requests r₀ hr₀
        · exact hs.requests r₀ hr₀
      · cases List.mem_singleton.mp hr
        exact hrow

theorem pendingAbort_mem {s : Store} {runKey : String} {row : AbortRow}
    (h : s.pendingAbort runKey = some row) : row ∈ s.abortRequests := by
  have hmem := List.mem_of_mem_head? h
  rw [List.mem_insertionSort] at hmem
  exact (List.mem_filter.mp hmem).1

theorem abortableStates_live : ∀ state ∈ abortableStates,
    state.isTerminal = false ∧ state.isAborting = false := by
  decide

/-- The row of a confirmed abort names who asked for it and why. -/
theorem abortConfirmed_sound {row : AbortRow} {r : RunControl} {sender : String} {now : Nat}
    (hr : r.Sound) (hstate : r.state ∈ abortableStates)
    (hrow : row.sender ≠ "" ∧ row.reason ≠ "") (hsender : row.sender = sender) :
    (r.abortConfirmed row sender now).Sound := by
  obtain ⟨hlive, -⟩ := abortableStates_live _ hstate
  subst hsender
  refine ⟨by simp [RunControl.abortConfirmed], rfl, nofun, ?_, fun _ => ⟨?_, ?_, rfl⟩, nofun,
    nofun, fun _ _ => ?_, hr.mergeCommit⟩
  · rintro (h | h) <;> cases h
  · simpa [truthy, RunControl.abortConfirmed] using hrow.1
  · simpa [truthy, RunControl.abortConfirmed] using hrow.2
  · refine hr.unmerged ?_ ?_ <;> revert hlive <;> cases r.state <;> decide

theorem confirmRequest_advances (c : AbortConfirmation) (now : Nat) (s : Store)
    (a : Option RunControl) (s' : Store) (h : confirmRequest c now s = .ok (a, s')) :
    Advances s s' := by
  unfold confirmRequest at h
  split at h
  · cases h
  · next row hrow =>
    have hmem := pendingAbort_mem hrow
    split at h
    · cases h
    · split at h
      · cases h
      · next hmatch =>
        have hsender : row.sender = c.sender := by
          simp only [AbortConfirmation.matchesRequest, Bool.not_eq_true', Bool.not_eq_false,
            Bool.and_eq_true, beq_iff_eq] at hmatch
          exact hmatch.1.1.2
        dsimp only at h
        have hrequests : s.Sound → ∀ r ∈ s.abortRequests.map (fun r =>
            if r.requestId = row.requestId then
              { r with status := .confirmed, confirmMessageId := some c.messageId } else r),
            r.sender ≠ "" ∧ r.reason ≠ "" := by
          intro hs r hr
          obtain ⟨r₀, hr₀, rfl⟩ := List.mem_map.mp hr
          split
          · exact hs.requests r₀ hr₀
          · exact hs.requests r₀ hr₀
        split at h
        · cases h
          exact advances_unmoved rfl hrequests
        · next control hcontrol =>
          split at h <;> cases h
          · next hstate =>
            refine advances_put rfl hrequests (fun hs => abortConfirmed_sound
              (hs.rows _ _ hcontrol) hstate (hs.requests row hmem) hsender) fun q hq => ?_
            cases hcontrol.symm.trans hq
            exact RunState.keeps_no_abort (abortableStates_live _ hstate)
          · exact advances_unmoved rfl hrequests

theorem confirmAbortRequest_advances (c : AbortConfirmation) (now : Nat) (s : Store) :
    Advances s (confirmAbortRequest c now s).2 := by
  have h := advances_commit (confirmRequest_advances c now) s
  unfold confirmAbortRequest
  rcases hx : (confirmRequest c now).commit s with ⟨r, s'⟩
  rw [hx] at h
  cases r with
  | error e => exact h
  | ok control =>
    dsimp only
    split <;> exact h

/-- **Every operation the service issues advances**, committed or rolled back. -/
theorem StoreOp.exec_advances {o : StoreOp} (ho : o.Issued) (now : Nat) (s : Store) :
    Advances s (o.exec now s).2 := by
  by_cases hw : Column.control ∈ o.writes ∨ Column.aborts ∈ o.writes
  · cases o <;> simp only [StoreOp.writes, List.mem_cons, List.not_mem_nil, reduceCtorEq,
      or_self, or_false] at hw
    case ensureRunControl runKey => exact advances_commit (ensureRunControl_advances runKey) s
    case createAbortRequest row => exact advances_commit (createAbortRequest_advances ho now) s
    case confirmAbortRequest c => exact confirmAbortRequest_advances c now s
    case transitionRun t => exact advances_commit (Transition.Issued.advances ho now) s
    case setRunException runKey reason =>
      exact advances_commit (setRunException_advances runKey reason now) s
    case markFlowCompleted runKey state head reason =>
      exact advances_commit (markFlowCompleted_advances runKey state head reason now) s
    case markCompleted runKey external compliance head merge reason =>
      exact advances_commit (markCompleted_advances ho runKey external head merge reason now) s
    case markAborting runKey => exact advances_commit (markAborting_advances runKey) s
    case finishAbort runKey merged head merge =>
      exact advances_commit (finishAbort_advances runKey merged head merge now) s
  · obtain ⟨hcontrol, haborts⟩ := not_or.mp hw
    exact advances_same (o.exec_get (c := .control) now s hcontrol)
      (o.exec_get (c := .aborts) now s haborts)

/-! ## Whole runs -/

/-- What another thread does to the store in one step: an operation the service issues, or
something on the tables that the checks do not read. -/
inductive StoreMove : Store → Store → Prop
  | issued (s : Store) (o : StoreOp) (now : Nat) (ho : o.Issued) : StoreMove s (o.exec now s).2
  | elsewhere (s s' : Store) (hcontrol : s'.runControl = s.runControl)
      (haborts : s'.abortRequests = s.abortRequests) : StoreMove s s'

/-- The other threads issue operations of their own, the world around the store changes at
will, and every operation may fail or be the last one before a stop. -/
def serving : Setting Op ControllerError World where
  others w w' := Relation.ReflTransGen StoreMove w.store w'.store
  faults _ _ _ := True

/-- A call that is served, to its end or up to a stop, or time that passes between calls. -/
inductive Serves (cfg : Config) : World → World → Prop
  | call (c : Call) {w w' : World} {r : Durable.Outcome ControllerError Unit}
      (h : Runs machine serving (c.run cfg) w r w') : Serves cfg w w'
  | between {w w' : World} (h : serving.others w w') : Serves cfg w w'

theorem StoreMove.advances {s s' : Store} (h : StoreMove s s') : Advances s s' := by
  cases h with
  | issued o now ho => exact o.exec_advances ho now s
  | elsewhere _ hcontrol haborts => exact advances_same hcontrol haborts

theorem moves_advance {s s' : Store} (h : Relation.ReflTransGen StoreMove s s') :
    Advances s s' := by
  induction h with
  | refl => exact .refl _
  | tail _ hmove ih => exact ih.trans hmove.advances

theorem serving_advances {w w' : World} (h : serving.others w w') :
    Advances w.store w'.store :=
  moves_advance h

theorem Op.exec_advances {o : Op} (ho : o.Issued) (w : World) :
    Advances w.store (machine.exec o w).2.store := by
  cases o with
  | store o => exact o.exec_advances ho w.now w.store
  | hermes o => exact .refl _
  | gitlab o => exact .refl _
  | host o => exact .refl _

theorem Serves.advances {cfg : Config} {w w' : World} (h : Serves cfg w w') :
    Advances w.store w'.store := by
  cases h with
  | call c h =>
    exact h.sound (wp_invariant (I := fun v : World => Advances w.store v.store)
      (fun s s' hs ho => hs.trans (serving_advances ho))
      (fun o s ho hs => hs.trans (o.exec_advances ho s)) (issuing_uses.call cfg c) (.refl _))
  | between h => exact serving_advances h

theorem served_advances {cfg : Config} {w w' : World}
    (h : Relation.ReflTransGen (Serves cfg) w w') : Advances w.store w'.store := by
  induction h with
  | refl => exact .refl _
  | tail _ hstep ih => exact ih.trans hstep.advances

/-- **A restart never refuses the database, and the end of a run stays as it is.** From an
empty database, through any calls in any interleaving and stopped at any commit, no check
of the startup fails; and from there on the row of a run that has ended is never written
again. -/
theorem served_database {cfg : Config} {w₀ w w' : World} (hempty : w₀.store = {})
    (h : Relation.ReflTransGen (Serves cfg) w₀ w) (h' : Relation.ReflTransGen (Serves cfg) w w') :
    (∀ code, ¬ w.store.Refused code) ∧
      ∀ k row, w.store.runControl k = some row → row.state.isTerminal = true →
        w'.store.runControl k = some row := by
  have hsound : w₀.store.Sound := by
    rw [hempty]
    exact ⟨fun _ _ h => (by cases h), fun _ h => (by cases h)⟩
  exact ⟨((served_advances h).sound hsound).accepted, (served_advances h').absorbed⟩

/-! ## A run that is aborted on request -/

/-- The worlds that undisturbed calls lead to. -/
def served (calls : List Call) (w : World) : World :=
  calls.foldl (fun w c => (machine.replay (c.run sampleConfig) [] w).2) w

theorem served_serves (calls : List Call) (w : World) :
    Relation.ReflTransGen (Serves sampleConfig) w (served calls w) := by
  induction calls generalizing w with
  | nil => exact .refl
  | cons c cs ih =>
    have hc : Serves sampleConfig w (machine.replay (c.run sampleConfig) [] w).2 :=
      .call c (replay_runs (fun _ => Relation.ReflTransGen.refl) (fun _ _ _ => trivial) _ [] w)
    exact .head hc (ih _)

def askedAbort : AbortRequest where
  runKey := "hollysys-k1"
  messageId := "om_10"
  sender := "ou_1"
  chatId := "oc_1"
  reason := "wrong branch"

def confirmedAbort : AbortConfirmRequest where
  runKey := "hollysys-k1"
  token := "ABCDEFGH"
  messageId := "om_11"
  sender := "ou_1"
  chatId := "oc_1"

/-- The sample run is started, and aborted as its initiator asks. -/
def abortedWorld : World :=
  served [.start ⟨"g1", "k1"⟩ false sampleStart, .abortRequest "ABCDEFGH" askedAbort (by decide),
    .abortConfirm confirmedAbort, .reconcile "hollysys-k1"] unstartedWorld

theorem abortedWorld_kept :
    (∀ code, ¬ abortedWorld.store.Refused code) ∧
      ∃ row, abortedWorld.store.runControl "hollysys-k1" = some row ∧ row.state = .aborted ∧
        (served [.recover ⟨"om_12", "hollysys-k1", "try again", "ou_1", "oc_1", none⟩,
          .reconcile "hollysys-k1"] abortedWorld).store.runControl "hollysys-k1" = some row := by
  have hstate : (abortedWorld.store.runControl "hollysys-k1").map (·.state) = some .aborted := by
    decide +kernel
  obtain ⟨row, hrow, hended⟩ := Option.map_eq_some_iff.mp hstate
  have haborted : Relation.ReflTransGen (Serves sampleConfig) unstartedWorld abortedWorld :=
    served_serves _ _
  obtain ⟨hrefused, hkept⟩ := served_database (rfl : unstartedWorld.store = {})
    haborted (served_serves [.recover ⟨"om_12", "hollysys-k1", "try again", "ou_1", "oc_1", none⟩,
      .reconcile "hollysys-k1"] abortedWorld)
  exact ⟨hrefused, row, hrow, hended, hkept _ _ hrow (by rw [hended]; rfl)⟩

end HollysysController
