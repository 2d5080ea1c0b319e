import HollysysController.Durable.Trace
import HollysysController.HistoryReads
import HollysysController.Passes
import HollysysController.RunStates
import HollysysController.Status

/-! # Who vouched for a finished run

A pass that marks a run `completed_ready` has read a test gate and a code-review
gate of one delivery, each with the author of its note. The authors differ
as long as no GitLab user vouches for both code gates; nothing in the pass
compares them. -/

namespace HollysysController

open Durable

/-! ## The gates that were read -/

/-- A gate whose note was found, with the author of the note. -/
structure GateRead where
  run : RunRecord
  gate : CompletionPayload
  author : String
  deriving DecidableEq, Repr

def gateRead : (o : Op) → o.Ret → Option GateRead
  | .gitlab (.gateNote run _ m), author => some ⟨run, m, author⟩
  | _, _ => none

/-- The machine that notes the gates it reads. -/
abbrev gateMachine : Machine Op Op.Ret ControllerError (World × List GateRead) :=
  machine.noted gateRead

/-- A passed gate of the run. -/
structure GateRead.Passed (e : GateRead) (runKey : String) (s : Stage) : Prop where
  run : e.run.runKey = runKey
  stage : e.gate.stage = s
  outcome : e.gate.outcome = .pass

/-- The passed code gates of one delivery. -/
structure CodeGates (runKey : String) (t r : GateRead) : Prop where
  test : t.Passed runKey .test
  review : r.Passed runKey .codeReview
  delivery : sameDelivery t.gate r.gate = true

def BothGates (runKey : String) (reads : List GateRead) : Prop :=
  ∃ t ∈ reads, ∃ r ∈ reads, CodeGates runKey t r

/-- The run was finished on code gates of two authors. -/
def DistinctAuthors (runKey : String) (reads : List GateRead) : Prop :=
  ∃ t ∈ reads, ∃ r ∈ reads, CodeGates runKey t r ∧ t.author ≠ r.author

/-! ## The users of GitLab -/

/-- The note marks a passed gate of the run, and an allowed identity wrote it. -/
structure GateNote.Vouches (n : GateNote) (identities : Stage → List String) (runKey : String)
    (s : Stage) : Prop where
  allowed : n.author.allowed (identities s) = true
  marker : ∃ marker, n.marker = some marker ∧ marker.run = runKey ∧ marker.stage = s.value ∧
    marker.result = Outcome.pass.value

/-- No GitLab user vouches for both code gates of the run. -/
def SeparateUsers (identities : Stage → List String) (runKey : String) (notes : Set GateNote) :
    Prop :=
  ∀ t ∈ notes, ∀ r ∈ notes, t.Vouches identities runKey .test →
    r.Vouches identities runKey .codeReview → t.author.text ≠ r.author.text

/-- The notes of the run are among these, and these identities are configured. -/
structure GitLabOf (identities : Stage → List String) (notes : Set GateNote) (g : GitLab) :
    Prop where
  identities : g.reviewerIdentities = identities
  notes : ∀ run iid ns, g.notes run iid = .ok ns → ∀ n ∈ ns, n ∈ notes

/-- The completion on the card of a code gate names the stage of its card, as a
completion has to before it is accepted. -/
def CompletionNamed (runKey : String) (t : TaskRecord) : Prop :=
  ∀ record m, parseCardBody t.body = .ok record → record.run.runKey = runKey →
    record.stage.isCodeGate = true → validatePersistedCompletionMetadata t.latestMetadata = .ok m →
    m.stage = record.stage

/-- The cards of the stages are work cards, and their completions name their stage. -/
structure GatesNamed (runKey : String) (w : World) : Prop where
  cards : ∀ c ∈ w.store.cardsForRun runKey, ∀ s, c.stage = .work s → c.purpose = .work
  tasks : ∀ board id t, w.hermes.task board id = some t → CompletionNamed runKey t

/-- Everybody else may do anything but mark the run `completed_ready`, and whatever is
done, the notes of the run stay among the given ones. Any step may fail, or be the last. -/
def gateSetting (identities : Stage → List String) (notes : Set GateNote) (runKey : String) :
    Setting Op ControllerError World where
  others w w' := GitLabOf identities notes w'.gitlab ∧ GatesNamed runKey w' ∧
    (stateOf runKey w' = .completedReady → stateOf runKey w = .completedReady)
  faults _ _ _ := True

/-- The states that passes over the run lead to, with the gates they have read. -/
inductive GateRun (cfg : Config) (identities : Stage → List String) (notes : Set GateNote)
    (runKey : String) : World × List GateRead → Prop
  | start {w} (hgitlab : GitLabOf identities notes w.gitlab)
      (hstate : stateOf runKey w ≠ .completedReady) : GateRun cfg identities notes runKey (w, [])
  | others {s s'} (h : GateRun cfg identities notes runKey s)
      (hothers : ((gateSetting identities notes runKey).noted GateRead).others s s') :
      GateRun cfg identities notes runKey s'
  | pass {s s' r} (h : GateRun cfg identities notes runKey s)
      (hpass : Runs gateMachine ((gateSetting identities notes runKey).noted GateRead)
        (reconcileRun cfg runKey) s r s') : GateRun cfg identities notes runKey s'

/-! ## What a pass keeps -/

section Pass

variable {cfg : Config} {identities : Stage → List String} {notes : Set GateNote}
variable {runKey : String} {reads : List GateRead}

/-- The gate was read off a note of the run. -/
def GateRead.FromNote (identities : Stage → List String) (notes : Set GateNote)
    (e : GateRead) : Prop :=
  ∃ n ∈ notes, n.marker = some (expectedMarker e.run e.gate) ∧
    n.author.allowed (identities e.gate.stage) = true ∧ n.author.text = e.author

/-- What holds at any time when `reads` have been read. -/
structure Watched (identities : Stage → List String) (notes : Set GateNote) (runKey : String)
    (reads : List GateRead) (s : World × List GateRead) : Prop where
  gitlab : GitLabOf identities notes s.1.gitlab
  grows : reads ⊆ s.2
  fromNotes : ∀ e ∈ s.2, e.FromNote identities notes
  marked : stateOf runKey s.1 = .completedReady → BothGates runKey s.2

abbrev watching (identities : Stage → List String) (notes : Set GateNote) (runKey : String) :
    Setting Op ControllerError (World × List GateRead) :=
  (gateSetting identities notes runKey).noted GateRead

theorem BothGates.mono {reads reads' : List GateRead} (h : BothGates runKey reads)
    (hsub : reads ⊆ reads') : BothGates runKey reads' := by
  obtain ⟨t, ht, r, hr, hgates⟩ := h
  exact ⟨t, hsub ht, r, hsub hr, hgates⟩

/-- A passed gate was read off a note that vouches for it. -/
theorem GateRead.FromNote.vouches {e : GateRead} {s : Stage} (h : e.FromNote identities notes)
    (hp : e.Passed runKey s) :
    ∃ n ∈ notes, n.Vouches identities runKey s ∧ n.author.text = e.author := by
  obtain ⟨n, hn, hmarker, hallowed, htext⟩ := h
  refine ⟨n, hn, ⟨by rwa [← hp.stage], _, hmarker, hp.run, ?_, ?_⟩, htext⟩
  · simp only [expectedMarker, hp.stage]
  · simp only [expectedMarker, hp.outcome]

/-- Separate users give distinct authors. -/
theorem authors_ne {t r : GateRead} (hapart : SeparateUsers identities runKey notes)
    (ht : t.FromNote identities notes) (hr : r.FromNote identities notes)
    (hpt : t.Passed runKey .test) (hpr : r.Passed runKey .codeReview) : t.author ≠ r.author := by
  obtain ⟨n, hn, hv, htext⟩ := ht.vouches hpt
  obtain ⟨n', hn', hv', htext'⟩ := hr.vouches hpr
  rw [← htext, ← htext']
  exact hapart n hn n' hn' hv hv'

/-- The author of a gate comes from one of the notes. -/
theorem validateGateNote_fromNote {g : GitLab} (hg : GitLabOf identities notes g) {run : RunRecord}
    {iid : Nat} {m : CompletionPayload} {author : String}
    (h : g.validateGateNote run iid m = .ok author) :
    GateRead.FromNote identities notes ⟨run, m, author⟩ := by
  unfold GitLab.validateGateNote at h
  rw [hg.identities] at h
  dsimp only at h
  split at h
  · cases h
  · split at h
    · cases h
    · next ns hns =>
      split at h
      · next note hfind =>
        cases h
        have hfound := List.find?_some hfind
        simp only [Bool.and_eq_true, beq_iff_eq] at hfound
        exact ⟨note, hg.notes run iid ns hns note (List.mem_of_find?_eq_some hfind),
          hfound.2, hfound.1, rfl⟩
      · cases h

/-- No operation changes the notes or who may write them. -/
theorem exec_gitlabOf {g : World} (h : GitLabOf identities notes g.gitlab) (o : Op) :
    GitLabOf identities notes (machine.exec o g).2.gitlab := by
  cases o with
  | gitlab o =>
    cases o with
    | createMr run title description =>
      simp only [machine, Op.exec, GitLabOp.exec]
      split <;> exact ⟨h.identities, h.notes⟩
    | _ => exact ⟨h.identities, h.notes⟩
  | _ => exact h

/-- What an operation notes comes from a note. -/
theorem noted_fromNote {o : Op} {w w' : World} {a : o.Ret}
    (hg : GitLabOf identities notes w.gitlab) (h : machine.exec o w = (.ok a, w')) {e : GateRead}
    (he : gateRead o a = some e) : e.FromNote identities notes := by
  cases o with
  | gitlab o =>
    cases o with
    | gateNote run iid m =>
      cases he
      exact validateGateNote_fromNote hg (congrArg Prod.fst h)
    | _ => cases he
  | _ => cases he

theorem Watched.others {s s' : World × List GateRead}
    (h : Watched identities notes runKey reads s)
    (ho : (watching identities notes runKey).others s s') :
    Watched identities notes runKey reads s' := by
  obtain ⟨⟨hgitlab, -, hstate⟩, hsame⟩ := ho
  refine ⟨hgitlab, ?_, ?_, fun hready => ?_⟩
  · rw [hsame]
    exact h.grows
  · rw [hsame]
    exact h.fromNotes
  · rw [hsame]
    exact h.marked (hstate hready)

/-- An operation that does not mark the run, or marks it with both gates read. -/
theorem watched_exec {o : Op} {s : World × List GateRead}
    (h : Watched identities notes runKey reads s)
    (hstate : stateOf runKey (machine.exec o s.1).2 = .completedReady →
      stateOf runKey s.1 = .completedReady ∨ BothGates runKey reads) :
    Watched identities notes runKey reads (gateMachine.exec o s).2 := by
  have hgitlab := exec_gitlabOf h.gitlab o
  obtain ⟨w, done⟩ := s
  simp only [Machine.noted]
  rcases hx : machine.exec o w with ⟨a, w'⟩
  rw [hx] at hgitlab hstate
  have hmarked : ∀ more, stateOf runKey w' = .completedReady → BothGates runKey (done ++ more) :=
    fun more hready => by
      rcases hstate hready with hbefore | hgates
      · exact (h.marked hbefore).mono (List.subset_append_left _ _)
      · exact hgates.mono (List.Subset.trans h.grows (List.subset_append_left _ _))
  cases a with
  | error e => exact ⟨hgitlab, h.grows, h.fromNotes, by simpa using hmarked []⟩
  | ok a =>
    refine ⟨hgitlab, List.Subset.trans h.grows (List.subset_append_left _ _), fun e he => ?_, hmarked _⟩
    rcases List.mem_append.mp he with he | he
    · exact h.fromNotes e he
    · exact noted_fromNote h.gitlab hx (Option.mem_toList.mp he)

theorem watched_op {o : Op} (hstate : ∀ w, stateOf runKey (machine.exec o w).2 = .completedReady →
    stateOf runKey w = .completedReady ∨ BothGates runKey reads) :
    Keeps gateMachine (watching identities notes runKey) (Watched identities notes runKey reads)
      (Prog.op o : Service o.Ret) :=
  keeps_op (fun _ _ h ho => h.others ho) fun _ h => watched_exec h (hstate _)

/-- Whatever a pass does but the end of the code flow keeps what was read. -/
theorem passing_watched : Passing (fun {α} (p : Service α) =>
    Keeps gateMachine (watching identities notes runKey)
      (Watched identities notes runKey reads) p) :=
  passing_of_ops closed_keeps
    (fun o ho => watched_op fun w hready =>
      .inl (exec_avoids (by decide) ho w.now w.store runKey hready))
    (fun t ht => watched_op fun w hready => by
      refine .inl ((transitionRun_avoids (fun hnew => ?_) w.now).commit w.store runKey hready)
      have hlive := ht.unended
      rw [hnew] at hlive
      cases hlive)
    (fun o => watched_op fun w hready => .inl hready)
    (fun o => watched_op fun w hready => .inl hready)
    fun o => watched_op fun w hready => .inl (by rwa [exec_host] at hready)

/-- The end of the code flow, with both gates read when it leaves the run ready. -/
theorem markFlowCompleted_watched {key head reason : String} {state : RunState}
    (h : key = runKey → state = .completedReady → BothGates runKey reads) :
    Keeps gateMachine (watching identities notes runKey) (Watched identities notes runKey reads)
      (store (.markFlowCompleted key state head reason)) := by
  refine watched_op fun w hready => ?_
  by_cases hstate : state = .completedReady
  · by_cases hkey : key = runKey
    · exact .inr (h hkey hstate)
    · left
      rwa [stateOf, exec_store, markFlowCompleted_other hkey] at hready
  · exact .inl ((markFlowCompleted_avoids hstate key head reason w.now).commit w.store runKey hready)

/-! ## A pass -/

/-- A history in which the code gates are work cards with completions of their stage. -/
structure NamedHistory (runKey : String) (run : RunRecord) (items : List HistoryItem) : Prop where
  key : run.runKey = runKey
  verified : verifyHistory runKey items = .ok run
  cards : ∀ i ∈ items, ∀ s, i.managed.stage = .work s → i.managed.purpose = .work
  tasks : ∀ i ∈ items, CompletionNamed runKey i.task

theorem history_named : Answers gateMachine (watching identities notes runKey)
    (Watched identities notes runKey reads) (history runKey)
    (fun read => NamedHistory runKey read.2 read.1) := by
  refine (history_answers (C := fun c => ∀ s, c.stage = .work s → c.purpose = .work)
    (P := CompletionNamed runKey) (fun s hs => ?_) fun board id s hs => ?_).mono
      fun read h => ⟨h.1, h.2.1, fun i hi => (h.2.2 i hi).1, fun i hi => (h.2.2 i hi).2⟩
  · refine .op (fun _ ho => hs.others ho) (fun _ ho => watched_exec (hs.others ho) fun h => .inl h)
      fun s₁ cards s₂ ho hx c hc => ?_
    obtain rfl : s₁.1.store.cardsForRun runKey = cards := by
      cases hx
      rfl
    refine ⟨?_, ho.1.2.1.cards c hc⟩
    simpa using (List.mem_filter.mp ((List.mem_insertionSort _).mp hc)).2
  · refine .op (fun _ ho => hs.others ho) (fun _ ho => watched_exec (hs.others ho) fun h => .inl h)
      fun s₁ task s₂ ho hx t ht => ?_
    obtain rfl : s₁.1.hermes.task board id = task := by
      cases hx
      rfl
    exact ho.1.2.1.tasks board id t ht

/-- The completion of a code gate is of its stage. -/
theorem NamedHistory.stage {run : RunRecord} {items : List HistoryItem}
    (h : NamedHistory runKey run items) {s : Stage} (hs : s.isCodeGate = true)
    {outcomes : List Outcome} {m : CompletionMetadata}
    (hm : latestValidCompletion items s outcomes = some m) :
    m.stage = s ∧ m.outcome ∈ outcomes := by
  obtain ⟨i, hi, hstage, -, hmeta, hout⟩ := latestValidCompletion_mem hm
  have hwork : i.isWork = true := by simp [HistoryItem.isWork, h.cards i hi s hstage]
  obtain ⟨record, hbody, hrun, hrecord, -⟩ :=
    verifyWorkItem_record (verifyHistory_work h.verified hi hwork)
  obtain rfl : s = record.stage := by
    rw [hstage] at hrecord
    exact CardStage.work.inj hrecord
  refine ⟨h.tasks i hi record m (by rw [hbody]; rfl) ?_ hs hmeta, hout⟩
  rw [hrun, h.key]

variable {run : RunRecord} {items : List HistoryItem} {latest : HistoryItem}
variable {m : CompletionPayload} {s : World × List GateRead}

/-- The gate of a code stage is read with its author. -/
theorem validateGate_noted (site : ReadSite) (hgate : m.stage.isCodeGate = true)
    (hs : Watched identities notes runKey reads s) :
    Ensures gateMachine (watching identities notes runKey)
      (Watched identities notes runKey reads) (validateGate site run m)
      (fun author s' => ∃ a, author = some a ∧ ⟨run, m, a⟩ ∈ s'.2) s := by
  have h := @passing_watched identities notes runKey reads
  have hdoc : m.stage.isDocumentReview = false := by
    cases hstage : m.stage <;> rw [hstage] at hgate <;> first | rfl | cases hgate
  unfold validateGate
  simp only [hgate, hdoc, Bool.or_true, Bool.not_true, Bool.false_eq_true, if_false]
  refine .bind ((h.reading.deliveryMr site run m.mrIid).ensures hs fun _ h => h)
    fun mr s₁ hs₁ _ => ?_
  split
  · exact .raise hs₁
  · have hnote : Ensures gateMachine (watching identities notes runKey)
        (Watched identities notes runKey reads) (do
          let author ← gitlab (.gateNote run mr.iid m)
          pure (some author) : Service (Option String))
        (fun author s' => ∃ a, author = some a ∧ ⟨run, m, a⟩ ∈ s'.2) s₁ := by
      refine .bind (.op (fun _ ho => hs₁.others ho)
        (fun _ ho => watched_exec (hs₁.others ho) fun h => .inl h)
        fun s₂ a s₃ ho hx => ?_) fun a s₂ hs₂ ha => .pure hs₂ ⟨a, rfl, ha⟩
      rw [(noted_ok hx).2]
      exact List.mem_append_right _ (List.mem_singleton_self _)
    split
    · exact .raise hs₁
    · exact hnote

/-- A gate that passed the check was read. -/
theorem validateReviewedGate_noted (site : ReadSite) (hgate : m.stage.isCodeGate = true)
    (hs : Watched identities notes runKey reads s) :
    Ensures gateMachine (watching identities notes runKey)
      (Watched identities notes runKey reads) (validateReviewedGate site run m)
      (fun _ s' => ∃ a, ⟨run, m, a⟩ ∈ s'.2) s := by
  refine .bind (validateGate_noted site hgate hs) fun author s₁ hs₁ hread => ?_
  obtain ⟨a, -, hmem⟩ := hread
  split
  · exact .raise hs₁
  · exact .pure hs₁ ⟨a, hmem⟩

theorem gateCheck_noted (hs : Watched identities notes runKey reads s) :
    Ensures gateMachine (watching identities notes runKey)
      (Watched identities notes runKey reads) (gateCheck run m)
      (fun _ s' => m.stage.isCodeGate = true → m.outcome = .pass → ∃ a, ⟨run, m, a⟩ ∈ s'.2) s := by
  by_cases hgate : m.stage.isCodeGate = true
  · unfold gateCheck
    split
    · exact (validateReviewedGate_noted .gate hgate hs).mono fun _ _ _ ha _ _ => ha
    · next hcond =>
      refine .pure hs fun _ hpass => absurd ?_ hcond
      simp [hgate, CompletionPayload.verdict, hpass]
  · exact ((passing_watched.reading.gateCheck run m).ensures hs fun _ h => h).mono
      fun _ _ _ _ h => absurd h hgate

/-- The test that is paired with a review was read again. -/
theorem pairedTest_noted (hnamed : NamedHistory runKey run items)
    (hs : Watched identities notes runKey reads s) :
    Ensures gateMachine (watching identities notes runKey)
      (Watched identities notes runKey reads) (pairedTest run items m)
      (fun pairing s' => ∀ t, pairing.test = some t → t.stage = .test ∧
        sameDelivery t.toCompletionPayload m = true ∧
        ∃ a, ⟨run, t.toCompletionPayload, a⟩ ∈ s'.2) s := by
  unfold pairedTest
  split
  · split
    · exact .pure hs fun t ht => by cases ht
    · next test htest =>
      obtain ⟨hstage, -⟩ := hnamed.stage rfl htest
      split
      · exact .pure hs fun t ht => by cases ht
      · next hsame =>
        refine .bind (ensures_caught (validateReviewedGate_noted .pairedGate
          (by rw [hstage]; rfl) hs)) fun r s₁ hs₁ hr => ?_
        cases r with
        | error text => exact .pure hs₁ fun t ht => by cases ht
        | ok u =>
          refine .pure hs₁ fun t ht => ?_
          cases ht
          exact ⟨hstage, by simpa using hsame, hr u rfl⟩
  · exact .pure hs fun t ht => by cases ht

/-- Only a passed review with a passed test of its delivery leaves a run ready. -/
theorem routeCompletion_ready {reviewAttempt modifications : Nat}
    {paired : Option CompletionPayload}
    (h : routeCompletion cfg m reviewAttempt paired modifications = .terminal .completedReady) :
    m.stage = .codeReview ∧ m.outcome = .pass ∧
      ∃ t, paired = some t ∧ t.outcome = .pass ∧ sameDelivery t m = true := by
  rcases routeCompletion_terminal h with ⟨-, hready⟩ | ⟨hstate, -⟩ | ⟨hstate, -⟩
  · exact hready
  · cases hstate
  · cases hstate

/-- What was read so far stays read. -/
theorem Watched.sofar (hs : Watched identities notes runKey reads s) :
    Watched identities notes runKey s.2 s :=
  ⟨hs.gitlab, List.Subset.refl _, hs.fromNotes, hs.marked⟩

theorem Watched.weaken {t : World × List GateRead} (ht : Watched identities notes runKey s.2 t)
    (hs : Watched identities notes runKey reads s) : Watched identities notes runKey reads t :=
  ⟨ht.gitlab, List.Subset.trans hs.grows ht.grows, ht.fromNotes, ht.marked⟩

theorem Watched.goOn {α : Type} {p : Service α} (hs : Watched identities notes runKey reads s)
    (h : Ensures gateMachine (watching identities notes runKey)
      (Watched identities notes runKey s.2) p (fun _ _ => True) s) :
    Ensures gateMachine (watching identities notes runKey)
      (Watched identities notes runKey reads) p (fun _ _ => True) s :=
  wp_mono (fun _ _ ht => ⟨ht.1.weaken hs, ht.2⟩) h

/-- The route of a completion whose own gate, and that of its test, were read. -/
theorem followRoute_watched (cfg : Config) {paired : Option CompletionMetadata}
    (modifications : Nat) (hs : Watched identities notes runKey reads s)
    (hread : m.stage = .codeReview → m.outcome = .pass → ∃ a, ⟨run, m, a⟩ ∈ s.2)
    (hpair : ∀ t, paired = some t → t.stage = .test ∧
      ∃ a, ⟨run, t.toCompletionPayload, a⟩ ∈ s.2) :
    Ensures gateMachine (watching identities notes runKey)
      (Watched identities notes runKey reads)
      (followRoute cfg run items latest m paired modifications) (fun _ _ => True) s := by
  refine hs.goOn (Answers.of_keeps (passing_watched.followRoute cfg run items latest m paired
    modifications fun state hroute head reason row _ => closed_keeps.bind ?_ fun _ =>
      passing_watched.store (.enqueue row) rfl) s hs.sofar)
  refine markFlowCompleted_watched fun hkey hstate => ?_
  subst hstate
  obtain ⟨hstage, hpass, t, hpaired, htpass, hsame⟩ := routeCompletion_ready hroute
  obtain ⟨test, htest, rfl⟩ := Option.map_eq_some_iff.mp hpaired
  obtain ⟨htstage, a, ha⟩ := hpair test htest
  obtain ⟨b, hb⟩ := hread hstage hpass
  exact ⟨_, ha, _, hb, ⟨hkey, htstage, htpass⟩, ⟨hkey, hstage, hpass⟩, hsame⟩

/-- The acceptance of a completion whose own gate, if it has one, was read. -/
theorem acceptCompletion_watched (cfg : Config) (hnamed : NamedHistory runKey run items)
    (latest : HistoryItem) (hs : Watched identities notes runKey reads s)
    (hread : m.stage = .codeReview → m.outcome = .pass → ∃ a, ⟨run, m, a⟩ ∈ s.2) :
    Ensures gateMachine (watching identities notes runKey)
      (Watched identities notes runKey reads) (acceptCompletion cfg run items latest m)
      (fun _ _ => True) s := by
  have h : Passing (fun {α} (p : Service α) =>
      Keeps gateMachine (watching identities notes runKey)
        (Watched identities notes runKey s.2) p) := passing_watched
  refine hs.goOn ?_
  refine .bind (Answers.of_keeps (h.reading.assertReconcileMutable _) s hs.sofar)
    fun _ s₁ hs₁ _ => ?_
  refine .bind (Answers.of_keeps (h.store _ rfl) s₁ hs₁) fun _ s₂ hs₂ _ => ?_
  refine .bind (Answers.of_keeps (h.enqueueAgentNotice _ _ _ _) s₂ hs₂) fun _ s₃ hs₃ _ => ?_
  refine .bind (Answers.of_keeps (h.reading.codeModificationCount _) s₃ hs₃)
    fun modifications s₄ hs₄ _ => ?_
  refine .bind (pairedTest_noted hnamed hs₄) fun pairing s₅ hs₅ hpair => ?_
  have hfollow : Ensures gateMachine (watching identities notes runKey)
      (Watched identities notes runKey s.2)
      (followRoute cfg run items latest m pairing.test modifications) (fun _ _ => True) s₅ := by
    refine followRoute_watched cfg modifications hs₅ (fun hstage hpass => ?_) fun t ht => ?_
    · obtain ⟨a, ha⟩ := hread hstage hpass
      exact ⟨a, hs₅.grows ha⟩
    · obtain ⟨hstage, -, hmem⟩ := hpair t ht
      exact ⟨hstage, hmem⟩
  cases pairing with
  | missing => exact Answers.of_keeps (h.restartAtTest _ _ _) s₅ hs₅
  | notNeeded => exact hfollow
  | found test => exact hfollow

/-- The completion of the newest work card. -/
theorem reconcileCompletion_watched (cfg : Config) (hnamed : NamedHistory runKey run items)
    (latest : HistoryItem) :
    Keeps gateMachine (watching identities notes runKey) (Watched identities notes runKey reads)
      (reconcileCompletion cfg run items latest) := by
  have h : ∀ reads, Passing (fun {α} (p : Service α) =>
      Keeps gateMachine (watching identities notes runKey)
        (Watched identities notes runKey reads) p) := fun _ => passing_watched
  refine (h _).bind ((h _).reading.caught ((h _).reading.validateCompletion _ _ _ _)) fun r => ?_
  cases r with
  | error text => exact (h _).protocolFailure _ _ _ _ _
  | ok m =>
    refine (h _).bind ((h _).reading.caught ((h _).reading.authoringCheck _ _)) fun r => ?_
    cases r with
    | error text => exact (h _).protocolFailure _ _ _ _ _
    | ok u =>
      refine Answers.keeps (A := fun _ => True) fun s hs => ?_
      refine .bind (ensures_caught (gateCheck_noted hs)) fun r s₁ hs₁ hgate => ?_
      cases r with
      | error text => exact Answers.of_keeps ((h _).gateFailure _ _ _ _ _ _) s₁ hs₁
      | ok u =>
        refine hs₁.goOn ?_
        refine .bind (Answers.of_keeps ((h s₁.2).reading.caught
          ((h s₁.2).reading.finalizationCheck run m.toCompletionPayload)) s₁ hs₁.sofar)
          fun r s₂ hs₂ _ => ?_
        cases r with
        | error text => exact Answers.of_keeps ((h _).protocolFailure _ _ _ _ _) s₂ hs₂
        | ok u =>
          refine .bind (Answers.of_keeps ((h s₁.2).liveCheck cfg run items latest
            m.toCompletionPayload) s₂ hs₂) fun live s₃ hs₃ _ => ?_
          split
          · refine acceptCompletion_watched cfg hnamed latest hs₃ fun hstage hpass => ?_
            obtain ⟨a, ha⟩ := hgate _ rfl (by rw [hstage]; rfl) hpass
            exact ⟨a, hs₃.grows ha⟩
          · exact .pure hs₃ trivial

/-- **A pass marks a run ready only with both gates read.** -/
theorem reconcileRun_watched (cfg : Config) :
    Keeps gateMachine (watching identities notes runKey) (Watched identities notes runKey reads)
      (reconcileRun cfg runKey) := by
  have h : Passing (fun {α} (p : Service α) =>
      Keeps gateMachine (watching identities notes runKey)
        (Watched identities notes runKey reads) p) := passing_watched
  refine h.reconcileRun cfg runKey (Answers.keeps (A := fun _ => True) fun s hs => ?_)
  refine .bind (history_named s hs) fun read s₁ hs₁ hnamed => ?_
  obtain ⟨items, run⟩ := read
  exact Answers.of_keeps (h.reconcileRead cfg runKey run items
    (h.reconcileCards cfg run items fun latest _ _ =>
      reconcileCompletion_watched cfg hnamed latest)) s₁ hs₁

theorem GateRun.watched (h : GateRun cfg identities notes runKey s) :
    Watched identities notes runKey [] s := by
  induction h with
  | start hgitlab hstate =>
    exact ⟨hgitlab, List.nil_subset _, by simp, fun h => absurd h hstate⟩
  | others _ ho ih => exact ih.others ho
  | pass _ hrun ih => exact hrun.sound (reconcileRun_watched cfg _ ih)

/-! ## The gates in `status` -/

/-- A row counts when its evidence holds and the gate passed, and then the gate of a code
stage was read with the author of the row. -/
structure RowRead (run : RunRecord) (s : Stage) (row : GateStatus) (reads : List GateRead) :
    Prop where
  counts : row.valid = (row.evidenceValid && row.outcome == some .pass)
  author : s.isCodeGate = true → row.valid = true → ∃ m a, row.author = some a ∧
    ⟨run, m, a⟩ ∈ reads ∧ m.stage = s ∧ m.outcome = .pass

theorem gateEvidence_noted {mr : Option MergeRequest} {stage : Stage}
    (hs : Watched identities notes runKey reads s) :
    Ensures gateMachine (watching identities notes runKey)
      (Watched identities notes runKey reads) (gateEvidence run mr stage m)
      (fun found s' => m.stage.isCodeGate = true → found.2 = none →
        ∃ a, found.1 = some a ∧ ⟨run, m, a⟩ ∈ s'.2) s := by
  have h : ∀ reads, Reading (fun {α} (p : Service α) =>
      Keeps gateMachine (watching identities notes runKey)
        (Watched identities notes runKey reads) p) := fun _ => passing_watched.reading
  have hgate : Ensures gateMachine (watching identities notes runKey)
      (Watched identities notes runKey reads) (validateGate .status run m)
      (fun author s' => m.stage.isCodeGate = true → ∃ a, author = some a ∧
        ⟨run, m, a⟩ ∈ s'.2) s := by
    by_cases hcode : m.stage.isCodeGate = true
    · exact (validateGate_noted .status hcode hs).mono fun _ _ _ ha _ => ha
    · exact (Answers.of_keeps ((h _).validateGate _ _ _) s hs).mono
        fun _ _ _ _ hc => absurd hc hcode
  refine .bind (.attempt hgate) fun r s₁ hs₁ hr => ?_
  cases r with
  | error e => exact .pure hs₁ fun _ hwrong => by cases hwrong
  | ok author =>
    have hend : ∀ (t : World × List GateRead) wrong, Watched identities notes runKey reads t →
        s₁.2 ⊆ t.2 → m.stage.isCodeGate = true → wrong = (none : Option String) →
        ∃ a, author = some a ∧ ⟨run, m, a⟩ ∈ t.2 := fun t _ _ hsub hcode _ => by
      obtain ⟨a, ha, hmem⟩ := hr author rfl hcode
      exact ⟨a, ha, hsub hmem⟩
    dsimp only
    split
    · refine wp_mono (fun _ _ ht => ⟨ht.1.weaken hs₁, ht.2⟩) (Ensures.bind
        (Answers.of_keeps ((h s₁.2).attempt ((h s₁.2).gitlab _ rfl)) s₁ hs₁.sofar)
        fun r s₂ hs₂ _ => ?_)
      cases r with
      | error e => exact .pure hs₂ (hend s₂ _ (hs₂.weaken hs₁) hs₂.grows)
      | ok u => exact .pure hs₂ (hend s₂ _ (hs₂.weaken hs₁) hs₂.grows)
    · exact .pure hs₁ (hend s₁ _ hs₁ (List.Subset.refl _))

theorem gateStatus_noted {mr : Option MergeRequest} {stage : Stage}
    (hnamed : NamedHistory runKey run items) (hs : Watched identities notes runKey reads s) :
    Ensures gateMachine (watching identities notes runKey)
      (Watched identities notes runKey reads) (gateStatus run mr items stage)
      (fun row s' => RowRead run stage row s'.2) s := by
  unfold gateStatus
  split
  · exact .pure hs ⟨rfl, fun _ hvalid => by cases hvalid⟩
  · next test hmeta =>
    refine .bind (gateEvidence_noted hs) fun found s₁ hs₁ hfound => ?_
    obtain ⟨author, wrong⟩ := found
    refine .pure hs₁ ⟨rfl, fun hcode hvalid => ?_⟩
    simp only [Bool.and_eq_true, Option.isNone_iff_eq_none, beq_iff_eq] at hvalid
    obtain ⟨hstage, -⟩ := hnamed.stage hcode hmeta
    obtain ⟨a, ha, hmem⟩ := hfound (by rw [hstage]; exact hcode) hvalid.1
    exact ⟨_, a, ha, hmem, hstage, hvalid.2⟩

theorem RowRead.mono {row : GateStatus} {stage : Stage} {reads reads' : List GateRead}
    (h : RowRead run stage row reads) (hsub : reads ⊆ reads') : RowRead run stage row reads' where
  counts := h.counts
  author hcode hvalid := by
    obtain ⟨m, a, ha, hmem, hm⟩ := h.author hcode hvalid
    exact ⟨m, a, ha, hsub hmem, hm⟩

theorem gateRows_noted {mr : Option MergeRequest} (hnamed : NamedHistory runKey run items)
    (stages : List Stage) (hs : Watched identities notes runKey reads s) :
    Ensures gateMachine (watching identities notes runKey)
      (Watched identities notes runKey reads) (gateRows run mr items stages)
      (fun rows s' => ∀ e ∈ rows, RowRead run e.1 e.2 s'.2) s := by
  induction stages generalizing s reads with
  | nil => exact .pure hs (by simp)
  | cons stage stages ih =>
    refine .bind (gateStatus_noted hnamed hs) fun row s₁ hs₁ hrow => ?_
    refine wp_mono (fun _ _ ht => ⟨ht.1.weaken hs₁, ht.2⟩)
      (Ensures.bind (ih hs₁.sofar) fun rows s₂ hs₂ hrows => .pure hs₂ fun e he => ?_)
    rcases List.mem_cons.mp he with rfl | he
    · exact hrow.mono hs₂.grows
    · exact hrows e he

theorem mem_of_lookup {rows : List (Stage × GateStatus)} {stage : Stage} {row : GateStatus}
    (h : rows.lookup stage = some row) : (stage, row) ∈ rows := by
  induction rows with
  | nil => cases h
  | cons e rows ih =>
    rw [List.lookup_cons] at h
    split at h
    · next heq =>
      cases h
      obtain rfl := beq_iff_eq.mp heq
      exact List.mem_cons_self
    · exact List.mem_cons_of_mem _ (ih h)

/-- While the users are separate, `status` reports the gates as independent. -/
theorem gatesStatus_independent (hapart : SeparateUsers identities runKey notes)
    (hs : Watched identities notes runKey reads s) :
    Ensures gateMachine (watching identities notes runKey)
      (Watched identities notes runKey reads) (gatesStatus runKey)
      (fun rows _ => reportsIndependent rows = true) s := by
  refine .bind (history_named s hs) fun read s₁ hs₁ hnamed => ?_
  obtain ⟨items, run⟩ := read
  refine .bind (Answers.of_keeps (passing_watched.reading.boundDeliveryMr .status run) s₁ hs₁)
    fun mr s₂ hs₂ _ => ?_
  refine .bind (gateRows_noted hnamed gateStages hs₂) fun rows s₃ hs₃ hrows => .pure hs₃ ?_
  have hapart' : sameUser rows = false := by
    unfold sameUser
    split
    · next test review htest hreview =>
      refine Bool.eq_false_iff.mpr fun hsame => ?_
      simp only [Bool.and_eq_true, beq_iff_eq] at hsame
      obtain ⟨m, a, ha, hmem, hm⟩ := (hrows _ (mem_of_lookup htest)).author rfl hsame.1.1
      obtain ⟨m', a', ha', hmem', hm'⟩ := (hrows _ (mem_of_lookup hreview)).author rfl hsame.1.2
      have hne : a ≠ a' := authors_ne hapart (hs₃.fromNotes _ hmem) (hs₃.fromNotes _ hmem')
        ⟨hnamed.key, hm.1, hm.2⟩ ⟨hnamed.key, hm'.1, hm'.2⟩
      rw [ha, ha'] at hsame
      exact hne (Option.some.inj hsame.2)
    · rfl
  rw [checkAuthors, if_neg (by simp [hapart'])]
  refine List.all_eq_true.mpr fun e he => ?_
  have hcounts := (hrows e he).counts
  simp only [GateStatus.discounted, hcounts]
  cases e.2.evidenceValid <;> cases (e.2.outcome == some Outcome.pass) <;> rfl

/-! ## Independence -/

/-- A ready run was finished on gates of two authors, and `status` says so. -/
def VouchedIndependently (identities : Stage → List String) (notes : Set GateNote)
    (runKey : String) (s : World × List GateRead) : Prop :=
  stateOf runKey s.1 = .completedReady → DistinctAuthors runKey s.2 ∧
    ∀ rows s', Runs gateMachine (watching identities notes runKey) (gatesStatus runKey) s
      (.returned rows) s' → reportsIndependent rows = true

/-- **Author independence.** In every run over whose notes no GitLab user vouches for both
code gates, a ready run was finished on gates of two authors. -/
theorem readyRun_independent (cfg : Config) (hapart : SeparateUsers identities runKey notes)
    (h : GateRun cfg identities notes runKey s) :
    VouchedIndependently identities notes runKey s := by
  intro hready
  have hs := h.watched
  constructor
  · obtain ⟨t, ht, r, hr, hgates⟩ := hs.marked hready
    exact ⟨t, ht, r, hr, hgates,
      authors_ne hapart (hs.fromNotes t ht) (hs.fromNotes r hr) hgates.test hgates.review⟩
  · exact fun rows s' hrun => (hrun.sound (gatesStatus_independent hapart hs)).2 rows rfl

end Pass

/-! ## One user for both gates -/

def reviewedHead : String := "0123456789abcdef0123456789abcdef01234567"

def tasksBaseline : ArtifactBaseline where
  phase := "tasks"
  disposition := .reviewed
  artifactPaths := ["docs/prds/a/tasks.md"]
  artifactDigest := "d1"
  artifactCommitSha := "c2"
  sourceCardId := ⟨1⟩

/-- The work card of a gate stage in the sample run. -/
def gateRecord (s : Stage) (parent : CardId) : CardRecord where
  run := sampleRun "run-a" "ga" 1
  stage := s
  iteration := 1
  idempotencyKey := s!"run-a:{s.value}:1:normal:work"
  parentCardId := parent
  assignee := s.value
  skills := []
  frozenBaselines := [tasksBaseline]
  expectedHeadSha := some reviewedHead
  contextDigest := s!"run-a:{s.value}:1:normal:work"
  scratchDir := "/scratch"
  delivery := some (sampleBinding 7)

/-- A passed gate of the sample run, what is common to both gates. -/
def gatePass (s : Stage) (id parent : CardId) : CompletionPayload :=
  let record := gateRecord s parent
  { runKey := record.run.runKey
    sourceKey := record.run.sourceKey
    runGeneration := record.run.runGeneration
    contextDigest := record.contextDigest
    stage := s
    iteration := 1
    outcome := .pass
    projectId := record.run.project.projectId
    projectPath := record.run.project.projectPath
    checkout := record.run.workspace.checkout
    worktree := record.run.workspace.worktree
    branch := record.run.workspace.branch
    targetBranch := record.run.workspace.targetBranch
    prdPath := record.run.source.prdPath
    prdCommitSha := record.run.source.prdCommitSha
    prdBlobSha := record.run.source.prdBlobSha
    prdMrUrl := record.run.source.prdMrUrl
    kanbanCardId := id
    mrIid := some 7
    mrUrl := some (sampleBinding 7).mrUrl
    headBeforeSha := some reviewedHead
    headSha := some reviewedHead }

def passedTest : CompletionPayload :=
  { gatePass .test ⟨2⟩ ⟨1⟩ with testDisposition := some .executed }

/-- The passed review, with the author of its gate note. -/
def passedReview (author : NoteAuthor) : CompletionPayload :=
  { gatePass .codeReview ⟨3⟩ ⟨2⟩ with
    gatePhase := some .implementationCompletion
    gateDecision := some .approved
    gateReviewer := some author.text
    gateReviewedAt := some 90
    gateReason := some "complete"
    gateEvidenceRefs := ["note"]
    gateArtifactPaths := tasksBaseline.artifactPaths
    gateArtifactCommitSha := some tasksBaseline.artifactCommitSha
    gateArtifactDigest := some tasksBaseline.artifactDigest
    contractRefs := ["contract"]
    requirementIds := ["R1"] }

def tester : NoteAuthor where
  id := some 7
  username := some "tess"

def reviewer : NoteAuthor where
  id := some 8
  username := some "ray"

/-- The tester may review code as well. -/
def sampleIdentities : Stage → List String
  | .test => ["tess"]
  | .codeReview => ["tess", "ray"]
  | _ => []

def gateNotes (author : NoteAuthor) : List GateNote :=
  [⟨tester, some (expectedMarker (sampleRun "run-a" "ga" 1) passedTest)⟩,
   ⟨author, some (expectedMarker (sampleRun "run-a" "ga" 1) (passedReview author))⟩]

def gateTask (s : Stage) (id parent : CardId) (p : CompletionPayload) : HermesTask where
  id
  board := "app"
  body := .work (gateRecord s parent)
  assignee := some s.value
  status := .done
  createdBy := some "hollysys-controller"
  createdAt := 10 + id.number
  idempotencyKey := some s!"run-a:{s.value}:1:normal:work"
  tenant := some "run-a"
  skills := []
  parents := [parent]
  latestRun := some { id := id.number, outcome := some "completed",
                      metadata := some { payload := .ok p } }

/-- Test and review of the sample run are done, and the author reviewed. -/
def reviewedWorld (author : NoteAuthor) : World where
  store :=
    { runs := [sampleRun "run-a" "ga" 1]
      deliveryBindings := [("run-a", sampleBinding 7)]
      managedCards :=
        [{ board := "app", cardId := ⟨1⟩, runKey := "run-a", stage := .runInit, iteration := 1,
           idempotencyKey := "run-a:run-init", parentCardId := none, purpose := .root,
           createdAt := 10 },
         { sampleCard 2 1 .test with createdAt := 12 },
         { sampleCard 3 2 .codeReview with createdAt := 13 }]
      runControl := Table.empty.put "run-a" {} }
  hermes :=
    { tasks :=
        [{ id := ⟨1⟩, board := "app", body := .run (sampleRun "run-a" "ga" 1), assignee := none,
           status := .done, createdBy := some "hollysys-controller", createdAt := 10,
           idempotencyKey := some "run-a:run-init", tenant := some "run-a", skills := [],
           parents := [] },
         gateTask .test ⟨2⟩ ⟨1⟩ passedTest, gateTask .codeReview ⟨3⟩ ⟨2⟩ (passedReview author)]
      nextTask := 4 }
  gitlab :=
    { mr := fun _ _ iid => .ok
        { iid, sha := some reviewedHead, sourceBranch := "delivery-a", targetBranch := "main",
          webUrl := (sampleBinding 7).mrUrl, creator := "controller", createdAt := 5 }
      check := fun _ => .ok ""
      notes := fun _ _ => .ok (gateNotes author)
      reviewerIdentities := sampleIdentities }
  now := 100

/-- `GatesNamed`, as a check that runs. -/
def gatesNamed (runKey : String) (w : World) : Bool :=
  ((w.store.cardsForRun runKey).all fun c =>
    match c.stage with
    | .work _ => c.purpose == .work
    | _ => true) &&
  w.hermes.tasks.all fun t =>
    match parseCardBody t.body with
    | .ok record =>
      match validatePersistedCompletionMetadata (t.latestRun.bind (·.metadata)) with
      | .ok m => m.stage == record.stage
      | .error _ => true
    | .error _ => true

theorem gatesNamed_sound {runKey : String} {w : World} (h : gatesNamed runKey w = true) :
    GatesNamed runKey w := by
  obtain ⟨hcards, htasks⟩ := Bool.and_eq_true_iff.mp h
  constructor
  · intro c hc s hs
    have := List.all_eq_true.mp hcards c hc
    simpa [hs] using this
  · intro board id t ht record m hbody _ _ hm
    obtain ⟨t', hfind, rfl⟩ := Option.map_eq_some_iff.mp ht
    have hnamed := List.all_eq_true.mp htasks t' (List.mem_of_find?_eq_some hfind)
    have hbody' : parseCardBody t'.body = .ok record := hbody
    have hm' : validatePersistedCompletionMetadata (t'.latestRun.bind (·.metadata)) = .ok m := hm
    simpa [hbody', hm'] using hnamed

/-- The pass over the reviewed run, with the gates it reads. -/
def finishedRun (author : NoteAuthor) : World × List GateRead :=
  (gateMachine.eval (reconcileRun sampleConfig "run-a") (reviewedWorld author, [])).2

/-- A checked undisturbed run of the sample is a run. -/
theorem checkedRun {author : NoteAuthor} {α : Type} {p : Service α} {s : World × List GateRead}
    (hg : GitLabOf sampleIdentities {n | n ∈ gateNotes author} s.1.gitlab)
    (h : gateMachine.checked (fun s => gatesNamed "run-a" s.1) p s = true) :
    Runs gateMachine (watching sampleIdentities {n | n ∈ gateNotes author} "run-a") p s
      (gateMachine.eval p s).1 (gateMachine.eval p s).2 := by
  refine checked_runs (E := watching sampleIdentities {n | n ∈ gateNotes author} "run-a")
    (I := fun s => GitLabOf sampleIdentities {n | n ∈ gateNotes author} s.1.gitlab)
    (fun o s hs => ?_) (fun s hs hc => ⟨⟨hs, gatesNamed_sound hc, id⟩, rfl⟩)
    (fun _ _ => trivial) h hg
  obtain ⟨notes, hx⟩ := exec_noted machine gateRead o s
  rw [hx]
  exact exec_gitlabOf hs o

theorem reviewedWorld_gitlab (author : NoteAuthor) :
    GitLabOf sampleIdentities {n | n ∈ gateNotes author} (reviewedWorld author).gitlab :=
  ⟨rfl, fun _ _ ns hns n hn => by cases hns; exact hn⟩

theorem finishedRun_reached {author : NoteAuthor}
    (h : gateMachine.checked (fun s => gatesNamed "run-a" s.1) (reconcileRun sampleConfig "run-a")
      (reviewedWorld author, []) = true) :
    GateRun sampleConfig sampleIdentities {n | n ∈ gateNotes author} "run-a"
      (finishedRun author) :=
  .pass (.start (reviewedWorld_gitlab author) (by simp [stateOf, reviewedWorld]))
    (checkedRun (reviewedWorld_gitlab author) h)

/-- What `status` reports about the code gates of the sample run. -/
def reportedIndependence (s : World × List GateRead) : Option Bool :=
  match (gateMachine.eval (gatesStatus "run-a") s).1 with
  | .returned rows => some (reportsIndependent rows)
  | _ => none

/-- One user vouches for both gates, the run is ready, and `status` takes the gates back. -/
theorem soleReviewer_vouches :
    GateRun sampleConfig sampleIdentities {n | n ∈ gateNotes tester} "run-a"
        (finishedRun tester) ∧
      stateOf "run-a" (finishedRun tester).1 = .completedReady ∧
      ¬ DistinctAuthors "run-a" (finishedRun tester).2 ∧
      reportedIndependence (finishedRun tester) = some false ∧
      ¬ VouchedIndependently sampleIdentities {n | n ∈ gateNotes tester} "run-a"
        (finishedRun tester) := by
  have hfinished : gateMachine.checked (fun s => gatesNamed "run-a" s.1)
          (reconcileRun sampleConfig "run-a") (reviewedWorld tester, []) = true ∧
      stateOf "run-a" (finishedRun tester).1 = .completedReady ∧
      ((finishedRun tester).2.all fun e => e.author == "id:7") = true ∧
      reportedIndependence (finishedRun tester) = some false := by
    decide +kernel
  obtain ⟨hchecked, hready, hauthors, hreported⟩ := hfinished
  have hsame : ¬ DistinctAuthors "run-a" (finishedRun tester).2 := by
    rintro ⟨t, ht, r, hr, -, hne⟩
    have h := List.all_eq_true.mp hauthors
    exact hne ((beq_iff_eq.mp (h t ht)).trans (beq_iff_eq.mp (h r hr)).symm)
  exact ⟨finishedRun_reached hchecked, hready, hsame, hreported, fun h => hsame (h hready).1⟩

/-- A second user reviews the code. -/
theorem pairedReviewers_independent :
    VouchedIndependently sampleIdentities {n | n ∈ gateNotes reviewer} "run-a"
      (finishedRun reviewer) := by
  refine readyRun_independent sampleConfig (fun t ht r hr hvt hvr => ?_)
    (finishedRun_reached (by decide +kernel))
  obtain ⟨mt, hmt, -, hst, -⟩ := hvt.marker
  obtain ⟨mr, hmr, -, hsr, -⟩ := hvr.marker
  simp only [gateNotes, Set.mem_ofPred_eq, List.mem_cons, List.not_mem_nil, or_false] at ht hr
  rcases ht with rfl | rfl
  · rcases hr with rfl | rfl
    · cases hmr
      exact absurd hsr (by decide)
    · decide
  · cases hmt
    exact absurd hst (by decide)

end HollysysController
