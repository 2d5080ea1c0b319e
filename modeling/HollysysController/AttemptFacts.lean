import HollysysController.ProviderCooldown

/-! # Terminal facts of attempts

An attempt row carries a terminal reason once an event has ended its run. What
the events that come later, late or twice, do to the reason and to the status. -/

namespace HollysysController

/-- The row of a Hermes run. -/
def Store.attempt (s : Store) (runId : String) : Option CardAttempt :=
  s.cardAttempts.find? (·.runId == runId)

/-- The event is about the row: it names its run, and the row is of its card. -/
structure RuntimeEvent.Concerns (e : RuntimeEvent) (s : Store) (a : CardAttempt) : Prop where
  run : e.runId = some a.runId
  managed : ∃ m, s.managedCard e.board e.cardId = some m ∧ a.runKey = m.runKey
  board : a.board = e.board
  card : a.cardId = e.cardId

/-- A terminal event about an attempt that has ended, with another reason or another status. -/
def RuntimeEvent.Rewrites (e : RuntimeEvent) (s : Store) : Prop :=
  e.terminal = true ∧ ∃ runId a, s.attempt runId = some a ∧ e.Concerns s a ∧
    a.terminalReason.isSome ∧ (a.terminalReason ≠ some e.kind ∨ a.status ≠ e.attemptStatus)

/-- What the events leave of the terminal facts of an attempt. -/
structure FactsKept (es : List RuntimeEvent) (a a' : CardAttempt) : Prop where
  reason : a'.terminalReason = a.terminalReason
  status : a'.status = a.status ∨
    (a'.status = "exited" ∧ ∃ e ∈ es, e.kind = "worker_exited" ∧ e.runId = some a.runId)
  reclaimed : a.status = "reclaimed" → a'.status = "reclaimed"

/-- Once a row carries a terminal reason, the later events keep its terminal facts. -/
def Irreversible (s : Store) (es : List RuntimeEvent) : Prop :=
  ∀ pre mid post, es = pre ++ mid ++ post → ∀ runId a,
    (pollEvents pre s).attempt runId = some a → a.terminalReason.isSome →
    ∃ a', (pollEvents (pre ++ mid) s).attempt runId = some a' ∧ FactsKept mid a a'

/-! ## One event -/

/-- The terminal facts of a row. -/
def CardAttempt.facts (a : CardAttempt) : String × Option String × String :=
  (a.runId, a.terminalReason, a.status)

theorem attempt_runId {s : Store} {runId : String} {a : CardAttempt}
    (h : s.attempt runId = some a) : a.runId = runId := by
  simpa using List.find?_some h

theorem mapAttempt_attempt {s : Store} {runId : String} {f : CardAttempt → CardAttempt}
    (hf : ∀ a, (f a).runId = a.runId) (runId' : String) :
    (s.mapAttempt runId f).attempt runId' =
      (s.attempt runId').map fun a => if a.runId = runId then f a else a := by
  have hrun : ∀ a : CardAttempt, (if a.runId = runId then f a else a).runId = a.runId := by
    intro a
    split
    · exact hf a
    · rfl
  simp only [Store.attempt, Store.mapAttempt, List.find?_map, Function.comp_def, hrun]

/-- The link to an earlier run touches no terminal fact. -/
theorem linkRedispatch_facts (e : RuntimeEvent) (runId : String) (s : Store) (runId' : String) :
    ((linkRedispatch e runId s).attempt runId').map (·.facts) =
      (s.attempt runId').map (·.facts) := by
  unfold linkRedispatch
  split
  · split
    · rw [mapAttempt_attempt (by intro a; rfl), Option.map_map]
      refine congrArg (Option.map · _) (funext fun a => ?_)
      simp only [Function.comp_apply]
      split <;> rfl
    · rfl
  · rfl

/-- The record of an event about a run that has a row. -/
theorem recordAttempt_of_row {e : RuntimeEvent} {s : Store} {runId : String} {a : CardAttempt}
    (ha : s.attempt runId = some a) (hrun : e.runId = some runId) :
    (e.Concerns s a ∧ recordAttempt e runId s =
      .ok ((), linkRedispatch e runId (s.mapAttempt runId e.updateAttempt))) ∨
    (¬ e.Concerns s a ∧ ∃ err, recordAttempt e runId s = .error err) := by
  have hid := attempt_runId ha
  have hfind : s.cardAttempts.find? (·.runId == runId) = some a := ha
  unfold recordAttempt
  cases hm : s.managedCard e.board e.cardId with
  | none =>
    refine .inr ⟨fun h => ?_, _, rfl⟩
    obtain ⟨m, hm', -⟩ := h.managed
    rw [hm] at hm'
    cases hm'
  | some m =>
    simp only [hfind]
    by_cases hbad : a.board ≠ e.board ∨ a.cardId ≠ e.cardId ∨ a.runKey ≠ m.runKey
    · refine .inr ⟨fun h => ?_, _, if_pos hbad⟩
      obtain ⟨m', hm', hkey⟩ := h.managed
      rw [hm] at hm'
      cases hm'
      rcases hbad with hb | hc | hk
      · exact hb h.board
      · exact hc h.card
      · exact hk hkey
    · simp only [not_or, ne_eq, Decidable.not_not] at hbad
      refine .inl ⟨⟨hid ▸ hrun, ⟨m, hm, hbad.2.2⟩, hbad.1, hbad.2.1⟩, if_neg ?_⟩
      simp [hbad]

/-- The attempts after an event. -/
theorem record_attempts (e : RuntimeEvent) (s : Store) :
    ((recordCardRuntimeEvent e).commit s).2.cardAttempts =
      if e.preservesFinished (s.cardRuntime e.key) = true ∧ e.kind ≠ "worker_exited" then
        s.cardAttempts
      else match e.runId with
        | none => s.cardAttempts
        | some runId => ((recordAttempt e runId).commit s).2.cardAttempts := by
  unfold recordCardRuntimeEvent Txn.commit
  by_cases hp : e.preservesFinished (s.cardRuntime e.key) = true ∧ e.kind ≠ "worker_exited"
  · simp only [if_pos hp]
  · simp only [if_neg hp]
    cases e.runId with
    | none =>
      cases e.written (s.cardRuntime e.key) <;> simp
    | some runId =>
      cases hrec : recordAttempt e runId s with
      | error err => simp [hrec]
      | ok r => cases e.written (s.cardRuntime e.key) <;> simp [hrec]

theorem updateAttempt_runId (e : RuntimeEvent) (a : CardAttempt) :
    (e.updateAttempt a).runId = a.runId := rfl

/-- A record about one run touches no row of another. -/
theorem recordAttempt_other {e : RuntimeEvent} {s s' : Store} {runId runId' : String} {u : Unit}
    {a : CardAttempt} (ha : s.attempt runId = some a) (hne : runId ≠ runId')
    (h : recordAttempt e runId' s = .ok (u, s')) :
    (s'.attempt runId).map (·.facts) = some a.facts := by
  have hid := attempt_runId ha
  unfold recordAttempt at h
  split at h
  · cases h
  · split at h
    · split at h
      · cases h
      · cases h
        rw [linkRedispatch_facts, mapAttempt_attempt (updateAttempt_runId e), ha, Option.map_some,
          if_neg (hid ▸ hne), Option.map_some]
    · split at h
      · cases h
      · cases h
        have hfind : s.cardAttempts.find? (·.runId == runId) = some a := ha
        rw [linkRedispatch_facts]
        simp only [Store.attempt, List.find?_append, hfind, Option.some_or, Option.map_some]

/-- What the attempt part leaves of a row that is there. -/
theorem recordAttempt_facts (e : RuntimeEvent) {s : Store} {runId runId' : String}
    {a : CardAttempt} (ha : s.attempt runId = some a) (hrun : e.runId = some runId') :
    (((recordAttempt e runId').commit s).2.attempt runId).map (·.facts) = some a.facts ∨
      (e.Concerns s a ∧ (((recordAttempt e runId').commit s).2.attempt runId).map (·.facts) =
        some (e.updateAttempt a).facts) := by
  have hid := attempt_runId ha
  by_cases hne : runId = runId'
  · subst hne
    rcases recordAttempt_of_row ha hrun with ⟨hc, hok⟩ | ⟨-, err, herr⟩
    · right
      refine ⟨hc, ?_⟩
      simp only [Txn.commit, hok]
      rw [linkRedispatch_facts, mapAttempt_attempt (updateAttempt_runId e), ha, Option.map_some,
        if_pos hid, Option.map_some]
    · left
      simp only [Txn.commit, herr, ha, Option.map_some]
  · left
    cases hrec : recordAttempt e runId' s with
    | error err => simp only [Txn.commit, hrec, ha, Option.map_some]
    | ok r =>
      simp only [Txn.commit, hrec]
      exact recordAttempt_other ha hne hrec

/-- After an event a row has its old facts, or those an event about it gives. -/
theorem record_facts (e : RuntimeEvent) {s : Store} {runId : String} {a : CardAttempt}
    (ha : s.attempt runId = some a) :
    ∃ a', ((recordCardRuntimeEvent e).commit s).2.attempt runId = some a' ∧
      (a'.facts = a.facts ∨ (e.Concerns s a ∧ a'.facts = (e.updateAttempt a).facts)) := by
  have hcases : (((recordCardRuntimeEvent e).commit s).2.attempt runId).map (·.facts) =
      some a.facts ∨ (e.Concerns s a ∧
        (((recordCardRuntimeEvent e).commit s).2.attempt runId).map (·.facts) =
          some (e.updateAttempt a).facts) := by
    have hsame : (s.attempt runId).map (·.facts) = some a.facts := by rw [ha]; rfl
    rw [Store.attempt, record_attempts]
    split
    · exact .inl hsame
    · cases hrun : e.runId with
      | none => exact .inl hsame
      | some runId' => exact recordAttempt_facts e ha hrun
  rcases hcases with h | ⟨hc, h⟩
  · obtain ⟨a', ha', hfacts⟩ := Option.map_eq_some_iff.mp h
    exact ⟨a', ha', .inl hfacts⟩
  · obtain ⟨a', ha', hfacts⟩ := Option.map_eq_some_iff.mp h
    exact ⟨a', ha', .inr ⟨hc, hfacts⟩⟩

/-- A terminal event about a row writes its facts there. -/
theorem record_ends {e : RuntimeEvent} {s : Store} {runId : String} {a : CardAttempt}
    (ha : s.attempt runId = some a) (hc : e.Concerns s a) (hends : e.terminal = true) :
    ∃ a', ((recordCardRuntimeEvent e).commit s).2.attempt runId = some a' ∧
      a'.facts = (e.updateAttempt a).facts := by
  have hid := attempt_runId ha
  have hrun : e.runId = some runId := hid ▸ hc.run
  have hnot : ¬ (e.preservesFinished (s.cardRuntime e.key) = true ∧ e.kind ≠ "worker_exited") := by
    simp [RuntimeEvent.preservesFinished, hends]
  rcases recordAttempt_of_row ha hrun with ⟨-, hok⟩ | ⟨hother, -⟩
  · have hfacts := linkRedispatch_facts e runId (s.mapAttempt runId e.updateAttempt) runId
    rw [mapAttempt_attempt (updateAttempt_runId e), ha, Option.map_some, if_pos hid] at hfacts
    rw [Store.attempt, record_attempts, if_neg hnot, hrun]
    simp only [Txn.commit, hok]
    exact Option.map_eq_some_iff.mp hfacts
  · exact absurd hc hother

/-! ## Runs of events -/

theorem nextAttemptStatus_terminal {e : RuntimeEvent} (h : e.terminal = true) (old : String) :
    e.nextAttemptStatus old = e.attemptStatus := by
  have hkind : e.kind ≠ "worker_exited" := by
    intro heq
    rw [RuntimeEvent.terminal, heq] at h
    revert h
    decide
  simp [RuntimeEvent.nextAttemptStatus, RuntimeEvent.attemptStatus, hkind, h]

theorem nextAttemptStatus_open {e : RuntimeEvent} (h : e.terminal = false) (old : String) :
    e.nextAttemptStatus old =
      if e.kind = "worker_exited" ∧ old ≠ "reclaimed" then "exited" else old := by
  have hkinds : ∀ k ∈ terminalKinds, e.kind ≠ k := by
    intro k hk heq
    rw [RuntimeEvent.terminal, heq] at h
    simp [hk] at h
  have hreclaimed := hkinds "reclaimed" (by decide)
  have hblocked := hkinds "blocked" (by decide)
  have hcompleted := hkinds "completed" (by decide)
  simp [RuntimeEvent.nextAttemptStatus, h, hreclaimed, hblocked, hcompleted]

theorem factsKept_of_facts {es : List RuntimeEvent} {a a' : CardAttempt}
    (h : a'.facts = a.facts) : FactsKept es a a' := by
  simp only [CardAttempt.facts, Prod.mk.injEq] at h
  exact ⟨h.2.1, .inl h.2.2, fun hr => h.2.2.trans hr⟩

theorem FactsKept.trans {es es' : List RuntimeEvent} {a a' a'' : CardAttempt}
    (h : FactsKept es a a') (h' : FactsKept es' a' a'') (hid : a'.runId = a.runId) :
    FactsKept (es ++ es') a a'' := by
  refine ⟨h'.reason.trans h.reason, ?_, fun hr => h'.reclaimed (h.reclaimed hr)⟩
  rcases h'.status with hs' | ⟨hs', e, he, hk, hrun⟩
  · rcases h.status with hs | ⟨hs, e, he, hk, hrun⟩
    · exact .inl (hs'.trans hs)
    · exact .inr ⟨hs'.trans hs, e, List.mem_append_left _ he, hk, hrun⟩
  · exact .inr ⟨hs', e, List.mem_append_right _ he, hk, hid ▸ hrun⟩

/-- An event that rewrites nothing keeps the facts of an attempt that has ended. -/
theorem facts_step {e : RuntimeEvent} {s : Store} {runId : String} {a : CardAttempt}
    (hnot : ¬ e.Rewrites s) (ha : s.attempt runId = some a) (hsome : a.terminalReason.isSome) :
    ∃ a', ((recordCardRuntimeEvent e).commit s).2.attempt runId = some a' ∧
      FactsKept [e] a a' := by
  obtain ⟨a', ha', hfacts | ⟨hc, hfacts⟩⟩ := record_facts e ha
  · exact ⟨a', ha', factsKept_of_facts hfacts⟩
  · refine ⟨a', ha', ?_⟩
    simp only [CardAttempt.facts, RuntimeEvent.updateAttempt, Prod.mk.injEq] at hfacts
    obtain ⟨-, hreason, hstatus⟩ := hfacts
    by_cases hterminal : e.terminal = true
    · have hsame : a.terminalReason = some e.kind ∧ a.status = e.attemptStatus := by
        by_contra hdiff
        rw [not_and_or] at hdiff
        exact hnot ⟨hterminal, runId, a, ha, hc, hsome, hdiff⟩
      rw [if_pos hterminal] at hreason
      rw [nextAttemptStatus_terminal hterminal, ← hsame.2] at hstatus
      exact ⟨hreason.trans hsame.1.symm, .inl hstatus, fun hr => hstatus.trans hr⟩
    · rw [if_neg hterminal] at hreason
      rw [nextAttemptStatus_open (by simpa using hterminal)] at hstatus
      refine ⟨hreason, ?_, fun hr => ?_⟩
      · by_cases hexit : e.kind = "worker_exited" ∧ a.status ≠ "reclaimed"
        · rw [if_pos hexit] at hstatus
          exact .inr ⟨hstatus, e, List.mem_singleton.mpr rfl, hexit.1, hc.run⟩
        · rw [if_neg hexit] at hstatus
          exact .inl hstatus
      · rw [if_neg (fun hexit => hexit.2 hr)] at hstatus
        exact hstatus.trans hr

/-- An event that rewrites an attempt leaves other facts. -/
theorem rewrites_step {e : RuntimeEvent} {s : Store} (h : e.Rewrites s) :
    ∃ runId a, s.attempt runId = some a ∧ a.terminalReason.isSome ∧
      ∀ a', ((recordCardRuntimeEvent e).commit s).2.attempt runId = some a' →
        ¬ FactsKept [e] a a' := by
  obtain ⟨hterminal, runId, a, ha, hc, hsome, hdiff⟩ := h
  refine ⟨runId, a, ha, hsome, fun a' ha' hkept => ?_⟩
  obtain ⟨b, hb, hfacts⟩ := record_ends ha hc hterminal
  rw [hb] at ha'
  cases ha'
  simp only [CardAttempt.facts, RuntimeEvent.updateAttempt, Prod.mk.injEq, if_pos hterminal,
    nextAttemptStatus_terminal hterminal] at hfacts
  obtain ⟨-, hreason, hstatus⟩ := hfacts
  have hsame : a.terminalReason = some e.kind := hkept.reason.symm.trans hreason
  rcases hkept.status with hs | ⟨-, e', he', hk, -⟩
  · rcases hdiff with hr | hs'
    · exact hr hsame
    · exact hs' (hs.symm.trans hstatus)
  · rw [List.mem_singleton.mp he'] at hk
    rw [RuntimeEvent.terminal, hk] at hterminal
    revert hterminal
    decide

theorem pollEvents_append (es es' : List RuntimeEvent) (s : Store) :
    pollEvents (es ++ es') s = pollEvents es' (pollEvents es s) := by
  induction es generalizing s with
  | nil => rfl
  | cons e es ih => exact ih _

/-- A run whose events rewrite nothing keeps the facts of every attempt that has ended. -/
theorem facts_run {s : Store} {es : List RuntimeEvent}
    (hnot : ∀ pre e post, es = pre ++ e :: post → ¬ e.Rewrites (pollEvents pre s))
    {runId : String} {a : CardAttempt} (ha : s.attempt runId = some a)
    (hsome : a.terminalReason.isSome) :
    ∃ a', (pollEvents es s).attempt runId = some a' ∧ FactsKept es a a' := by
  induction es generalizing s a with
  | nil => exact ⟨a, ha, factsKept_of_facts rfl⟩
  | cons e es ih =>
    obtain ⟨b, hb, hkept⟩ := facts_step (hnot [] e es rfl) ha hsome
    have hrest : ∀ pre e' post, es = pre ++ e' :: post →
        ¬ e'.Rewrites (pollEvents pre ((recordCardRuntimeEvent e).commit s).2) :=
      fun pre e' post heq => hnot (e :: pre) e' post (by rw [heq]; rfl)
    obtain ⟨a', ha', hkept'⟩ := ih hrest hb (by rw [hkept.reason]; exact hsome)
    have hid : b.runId = a.runId := (attempt_runId hb).trans (attempt_runId ha).symm
    exact ⟨a', ha', hkept.trans hkept' hid⟩

/-- **Exactly when the terminal facts of attempts are irreversible.** They are as long as no
terminal event comes for an attempt that has ended with another reason or has another status. -/
theorem irreversible_iff (s : Store) (es : List RuntimeEvent) :
    Irreversible s es ↔
      ∀ pre e post, es = pre ++ e :: post → ¬ e.Rewrites (pollEvents pre s) := by
  constructor
  · intro hlaw pre e post heq hrewrites
    obtain ⟨runId, a, ha, hsome, hlost⟩ := rewrites_step hrewrites
    obtain ⟨a', ha', hkept⟩ := hlaw pre [e] post (by simp [heq]) runId a ha hsome
    rw [pollEvents_append] at ha'
    exact hlost a' ha' hkept
  · intro hnot pre mid post heq runId a ha hsome
    rw [pollEvents_append]
    refine facts_run (fun pre' e post' hmid => ?_) ha hsome
    rw [← pollEvents_append]
    exact hnot (pre ++ pre') e (post' ++ post) (by rw [heq, hmid]; simp)

/-- An event of Hermes run 3 of card 5. -/
def runThreeEvent (kind : String) (createdAt : Nat) : RuntimeEvent where
  board := "app"
  cardId := ⟨5⟩
  kind
  createdAt
  workerSessionId := some "kanban-run:3"
  leaseSeconds := 1800
  runId := some "app:3"

def cardFiveStore : Store where
  runs := [sampleRun "run-a" "ga" 1]
  managedCards := [sampleCard 5 4 .implement]

/-- The terminal facts of the attempt after the events. -/
def factsAfter (es : List RuntimeEvent) : Option (Option String × String) :=
  ((pollEvents es cardFiveStore).attempt "app:3").map fun a => (a.terminalReason, a.status)

/-- The worker completed its card after the watchdog had reclaimed the attempt. -/
theorem reclaimed_completed :
    ¬ Irreversible cardFiveStore
      [runThreeEvent "claimed" 10, runThreeEvent "reclaimed" 20, runThreeEvent "completed" 30] := by
  intro hlaw
  have hbefore : factsAfter [runThreeEvent "claimed" 10, runThreeEvent "reclaimed" 20] =
      some (some "reclaimed", "reclaimed") := rfl
  have hafter : factsAfter ([runThreeEvent "claimed" 10, runThreeEvent "reclaimed" 20] ++
      [runThreeEvent "completed" 30]) = some (some "completed", "completion_recorded") := rfl
  obtain ⟨a, ha, hfacts⟩ := Option.map_eq_some_iff.mp hbefore
  rw [Prod.mk.injEq] at hfacts
  obtain ⟨a', ha', hkept⟩ := hlaw _ [runThreeEvent "completed" 30] [] rfl "app:3" a ha
    (by rw [hfacts.1]; rfl)
  rw [factsAfter, ha', Option.map_some, Option.some.injEq, Prod.mk.injEq] at hafter
  have hreclaimed := hkept.reclaimed hfacts.2
  rw [hafter.2] at hreclaimed
  revert hreclaimed
  decide

end HollysysController
