import HollysysController.OperationLedger
import HollysysController.Startup
import HollysysController.Durable.Rows

/-! # The history of the store

What holds of the tables however the operations of the store follow one another: the unique
columns stay unique, each row refers to a row that is there, and what was recorded stays
recorded. Rows are added and go on; none is taken away. -/

namespace HollysysController

open Durable

/-! ## What becomes of a row -/

/-- The row of a card may be written anew, but not its place. -/
structure ManagedCard.Continues (c c' : ManagedCard) : Prop where
  board : c'.board = c.board
  cardId : c'.cardId = c.cardId
  createdAt : c'.createdAt = c.createdAt

/-- The times of an attempt, and why it was given up, are recorded once. -/
structure CardAttempt.Continues (a a' : CardAttempt) : Prop where
  runId : a'.runId = a.runId
  board : a'.board = a.board
  cardId : a'.cardId = a.cardId
  runKey : a'.runKey = a.runKey
  attempt : a'.attempt = a.attempt
  startedAt : Stays a.startedAt a'.startedAt
  blockedAt : Stays a.blockedAt a'.blockedAt
  completionAt : Stays a.completionAt a'.completionAt
  exitedAt : Stays a.exitedAt a'.exitedAt
  recoveryReason : Stays a.recoveryReason a'.recoveryReason
  redispatchedFrom : Stays a.redispatchedFromRunId a'.redispatchedFromRunId

/-- A row under an old version is the old row. -/
def RunControl.Continues (row row' : RunControl) : Prop :=
  row' = row ∨ row.stateVersion < row'.stateVersion

structure OperationRow.Continues (row row' : OperationRow) : Prop where
  kind : row'.kind = row.kind
  payload : row'.payload = row.payload
  head : row'.expectedHeadSha = row.expectedHeadSha
  version : versionAdmitted row.expectedStateVersion row'.expectedStateVersion = true
  attempts : row.attempts ≤ row'.attempts

structure RequestRow.Continues (row row' : RequestRow) : Prop where
  payload : row'.payload = row.payload
  runKey : Stays row.runKey row'.runKey

/-- A token is asked for, and then confirmed or expired, for good. -/
structure AbortRow.Continues (r r' : AbortRow) : Prop where
  request : { r' with status := r.status, confirmMessageId := r.confirmMessageId } = r
  settled : r.status ≠ .pending → r' = r

/-- The outages of a dependency follow one another, and a closed one is not opened again. -/
structure Outage.Continues (o o' : Outage) : Prop where
  dependency : o'.dependency = o.dependency
  outageId : o.outageId ≤ o'.outageId
  closed : o.isOpen = false → o'.outageId = o.outageId → o'.isOpen = false

structure ReconcileIntent.Continues (r r' : ReconcileIntent) : Prop where
  intentId : r'.intentId = r.intentId
  runKey : r'.runKey = r.runKey
  createdAt : r'.createdAt = r.createdAt
  eventId : r.eventId.getD 0 ≤ r'.eventId.getD 0
  revision : r.revision ≤ r'.revision

/-! ## What becomes of a table -/

/-- What the keys of a table promise. The attempts of a card are numbered as they come. -/
def Column.Keyed : (c : Column) → c.Ty → Prop
  | cards, t => Unique (fun c => (c.board, c.cardId)) t ∧
      Unique (fun c => (c.board, c.idempotencyKey)) t
  | attempts, t => Unique (·.runId) t ∧ ∀ board id,
      (t.filter (·.ofCard board id)).map (·.attempt) =
        List.range' 1 (t.filter (·.ofCard board id)).length
  | metrics, t => t.Nodup
  | outbox, t => Unique (·.key) t
  | outages, t => Unique (·.dependency) t.1 ∧ (∀ o ∈ t.1, o.outageId < t.2.2) ∧ t.2.1.Nodup
  | intents, t => IntentKeys t
  | runs, t => Unique (·.runKey) t ∧ Unique (·.runGeneration) t
  | aborts, t => Unique (·.requestId) t ∧ ∀ runKey,
      (t.filter fun r => r.runKey == runKey && r.status == .pending).length ≤ 1
  | bindings, t => Unique (·.1) t ∧ Unique (·.2.mrIid) t
  | runtime, _ | control, _ | operations, _ | requests, _ | cursors, _ => True

def Column.Continues : (c : Column) → c.Ty → c.Ty → Prop
  | cards, t, t' => Carried ManagedCard.Continues t t'
  | runtime, t, t' => t.Carried (fun row row' => row.attempt ≤ row'.attempt) t'
  | attempts, t, t' => Carried CardAttempt.Continues t t'
  | metrics, t, t' => t <+: t'
  | control, t, t' => t.Carried RunControl.Continues t'
  | operations, t, t' => t.Carried OperationRow.Continues t'
  | requests, t, t' => t.Carried RequestRow.Continues t'
  | outbox, t, t' => t <+: t'
  | outages, t, t' => Carried Outage.Continues t.1 t'.1 ∧ t.2.1 <+: t'.2.1 ∧ t.2.2 ≤ t'.2.2
  | cursors, t, t' => t.Carried (· ≤ ·) t'
  | intents, t, t' => Carried ReconcileIntent.Continues t t'
  | runs, t, t' => t <+: t'
  | aborts, t, t' => Carried AbortRow.Continues t t'
  | bindings, t, t' => t <+: t'

/-! ## Nothing happens, and one thing after the other -/

section Preorder

theorem ManagedCard.Continues.refl (c : ManagedCard) : c.Continues c := ⟨rfl, rfl, rfl⟩

theorem ManagedCard.Continues.trans {a b c : ManagedCard} (h : a.Continues b) (h' : b.Continues c) :
    a.Continues c :=
  ⟨h'.board.trans h.board, h'.cardId.trans h.cardId, h'.createdAt.trans h.createdAt⟩

theorem CardAttempt.Continues.refl (a : CardAttempt) : a.Continues a :=
  ⟨rfl, rfl, rfl, rfl, rfl, .refl _, .refl _, .refl _, .refl _, .refl _, .refl _⟩

theorem CardAttempt.Continues.trans {a b c : CardAttempt} (h : a.Continues b)
    (h' : b.Continues c) : a.Continues c where
  runId := h'.runId.trans h.runId
  board := h'.board.trans h.board
  cardId := h'.cardId.trans h.cardId
  runKey := h'.runKey.trans h.runKey
  attempt := h'.attempt.trans h.attempt
  startedAt := h.startedAt.trans h'.startedAt
  blockedAt := h.blockedAt.trans h'.blockedAt
  completionAt := h.completionAt.trans h'.completionAt
  exitedAt := h.exitedAt.trans h'.exitedAt
  recoveryReason := h.recoveryReason.trans h'.recoveryReason
  redispatchedFrom := h.redispatchedFrom.trans h'.redispatchedFrom

theorem RunControl.Continues.trans {a b c : RunControl} (h : a.Continues b)
    (h' : b.Continues c) : a.Continues c := by
  rcases h with rfl | h
  · exact h'
  · rcases h' with rfl | h'
    · exact .inr h
    · exact .inr (h.trans h')

theorem OperationRow.Continues.refl (row : OperationRow) : row.Continues row :=
  ⟨rfl, rfl, rfl, versionAdmitted_refl _, le_rfl⟩

theorem OperationRow.Continues.trans {a b c : OperationRow} (h : a.Continues b)
    (h' : b.Continues c) : a.Continues c where
  kind := h'.kind.trans h.kind
  payload := h'.payload.trans h.payload
  head := h'.head.trans h.head
  version := versionAdmitted_trans h.version h'.version
  attempts := h.attempts.trans h'.attempts

theorem RequestRow.Continues.refl (row : RequestRow) : row.Continues row := ⟨rfl, .refl _⟩

theorem RequestRow.Continues.trans {a b c : RequestRow} (h : a.Continues b)
    (h' : b.Continues c) : a.Continues c :=
  ⟨h'.payload.trans h.payload, h.runKey.trans h'.runKey⟩

theorem AbortRow.Continues.refl (r : AbortRow) : r.Continues r := ⟨rfl, fun _ => rfl⟩

theorem AbortRow.Continues.trans {a b c : AbortRow} (h : a.Continues b) (h' : b.Continues c) :
    a.Continues c where
  request := by
    have hab := h.request
    have hbc := h'.request
    cases a
    cases b
    cases c
    simp_all
  settled hs := by
    have hb := h.settled hs
    subst hb
    exact h'.settled hs

theorem Outage.Continues.refl (o : Outage) : o.Continues o := ⟨rfl, le_rfl, fun h _ => h⟩

theorem Outage.Continues.trans {a b c : Outage} (h : a.Continues b) (h' : b.Continues c) :
    a.Continues c where
  dependency := h'.dependency.trans h.dependency
  outageId := h.outageId.trans h'.outageId
  closed hopen hid := by
    -- the id of the outage in between is the same
    have hb : b.outageId = a.outageId := by
      have hab := h.outageId
      have hbc := h'.outageId
      omega
    exact h'.closed (h.closed hopen hb) (hid.trans hb.symm)

theorem ReconcileIntent.Continues.refl (r : ReconcileIntent) : r.Continues r :=
  ⟨rfl, rfl, rfl, le_rfl, le_rfl⟩

theorem ReconcileIntent.Continues.trans {a b c : ReconcileIntent} (h : a.Continues b)
    (h' : b.Continues c) : a.Continues c where
  intentId := h'.intentId.trans h.intentId
  runKey := h'.runKey.trans h.runKey
  createdAt := h'.createdAt.trans h.createdAt
  eventId := h.eventId.trans h'.eventId
  revision := h.revision.trans h'.revision

theorem Column.Continues.refl (c : Column) (t : c.Ty) : c.Continues t t := by
  cases c with
  | cards => exact Carried.refl ManagedCard.Continues.refl t
  | runtime => exact Table.Carried.refl (fun row => Nat.le_refl row.attempt) t
  | attempts => exact Carried.refl CardAttempt.Continues.refl t
  | control => exact Table.Carried.refl (fun _ => .inl rfl) t
  | operations => exact Table.Carried.refl OperationRow.Continues.refl t
  | requests => exact Table.Carried.refl RequestRow.Continues.refl t
  | outages => exact ⟨Carried.refl Outage.Continues.refl _, List.prefix_rfl, le_rfl⟩
  | cursors => exact Table.Carried.refl (fun _ => le_rfl) t
  | intents => exact Carried.refl ReconcileIntent.Continues.refl t
  | aborts => exact Carried.refl AbortRow.Continues.refl t
  | metrics | outbox | runs | bindings => exact List.prefix_rfl

theorem Column.Continues.trans {c : Column} {t t' t'' : c.Ty} (h : c.Continues t t')
    (h' : c.Continues t' t'') : c.Continues t t'' := by
  cases c with
  | cards => exact Carried.trans (fun _ _ _ => ManagedCard.Continues.trans) h h'
  | runtime => exact Table.Carried.trans (fun _ _ _ => le_trans) h h'
  | attempts => exact Carried.trans (fun _ _ _ => CardAttempt.Continues.trans) h h'
  | control => exact Table.Carried.trans (fun _ _ _ => RunControl.Continues.trans) h h'
  | operations => exact Table.Carried.trans (fun _ _ _ => OperationRow.Continues.trans) h h'
  | requests => exact Table.Carried.trans (fun _ _ _ => RequestRow.Continues.trans) h h'
  | outages =>
    exact ⟨Carried.trans (fun _ _ _ => Outage.Continues.trans) h.1 h'.1, h.2.1.trans h'.2.1,
      h.2.2.trans h'.2.2⟩
  | cursors => exact Table.Carried.trans (fun _ _ _ => le_trans) h h'
  | intents => exact Carried.trans (fun _ _ _ => ReconcileIntent.Continues.trans) h h'
  | aborts => exact Carried.trans (fun _ _ _ => AbortRow.Continues.trans) h h'
  | metrics | outbox | runs | bindings => exact List.IsPrefix.trans h h'

end Preorder

/-! ## What one transaction does to a table -/

/-- From a keyed table the step leads to a keyed one that goes on from it. -/
def Column.Steps (c : Column) (t t' : c.Ty) : Prop := c.Keyed t → c.Keyed t' ∧ c.Continues t t'

theorem Column.Steps.same {c : Column} {t t' : c.Ty} (h : t' = t) : c.Steps t t' := by
  subst h
  exact fun hk => ⟨hk, .refl c t'⟩

theorem Column.Steps.trans {c : Column} {t t' t'' : c.Ty} (h : c.Steps t t')
    (h' : c.Steps t' t'') : c.Steps t t'' := by
  intro hk
  obtain ⟨hk', hc⟩ := h hk
  obtain ⟨hk'', hc'⟩ := h' hk'
  exact ⟨hk'', hc.trans hc'⟩

/-- A transaction is rolled back, or committed. -/
theorem Txn.commit_cases {α : Type} (t : Txn α) (s : Store) :
    (t.commit s).2 = s ∨ ∃ a, t s = .ok (a, (t.commit s).2) := by
  unfold Txn.commit
  split
  · next a s' h => exact .inr ⟨a, h⟩
  · exact .inl rfl

/-- The transaction steps in the table. -/
def Txn.Records {α : Type} (c : Column) (t : Txn α) : Prop :=
  ∀ s a s', t s = .ok (a, s') → c.Steps (c.get s) (c.get s')

theorem Txn.Records.commit {α : Type} {c : Column} {t : Txn α} (h : t.Records c) (s : Store) :
    c.Steps (c.get s) (c.get (t.commit s).2) := by
  rcases t.commit_cases s with hs | ⟨a, ha⟩
  · exact .same (congrArg c.get hs)
  · exact h _ _ _ ha

section Runs

theorem saveRun_records (run : RunRecord) : (saveRun run).Records .runs := by
  intro s a s' h
  unfold saveRun at h
  split at h
  · split at h <;> cases h
    exact .same rfl
  · next hnone =>
    split at h <;> cases h
    next hgeneration =>
    rintro ⟨hkeys, hgenerations⟩
    refine ⟨⟨hkeys.insert fun r hr hkey => ?_, hgenerations.insert fun r hr hkey => ?_⟩,
      List.prefix_append _ _⟩
    · exact List.find?_eq_none.mp hnone r hr (beq_iff_eq.mpr hkey)
    · exact hgeneration (List.any_eq_true.mpr ⟨r, hr, beq_iff_eq.mpr hkey⟩)

theorem bindDelivery_records (runKey : String) (binding : DeliveryBinding) :
    (bindDelivery runKey binding).Records .bindings := by
  intro s a s' h
  unfold bindDelivery at h
  split at h
  · cases h
  · split at h
    · split at h <;> cases h
      exact .same rfl
    · next hnone =>
      split at h <;> cases h
      next hmr =>
      rintro ⟨hkeys, hmrs⟩
      refine ⟨⟨hkeys.insert fun r hr hkey => ?_, hmrs.insert fun r hr hkey => ?_⟩,
        List.prefix_append _ _⟩
      · exact List.find?_eq_none.mp (Option.map_eq_none_iff.mp hnone) r hr (beq_iff_eq.mpr hkey)
      · exact hmr (List.any_eq_true.mpr ⟨r, hr, beq_iff_eq.mpr hkey⟩)

end Runs

section Cards

/-- The card is written over its own row, or after the others. -/
theorem addManagedCard_records (c : ManagedCard) : (addManagedCard c).Records .cards := by
  intro s a s' h
  unfold addManagedCard at h
  split at h
  · cases h
  · next hfree =>
    -- no other card of the board holds the key
    have hkey : ∀ d ∈ s.managedCards, (d.board, d.idempotencyKey) = (c.board, c.idempotencyKey) →
        d.cardId = c.cardId := by
      intro d hd hsame
      by_contra hne
      refine hfree (List.any_eq_true.mpr ⟨d, hd, ?_⟩)
      simp only [Prod.mk.injEq] at hsame
      simp [hsame.1, hsame.2, hne]
    split at h
    · cases h
      rintro ⟨hids, hkeys⟩
      refine ⟨⟨hids.update fun d _ => ?_, ?_⟩, Carried.update fun d _ => ?_⟩
      · split
        · next hd => rw [hd.1, hd.2]
        · rfl
      · refine hkeys.overwrite hids (i := (c.board, c.cardId)) (fun d _ hd => ?_)
          fun d _ e he hd hsame => ?_
        · rw [if_neg (by simpa [Prod.ext_iff] using hd)]
        · rw [if_pos (by simpa [Prod.ext_iff] using hd)] at hsame
          rw [hkey e he hsame, (Prod.mk.inj hsame).1]
      · split
        · next hd => exact ⟨hd.1.symm, hd.2.symm, rfl⟩
        · exact .refl d
    · next hnone =>
      cases h
      rintro ⟨hids, hkeys⟩
      have hnew : ∀ d ∈ s.managedCards, (d.board, d.cardId) ≠ (c.board, c.cardId) := by
        intro d hd hsame
        simp only [Prod.mk.injEq] at hsame
        refine List.find?_eq_none.mp hnone d hd ?_
        simp [hsame.1, hsame.2]
      refine ⟨⟨hids.insert hnew, hkeys.insert fun d hd hsame => ?_⟩,
        Carried.insert ManagedCard.Continues.refl _ _⟩
      refine hnew d hd ?_
      rw [hkey d hd hsame, (Prod.mk.inj hsame).1]

theorem recordAttemptMetric_records (runId metric : String) :
    (recordAttemptMetric runId metric).Records .metrics := by
  intro s a s' h
  unfold recordAttemptMetric at h
  split at h
  · cases h
    intro hk
    dsimp only [Column.get]
    split
    · exact ⟨hk, List.prefix_rfl⟩
    · next hnew =>
      refine ⟨List.nodup_append.mpr ⟨hk, List.nodup_singleton _, fun m hm m' hm' => ?_⟩,
        List.prefix_append _ _⟩
      rintro rfl
      rw [List.mem_singleton.mp hm'] at hm
      exact hnew (List.contains_iff_mem.mpr hm)
  · cases h

end Cards

section Runtime

theorem registerCardAttempt_records (r : AttemptRegistration) :
    (registerCardAttempt r).Records .runtime := by
  intro s a s' h
  cases h
  refine fun _ => ⟨trivial, Table.Carried.put (fun row => Nat.le_refl row.attempt) ?_⟩
  intro row hrow
  replace hrow : s.cardRuntime (r.board, r.cardId) = some row := hrow
  rw [hrow]
  exact Nat.le_refl row.attempt

theorem recordAttemptCompletion_records (c : AttemptCompletion) (now : Nat) :
    (recordAttemptCompletion c now).Records .runtime := by
  intro s a s' h
  cases h
  exact fun _ => ⟨trivial, Table.Carried.modify (fun row => Nat.le_refl row.attempt) _
    fun row => Nat.le_refl row.attempt⟩

end Runtime

section Attempts

/-- An update of attempts leaves their numbers as they are. -/
theorem attempts_update {t : List CardAttempt} {f : CardAttempt → CardAttempt}
    (hf : ∀ a ∈ t, a.Continues (f a)) : Column.Steps .attempts t (t.map f) := by
  rintro ⟨hids, hnumbers⟩
  refine ⟨⟨hids.update fun a ha => (hf a ha).runId, fun board id => ?_⟩, Carried.update hf⟩
  have hfilter : (t.map f).filter (·.ofCard board id) = (t.filter (·.ofCard board id)).map f := by
    rw [List.filter_map]
    refine congrArg _ (List.filter_congr fun a ha => ?_)
    simp only [Function.comp, CardAttempt.ofCard, (hf a ha).board, (hf a ha).cardId]
  rw [hfilter, List.length_map, ← hnumbers board id, List.map_map]
  refine List.map_congr_left fun a ha => ?_
  exact (hf a (List.mem_of_mem_filter ha)).attempt

theorem mapAttempt_steps {s : Store} {runId : String} {f : CardAttempt → CardAttempt}
    (hf : ∀ a : CardAttempt, a.Continues (f a)) :
    Column.Steps .attempts s.cardAttempts (s.mapAttempt runId f).cardAttempts := by
  refine attempts_update fun a _ => ?_
  split
  · exact hf a
  · exact .refl a

theorem linkRedispatch_steps (e : RuntimeEvent) (runId : String) (s : Store) :
    Column.Steps .attempts s.cardAttempts (linkRedispatch e runId s).cardAttempts := by
  unfold linkRedispatch
  split
  · split
    · exact mapAttempt_steps fun a => { CardAttempt.Continues.refl a with
        redispatchedFrom := .orElse _ _ }
    · exact .same rfl
  · exact .same rfl

theorem updateAttempt_continues (e : RuntimeEvent) (a : CardAttempt) :
    a.Continues (e.updateAttempt a) where
  runId := rfl
  board := rfl
  cardId := rfl
  runKey := rfl
  attempt := rfl
  startedAt := .orElse _ _
  blockedAt := .orElse _ _
  completionAt := .orElse _ _
  exitedAt := .orElse _ _
  recoveryReason := .refl _
  redispatchedFrom := .refl _

theorem foldr_max_range' (n b : Nat) : (List.range' 1 n).foldr max b = max n b := by
  induction n generalizing b with
  | zero => simp
  | succ n ih =>
    rw [List.range'_concat, List.foldr_append, List.foldr_cons, List.foldr_nil, ih]
    omega

/-- The next attempt of a card has the next number. -/
theorem firstAttempt_steps (e : RuntimeEvent) (runId runKey : String) {s : Store}
    (hnew : ∀ a ∈ s.cardAttempts, a.runId ≠ runId) :
    Column.Steps .attempts s.cardAttempts (s.cardAttempts ++
      [e.firstAttempt runId runKey (s.nextAttempt e.board e.cardId)]) := by
  rintro ⟨hids, hnumbers⟩
  refine ⟨⟨hids.insert hnew, fun board id => ?_⟩, Carried.insert CardAttempt.Continues.refl _ _⟩
  rw [List.filter_append]
  by_cases hcard : e.board = board ∧ e.cardId = id
  · obtain ⟨rfl, rfl⟩ := hcard
    have hown : (e.firstAttempt runId runKey (s.nextAttempt e.board e.cardId)).ofCard
        e.board e.cardId = true := by simp [CardAttempt.ofCard, RuntimeEvent.firstAttempt]
    rw [List.filter_cons_of_pos hown, List.filter_nil, List.map_append, hnumbers,
      List.length_append, List.length_singleton, List.range'_concat]
    congr 1
    simp only [List.map_singleton, RuntimeEvent.firstAttempt, Store.nextAttempt, hnumbers,
      foldr_max_range', Nat.max_zero, Nat.one_mul, Nat.add_comm]
  · have hother : ¬ (e.firstAttempt runId runKey (s.nextAttempt e.board e.cardId)).ofCard board id
        = true := by simpa [CardAttempt.ofCard, RuntimeEvent.firstAttempt] using hcard
    rw [List.filter_cons_of_neg hother, List.filter_nil, List.append_nil]
    exact hnumbers board id

theorem recordAttempt_records (e : RuntimeEvent) (runId : String) :
    (recordAttempt e runId).Records .attempts := by
  intro s a s' h
  unfold recordAttempt at h
  split at h
  · cases h
  · next managed _ =>
    split at h
    · split at h <;> cases h
      exact (mapAttempt_steps (updateAttempt_continues e)).trans (linkRedispatch_steps e runId _)
    · next hnone =>
      split at h <;> cases h
      have hnew : ∀ a ∈ s.cardAttempts, a.runId ≠ runId := fun a ha => by
        simpa using List.find?_eq_none.mp hnone a ha
      have hlink := linkRedispatch_steps e runId { s with cardAttempts := s.cardAttempts ++
        [e.firstAttempt runId managed.runKey (s.nextAttempt e.board e.cardId)] }
      exact (firstAttempt_steps e runId managed.runKey hnew).trans hlink

/-- The event is recorded under its run, and then in the row of its card. -/
theorem recordCardRuntimeEvent_records (e : RuntimeEvent) {c : Column}
    (hc : c ∈ [Column.attempts, .runtime]) : (recordCardRuntimeEvent e).Records c := by
  intro s a s' h
  unfold recordCardRuntimeEvent at h
  dsimp only at h
  split at h
  · cases h
    exact .same rfl
  · split at h
    · cases h
    · next s₁ hs₁ =>
      have hattempts : Column.Steps .attempts s.cardAttempts s₁.cardAttempts ∧
          s₁.cardRuntime = s.cardRuntime := by
        cases hr : e.runId with
        | none =>
          rw [hr] at hs₁
          cases hs₁
          exact ⟨.same rfl, rfl⟩
        | some runId =>
          rw [hr] at hs₁
          exact ⟨recordAttempt_records e runId _ _ _ hs₁, recordAttempt_runtime hs₁⟩
      have hrow : Column.Steps .runtime s.cardRuntime
          (s.cardRuntime.put e.key (e.runtimeRow (s.cardRuntime e.key))) := by
        refine fun _ => ⟨trivial, Table.Carried.put (fun row => Nat.le_refl row.attempt) ?_⟩
        intro row hrow
        simp [hrow, RuntimeEvent.runtimeRow]
      rcases List.mem_pair.mp hc with rfl | rfl
      · split at h <;> cases h <;> exact hattempts.1
      · split at h <;> cases h
        · show Column.Steps .runtime s.cardRuntime
            (s₁.cardRuntime.put e.key (e.runtimeRow (s.cardRuntime e.key)))
          rw [hattempts.2]
          exact hrow
        · exact .same hattempts.2

theorem updateWorkerWatchdog_steps (u : WatchdogUpdate) (now : Nat) (s : Store) {c : Column}
    (hc : c ∈ [Column.attempts, .runtime]) :
    c.Steps (c.get s) (c.get (updateWorkerWatchdog u now s).2) := by
  have hattempts : Column.Steps .attempts s.cardAttempts (u.redispatch s).1 := by
    unfold WatchdogUpdate.redispatch
    split
    · exact .same rfl
    · split
      · refine attempts_update fun a _ => ?_
        split
        · exact { CardAttempt.Continues.refl a with recoveryReason := .orElse _ _ }
        · exact .refl a
      · exact .same rfl
  have hruntime : ∀ f : CardRuntime → CardRuntime, (∀ row, row.attempt ≤ (f row).attempt) →
      Column.Steps .runtime s.cardRuntime (s.cardRuntime.modify (u.board, u.cardId) f) :=
    fun f hf _ => ⟨trivial, Table.Carried.modify (fun row => Nat.le_refl row.attempt) _ hf⟩
  unfold updateWorkerWatchdog
  dsimp only
  rcases List.mem_pair.mp hc with rfl | rfl
  · split <;> exact hattempts
  · split <;> exact hruntime _ fun row => Nat.le_refl row.attempt

end Attempts

section Control

/-- A row written over one with a smaller version. -/
theorem control_put {s : Store} {k : String} {new : RunControl}
    (h : ∀ row, s.runControl k = some row → row.stateVersion < new.stateVersion) :
    Column.Steps .control s.runControl (s.runControl.put k new) :=
  fun _ => ⟨trivial, Table.Carried.put (fun _ => .inl rfl) fun row hrow => .inr (h row hrow)⟩

theorem ensureRunControl_records (runKey : String) :
    (ensureRunControl runKey).Records .control := by
  intro s a s' h
  unfold ensureRunControl at h
  split at h <;> cases h
  · exact .same rfl
  · next hnone =>
    refine control_put fun row hrow => ?_
    rw [hnone] at hrow
    cases hrow

theorem transitionRun_records (t : Transition) (now : Nat) :
    (transitionRun t now).Records .control := by
  intro s a s' h
  unfold transitionRun at h
  split at h
  · cases h
  · next row hrow =>
    split at h
    · cases h
    · split at h <;> cases h
      refine control_put fun r hr => ?_
      cases hrow.symm.trans hr
      exact Nat.lt_succ_self _

theorem setRunException_records (runKey reason : String) (now : Nat) :
    (setRunException runKey reason now).Records .control := by
  intro s a s' h
  unfold setRunException at h
  split at h
  · cases h
  · split at h
    · cases h
      exact .same rfl
    · exact transitionRun_records _ _ _ _ _ h

theorem markFlowCompleted_records (runKey : String) (state : RunState) (head reason : String)
    (now : Nat) : (markFlowCompleted runKey state head reason now).Records .control := by
  intro s a s' h
  unfold markFlowCompleted at h
  split at h
  · cases h
  · split at h
    · cases h
    · split at h
      · cases h
      · split at h
        · cases h
          exact .same rfl
        · exact transitionRun_records _ _ _ _ _ h

theorem markCompleted_records (runKey : String) (external : Bool) (compliance head : String)
    (merge : Option String) (reason : String) (now : Nat) :
    (markCompleted runKey external compliance head merge reason now).Records .control := by
  intro s a s' h
  unfold markCompleted at h
  split at h
  · cases h
  · split at h
    · cases h
    · split at h
      · cases h
      · split at h
        · cases h
          exact .same rfl
        · exact transitionRun_records _ _ _ _ _ h

theorem markAborting_records (runKey : String) : (markAborting runKey).Records .control := by
  intro s a s' h
  unfold markAborting at h
  split at h
  · cases h
    exact .same rfl
  · next row hrow =>
    split at h <;> cases h
    · refine control_put fun r hr => ?_
      cases hrow.symm.trans hr
      exact Nat.lt_succ_self _
    · exact .same rfl

theorem finishAbort_records (runKey : String) (merged : Bool) (head merge : Option String)
    (now : Nat) : (finishAbort runKey merged head merge now).Records .control := by
  intro s a s' h
  unfold finishAbort at h
  split at h
  · cases h
  · split at h
    · cases h
    · split at h
      · cases h
        exact .same rfl
      · next row hrow =>
        dsimp only at h
        split at h <;> cases h
        · refine control_put fun r hr => ?_
          cases hrow.symm.trans hr
          exact Nat.lt_succ_self _
        · exact .same rfl

end Control

section Operations

/-- What a close of the operation writes. -/
theorem operations_modify {s : Store} {key : String} {f : OperationRow → OperationRow}
    (hf : ∀ row : OperationRow, row.Continues (f row)) :
    Column.Steps .operations s.operations (s.operations.modify key f) :=
  fun _ => ⟨trivial, Table.Carried.modify OperationRow.Continues.refl key hf⟩

theorem operationResult_records (call : OperationCall) (now : Nat) :
    (operationResult call now).Records .operations := by
  intro s a s' h
  unfold operationResult at h
  split at h
  · next row hrow =>
    split at h
    · cases h
    · split at h
      · cases h
      · split at h
        · cases h
        · next hversion =>
          split at h <;> cases h
          · exact .same rfl
          · refine fun _ => ⟨trivial, Table.Carried.put OperationRow.Continues.refl fun r hr => ?_⟩
            cases hrow.symm.trans hr
            exact ⟨rfl, rfl, rfl, by simpa using hversion, Nat.le_succ _⟩
  · next hnone =>
    cases h
    refine fun _ => ⟨trivial, Table.Carried.put OperationRow.Continues.refl fun r hr => ?_⟩
    cases hnone.symm.trans hr

theorem closeOperation_records (status : OperationStatus) (key error : String) :
    (closeOperation status key error).Records .operations := by
  intro s a s' h
  cases h
  exact operations_modify fun row => { OperationRow.Continues.refl row with }

end Operations

section Requests

theorem beginRequest_records (key payload : String) :
    (beginRequest key payload).Records .requests := by
  intro s a s' h
  unfold beginRequest at h
  split at h
  · split at h
    · cases h
    · split at h <;> cases h <;> exact .same rfl
  · next hnone =>
    cases h
    refine fun _ => ⟨trivial, Table.Carried.put RequestRow.Continues.refl fun r hr => ?_⟩
    cases hnone.symm.trans hr

theorem bindRequestRun_records (key runKey : String) :
    (bindRequestRun key runKey).Records .requests := by
  intro s a s' h
  unfold bindRequestRun at h
  split at h
  · cases h
  · next row hrow =>
    split at h
    · cases h
    · split at h <;> cases h
      next hsame =>
      refine fun _ => ⟨trivial, Table.Carried.put RequestRow.Continues.refl fun r hr => ?_⟩
      cases hrow.symm.trans hr
      refine ⟨rfl, fun k hk => ?_⟩
      rw [hk] at hsame
      simpa using (Eq.symm <| by simpa using hsame : runKey = k)

theorem requests_modify {s : Store} {key : String} {f : RequestRow → RequestRow}
    (hf : ∀ row : RequestRow, row.Continues (f row)) :
    Column.Steps .requests s.requests (s.requests.modify key f) :=
  fun _ => ⟨trivial, Table.Carried.modify RequestRow.Continues.refl key hf⟩

theorem enqueue_records (row : OutboxRow) : (enqueue row).Records .outbox := by
  intro s a s' h
  unfold enqueue at h
  split at h <;> cases h
  · exact .same rfl
  · next hnew =>
    intro hk
    refine ⟨hk.insert fun r hr hkey => ?_, List.prefix_append _ _⟩
    exact hnew (List.any_eq_true.mpr ⟨r, hr, beq_iff_eq.mpr hkey⟩)

theorem setCursor_records (board : String) (cursor : Nat) :
    (setCursor board cursor).Records .cursors := by
  intro s a s' h
  cases h
  refine fun _ => ⟨trivial, Table.Carried.put le_refl fun n hn => ?_⟩
  replace hn : s.cursors board = some n := hn
  rw [hn]
  exact Nat.le_max_left _ _

end Requests

section Aborts

/-- No more rows pass after an update that makes none pass. -/
theorem length_filter_map_le {α : Type} {p : α → Bool} {f : α → α} {l : List α}
    (hf : ∀ a ∈ l, p (f a) = true → p a = true) :
    ((l.map f).filter p).length ≤ (l.filter p).length := by
  rw [← List.countP_eq_length_filter, ← List.countP_eq_length_filter, List.countP_map]
  exact List.countP_mono_left hf

/-- The row with the pending tokens of the run expired. -/
def expire (runKey : String) (r : AbortRow) : AbortRow :=
  if r.runKey = runKey ∧ r.status = .pending then { r with status := .expired } else r

theorem expire_continues (runKey : String) (r : AbortRow) : r.Continues (expire runKey r) := by
  unfold expire
  split
  · next hr => exact ⟨rfl, fun hs => absurd hr.2 hs⟩
  · exact .refl r

theorem expire_requestId (runKey : String) (r : AbortRow) :
    (expire runKey r).requestId = r.requestId := by
  unfold expire
  split <;> rfl

/-- A new token is the only one that is pending. -/
theorem aborts_requested {t : List AbortRow} (row : AbortRow)
    (hnew : ∀ r ∈ t, r.requestId ≠ row.requestId) :
    Column.Steps .aborts t (t.map (expire row.runKey) ++ [row]) := by
  rintro ⟨hids, hpending⟩
  have hexpired := hids.update fun r _ => expire_requestId row.runKey r
  refine ⟨⟨hexpired.insert fun r hr hid => ?_, fun runKey => ?_⟩,
    Carried.trans (fun _ _ _ => AbortRow.Continues.trans)
      (Carried.update fun r _ => expire_continues _ r) (Carried.insert AbortRow.Continues.refl _ _)⟩
  · obtain ⟨r₀, hr₀, rfl⟩ := List.mem_map.mp hr
    exact hnew r₀ hr₀ ((expire_requestId _ r₀).symm.trans hid)
  · rw [List.filter_append, List.length_append]
    by_cases hrun : runKey = row.runKey
    · -- what was pending has expired
      subst hrun
      have hnone : (t.map (expire row.runKey)).filter
          (fun r => r.runKey == row.runKey && r.status == .pending) = [] := by
        refine List.filter_eq_nil_iff.mpr fun r hr => ?_
        obtain ⟨r₀, -, rfl⟩ := List.mem_map.mp hr
        unfold expire
        split <;> simp_all
      rw [hnone, List.length_nil, Nat.zero_add]
      exact List.length_filter_le _ _
    · have hother : ([row].filter fun r => r.runKey == runKey && r.status == .pending) = [] := by
        simp [Ne.symm hrun]
      rw [hother, List.length_nil, Nat.add_zero]
      refine (length_filter_map_le fun r _ hr => ?_).trans (hpending runKey)
      revert hr
      unfold expire
      split
      · simp
      · exact id

theorem createAbortRequest_records (row : AbortRow) (now : Nat) :
    (createAbortRequest row now).Records .aborts := by
  intro s a s' h
  unfold createAbortRequest at h
  split at h
  · cases h
  · split at h
    · cases h
    · split at h <;> cases h
      next hnew =>
      exact aborts_requested { row with createdAt := now } fun r hr hid =>
        hnew (List.any_eq_true.mpr ⟨r, hr, beq_iff_eq.mpr hid⟩)

/-- The pending token is confirmed. -/
theorem aborts_confirmed {t : List AbortRow} {row : AbortRow} (hrow : row ∈ t)
    (hpending : row.status = .pending) (messageId : String) :
    Column.Steps .aborts t (t.map fun r => if r.requestId = row.requestId then
      { r with status := .confirmed, confirmMessageId := some messageId } else r) := by
  rintro ⟨hids, hcount⟩
  refine ⟨⟨hids.update fun r _ => ?_, fun runKey => ?_⟩, Carried.update fun r hr => ?_⟩
  · split <;> rfl
  · refine (length_filter_map_le fun r _ hr => ?_).trans (hcount runKey)
    revert hr
    split
    · simp
    · exact id
  · split
    · next hid =>
      refine ⟨rfl, fun hs => ?_⟩
      cases hids.eq_of_key hr hrow hid
      exact absurd hpending hs
    · exact .refl r

theorem pendingAbort_pending {s : Store} {runKey : String} {row : AbortRow}
    (h : s.pendingAbort runKey = some row) : row ∈ s.abortRequests ∧ row.status = .pending := by
  have hmem := List.mem_of_mem_head? (Option.mem_def.mpr h)
  rw [List.mem_insertionSort, List.mem_filter] at hmem
  simp only [Bool.and_eq_true, beq_iff_eq] at hmem
  exact ⟨hmem.1, hmem.2.2⟩

theorem confirmRequest_records (c : AbortConfirmation) (now : Nat) {k : Column}
    (hk : k ∈ [Column.aborts, .control]) : (confirmRequest c now).Records k := by
  intro s a s' h
  unfold confirmRequest at h
  split at h
  · cases h
  · next row hrow =>
    obtain ⟨hmem, hpending⟩ := pendingAbort_pending hrow
    split at h
    · cases h
    · split at h
      · cases h
      · have haborts := aborts_confirmed hmem hpending c.messageId
        dsimp only at h
        split at h
        · cases h
          rcases List.mem_pair.mp hk with rfl | rfl
          · exact haborts
          · exact .same rfl
        · next control hcontrol =>
          split at h <;> cases h
          · rcases List.mem_pair.mp hk with rfl | rfl
            · exact haborts
            · refine control_put fun r hr => ?_
              cases hcontrol.symm.trans hr
              exact Nat.lt_succ_self _
          · rcases List.mem_pair.mp hk with rfl | rfl
            · exact haborts
            · exact .same rfl

theorem confirmAbortRequest_steps (c : AbortConfirmation) (now : Nat) (s : Store) {k : Column}
    (hk : k ∈ [Column.aborts, .control]) :
    k.Steps (k.get s) (k.get (confirmAbortRequest c now s).2) := by
  have h := (confirmRequest_records c now hk).commit s
  unfold confirmAbortRequest
  rcases hx : (confirmRequest c now).commit s with ⟨r, s'⟩
  rw [hx] at h
  cases r with
  | error e => exact h
  | ok control =>
    dsimp only
    split <;> exact h

end Aborts

section Outages

/-- The outage of the dependency that goes on, or a new one. -/
theorem outages_failed {s : Store} {f : DependencyFailure} {outage : Outage}
    (hdependency : outage.dependency = f.dependency)
    (hid : outage.outageId =
      ((s.outages.find? fun o => o.dependency == f.dependency && o.isOpen).map (·.outageId)).getD
        s.nextOutage) :
    Column.Steps .outages (s.outages, s.outageRuns, s.nextOutage)
      (s.outages.filter (·.dependency != f.dependency) ++ [outage], s.outageRuns,
        s.nextOutage + 1) := by
  rintro ⟨hkeys, hids, hruns⟩
  have hnext : outage.outageId ≤ s.nextOutage := by
    rw [hid]
    cases hfind : s.outages.find? fun o => o.dependency == f.dependency && o.isOpen with
    | none => exact le_rfl
    | some o => exact (hids o (List.mem_of_find?_eq_some hfind)).le
  refine ⟨⟨(hkeys.filter _).insert fun o ho hkey => ?_, fun o ho => ?_, hruns⟩,
    fun o ho => ?_, List.prefix_rfl, Nat.le_succ _⟩
  · have hother := (List.mem_filter.mp ho).2
    rw [hkey, hdependency] at hother
    simp at hother
  · rcases List.mem_append.mp ho with ho | ho
    · exact Nat.lt_succ_of_lt (hids o (List.mem_filter.mp ho).1)
    · rw [List.mem_singleton.mp ho]
      exact Nat.lt_succ_of_le hnext
  · by_cases hsame : o.dependency = f.dependency
    · refine ⟨outage, List.mem_append_right _ (List.mem_singleton_self _), ?_⟩
      cases hfind : s.outages.find? fun o => o.dependency == f.dependency && o.isOpen with
      | none =>
        rw [hfind] at hid
        have hlt := hids o ho
        refine ⟨hdependency.trans hsame.symm, ?_, fun _ heq => ?_⟩
        · rw [hid]
          exact hlt.le
        · rw [hid] at heq
          exact absurd heq hlt.ne'
      | some p =>
        rw [hfind] at hid
        have hp := List.find?_some hfind
        simp only [Bool.and_eq_true, beq_iff_eq] at hp
        have hop : o = p := hkeys.eq_of_key ho (List.mem_of_find?_eq_some hfind)
          (hsame.trans hp.1.symm)
        subst hop
        refine ⟨hdependency.trans hsame.symm, by rw [hid]; exact le_rfl, fun hclosed _ => ?_⟩
        rw [hp.2] at hclosed
        cases hclosed
    · refine ⟨o, List.mem_append_left _ (List.mem_filter.mpr ⟨ho, ?_⟩), .refl o⟩
      simpa using hsame

theorem recordDependencyFailure_records (f : DependencyFailure) (now : Nat) :
    (recordDependencyFailure f now).Records .outages := by
  intro s a s' h
  cases h
  exact outages_failed rfl rfl

theorem associateOutageRun_records (dependency : String) (outageId : Nat) (runKey : String) :
    (associateOutageRun dependency outageId runKey).Records .outages := by
  intro s a s' h
  unfold associateOutageRun at h
  split at h <;> cases h
  · exact .same rfl
  · next hnew =>
    rintro ⟨hkeys, hids, hruns⟩
    refine ⟨⟨hkeys, hids, List.nodup_append.mpr ⟨hruns, List.nodup_singleton _,
      fun p hp q hq => ?_⟩⟩, Carried.refl Outage.Continues.refl _, List.prefix_append _ _, le_rfl⟩
    rintro rfl
    rw [List.mem_singleton.mp hq] at hp
    exact hnew (List.contains_iff_mem.mpr hp)

theorem recoverDependency_records (dependency : String) :
    (recoverDependency dependency).Records .outages := by
  intro s a s' h
  unfold recoverDependency at h
  split at h <;> cases h
  · exact .same rfl
  · rintro ⟨hkeys, hids, hruns⟩
    refine ⟨⟨hkeys.update fun o _ => ?_, fun o ho => ?_, hruns⟩,
      Carried.update fun o _ => ?_, List.prefix_rfl, le_rfl⟩
    · split <;> rfl
    · obtain ⟨o₀, ho₀, rfl⟩ := List.mem_map.mp ho
      have hlt := hids o₀ ho₀
      split <;> exact hlt
    · split
      · exact ⟨rfl, le_rfl, fun _ _ => rfl⟩
      · exact .refl o

theorem enqueueReconcile_records (runKey reason : String) (eventId : Option Nat)
    (intentId : String) (now : Nat) :
    (enqueueReconcile runKey reason eventId intentId now).Records .intents := by
  intro s a s' h
  unfold enqueueReconcile at h
  split at h
  · cases h
  · split at h <;> cases h
    next rows hrows =>
    refine fun hk => ⟨hk.upsert hrows, ?_⟩
    unfold upsertIntent at hrows
    split at hrows
    · cases hrows
      refine Carried.update fun r _ => ?_
      split
      · exact ⟨rfl, rfl, rfl, by simp [ReconcileIntent.enqueued], Nat.le_succ _⟩
      · exact .refl r
    · split at hrows <;> cases hrows
      exact Carried.insert ReconcileIntent.Continues.refl _ _

end Outages

/-! ## One operation -/

/-- **Every operation steps in every table**, committed or rolled back. -/
theorem StoreOp.exec_steps (o : StoreOp) (now : Nat) (s : Store) (c : Column) :
    c.Steps (c.get s) (c.get (o.exec now s).2) := by
  by_cases hc : c ∈ o.writes
  · cases o <;> simp only [StoreOp.writes, List.mem_singleton, List.not_mem_nil] at hc
    case saveRun run => subst hc; exact (saveRun_records run).commit s
    case bindDelivery k b => subst hc; exact (bindDelivery_records k b).commit s
    case addManagedCard card => subst hc; exact (addManagedCard_records card).commit s
    case recordAttemptMetric r m => subst hc; exact (recordAttemptMetric_records r m).commit s
    case registerCardAttempt r => subst hc; exact (registerCardAttempt_records r).commit s
    case recordAttemptCompletion q =>
      subst hc
      exact (recordAttemptCompletion_records q now).commit s
    case recordCardRuntimeEvent e => exact (recordCardRuntimeEvent_records e hc).commit s
    case updateWorkerWatchdog u => exact updateWorkerWatchdog_steps u now s hc
    case ensureRunControl k => subst hc; exact (ensureRunControl_records k).commit s
    case transitionRun t => subst hc; exact (transitionRun_records t now).commit s
    case setRunException k r => subst hc; exact (setRunException_records k r now).commit s
    case markFlowCompleted k st h r =>
      subst hc
      exact (markFlowCompleted_records k st h r now).commit s
    case markCompleted k e q h m r =>
      subst hc
      exact (markCompleted_records k e q h m r now).commit s
    case markAborting k => subst hc; exact (markAborting_records k).commit s
    case finishAbort k m h q => subst hc; exact (finishAbort_records k m h q now).commit s
    case createAbortRequest row => subst hc; exact (createAbortRequest_records row now).commit s
    case confirmAbortRequest q => exact confirmAbortRequest_steps q now s hc
    case operationResult call => subst hc; exact (operationResult_records call now).commit s
    case finishOperation k r =>
      subst hc
      exact operations_modify fun row => { OperationRow.Continues.refl row with }
    case failOperation k e => subst hc; exact (closeOperation_records .failed k e).commit s
    case supersedeOperation k e => subst hc; exact (closeOperation_records .superseded k e).commit s
    case markOperationUncertain k e =>
      subst hc
      exact operations_modify fun row => { OperationRow.Continues.refl row with }
    case beginRequest k p => subst hc; exact (beginRequest_records k p).commit s
    case bindRequestRun k r => subst hc; exact (bindRequestRun_records k r).commit s
    case finishRequest k r =>
      subst hc
      exact requests_modify fun row => { RequestRow.Continues.refl row with }
    case failRequest k e =>
      subst hc
      exact requests_modify fun row => { RequestRow.Continues.refl row with }
    case enqueue row => subst hc; exact (enqueue_records row).commit s
    case setCursor b n => subst hc; exact (setCursor_records b n).commit s
    case recordDependencyFailure f =>
      subst hc
      exact (recordDependencyFailure_records f now).commit s
    case associateOutageRun d i k => subst hc; exact (associateOutageRun_records d i k).commit s
    case recoverDependency d => subst hc; exact (recoverDependency_records d).commit s
    case enqueueReconcile k r e i => subst hc; exact (enqueueReconcile_records k r e i now).commit s
  · exact .same (o.exec_get now s hc)

/-- The foreign keys of the tables. -/
structure Store.Referenced (s : Store) : Prop where
  bindings : ∀ b ∈ s.deliveryBindings, (s.runRecord b.1).isSome = true
  attempts : ∀ a ∈ s.cardAttempts, (s.runRecord a.runKey).isSome = true
  metrics : ∀ m ∈ s.attemptMetrics, ∃ a ∈ s.cardAttempts, a.runId = m.1
  intents : ∀ r ∈ s.intents, (s.runRecord r.runKey).isSome = true

section Referenced

variable {s s' : Store}

theorem runRecord_isSome_iff {runKey : String} :
    (s.runRecord runKey).isSome = true ↔ ∃ r ∈ s.runs, r.runKey = runKey := by
  simp [Store.runRecord]

theorem runRecord_prefix {runKey : String} (h : s.runs <+: s'.runs)
    (hrun : (s.runRecord runKey).isSome = true) : (s'.runRecord runKey).isSome = true := by
  obtain ⟨r, hr, hkey⟩ := runRecord_isSome_iff.mp hrun
  exact runRecord_isSome_iff.mpr ⟨r, h.subset hr, hkey⟩

/-- An attempt that was not there before is of a saved run. -/
def NewAttemptsSaved (s s' : Store) : Prop :=
  ∀ a' ∈ s'.cardAttempts, (∃ a ∈ s.cardAttempts, a'.runKey = a.runKey) ∨
    (s.runRecord a'.runKey).isSome = true

theorem linkRedispatch_runKeys (e : RuntimeEvent) (runId : String) (s : Store) :
    ∀ a' ∈ (linkRedispatch e runId s).cardAttempts, ∃ a ∈ s.cardAttempts, a'.runKey = a.runKey := by
  intro a' ha'
  unfold linkRedispatch at ha'
  split at ha'
  · split at ha'
    · obtain ⟨a, ha, rfl⟩ := List.mem_map.mp ha'
      exact ⟨a, ha, by split <;> rfl⟩
    · exact ⟨a', ha', rfl⟩
  · exact ⟨a', ha', rfl⟩

theorem recordAttempt_saved {e : RuntimeEvent} {runId : String} {u : Unit}
    (h : recordAttempt e runId s = .ok (u, s')) : NewAttemptsSaved s s' := by
  unfold recordAttempt at h
  split at h
  · cases h
  · split at h
    · split at h <;> cases h
      intro a' ha'
      obtain ⟨a, ha, hkey⟩ := linkRedispatch_runKeys e runId _ a' ha'
      obtain ⟨a₀, ha₀, rfl⟩ := List.mem_map.mp ha
      refine .inl ⟨a₀, ha₀, hkey.trans ?_⟩
      split <;> rfl
    · split at h <;> cases h
      next hrun =>
      intro a' ha'
      obtain ⟨a, ha, hkey⟩ := linkRedispatch_runKeys e runId _ a' ha'
      rcases List.mem_append.mp ha with ha | ha
      · exact .inl ⟨a, ha, hkey⟩
      · rw [List.mem_singleton.mp ha] at hkey
        rw [hkey, RuntimeEvent.firstAttempt]
        exact .inr (Option.isSome_iff_ne_none.mpr (by simpa using hrun))

theorem bindDelivery_bound {runKey : String} {binding : DeliveryBinding} {u : Unit}
    (h : bindDelivery runKey binding s = .ok (u, s')) :
    ∀ b ∈ s'.deliveryBindings, b ∈ s.deliveryBindings ∨ (s.runRecord b.1).isSome = true := by
  intro b hb
  unfold bindDelivery at h
  split at h
  · cases h
  · next run hrun =>
    split at h
    · split at h <;> cases h
      exact .inl hb
    · split at h <;> cases h
      rcases List.mem_append.mp hb with hb | hb
      · exact .inl hb
      · rw [List.mem_singleton.mp hb, hrun]
        exact .inr rfl

theorem recordAttemptMetric_counted {runId metric : String} {u : Unit}
    (h : recordAttemptMetric runId metric s = .ok (u, s')) :
    s'.cardAttempts = s.cardAttempts ∧ ∀ m ∈ s'.attemptMetrics, m ∈ s.attemptMetrics ∨
      ∃ a ∈ s.cardAttempts, a.runId = m.1 := by
  unfold recordAttemptMetric at h
  split at h <;> cases h
  next hany =>
  refine ⟨rfl, fun m hm => ?_⟩
  dsimp only at hm
  split at hm
  · exact .inl hm
  · rcases List.mem_append.mp hm with hm | hm
    · exact .inl hm
    · obtain ⟨a, ha, hid⟩ := List.any_eq_true.mp hany
      rw [List.mem_singleton.mp hm]
      exact .inr ⟨a, ha, beq_iff_eq.mp hid⟩

theorem enqueueReconcile_saved {runKey reason : String} {eventId : Option Nat} {intentId : String}
    {now : Nat} {u : Unit}
    (h : enqueueReconcile runKey reason eventId intentId now s = .ok (u, s')) :
    ∀ r ∈ s'.intents, r ∈ s.intents ∨ (s.runRecord r.runKey).isSome = true := by
  intro r hr
  unfold enqueueReconcile at h
  split at h
  · cases h
  · next run hrun =>
    split at h <;> cases h
    next rows hrows =>
    rcases upsertIntent_origin hrows hr with rfl | hr
    · exact .inr (hrun ▸ rfl)
    · exact .inl hr

theorem recordCardRuntimeEvent_saved {e : RuntimeEvent} {u : Unit}
    (h : recordCardRuntimeEvent e s = .ok (u, s')) : NewAttemptsSaved s s' := by
  unfold recordCardRuntimeEvent at h
  dsimp only at h
  split at h
  · cases h
    exact fun a ha => .inl ⟨a, ha, rfl⟩
  · split at h
    · cases h
    · next s₁ hs₁ =>
      have hsaved : NewAttemptsSaved s s₁ := by
        cases hr : e.runId with
        | none =>
          rw [hr] at hs₁
          cases hs₁
          exact fun a ha => .inl ⟨a, ha, rfl⟩
        | some runId =>
          rw [hr] at hs₁
          exact recordAttempt_saved hs₁
      split at h <;> cases h <;> exact hsaved

theorem updateWorkerWatchdog_saved (u : WatchdogUpdate) (now : Nat) (s : Store) :
    NewAttemptsSaved s (updateWorkerWatchdog u now s).2 := by
  have hattempts : ∀ a' ∈ (u.redispatch s).1, ∃ a ∈ s.cardAttempts, a'.runKey = a.runKey := by
    intro a' ha'
    unfold WatchdogUpdate.redispatch at ha'
    split at ha'
    · exact ⟨a', ha', rfl⟩
    · split at ha'
      · obtain ⟨a, ha, rfl⟩ := List.mem_map.mp ha'
        exact ⟨a, ha, by split <;> rfl⟩
      · exact ⟨a', ha', rfl⟩
  unfold updateWorkerWatchdog
  dsimp only
  split <;> exact fun a' ha' => .inl (hattempts a' ha')

theorem StoreOp.exec_saved (o : StoreOp) (now : Nat) (s : Store) :
    NewAttemptsSaved s (o.exec now s).2 := by
  have hsame : ∀ t : Store, t.cardAttempts = s.cardAttempts → NewAttemptsSaved s t :=
    fun t ht a ha => .inl ⟨a, ht ▸ ha, rfl⟩
  by_cases hw : Column.attempts ∈ o.writes
  · cases o <;> simp only [StoreOp.writes, List.mem_cons, List.not_mem_nil, reduceCtorEq,
      or_self, or_false] at hw
    case recordCardRuntimeEvent e =>
      rcases Txn.commit_cases (HollysysController.recordCardRuntimeEvent e) s with hs | ⟨u, hu⟩
      · exact hsame _ (congrArg Store.cardAttempts hs)
      · exact recordCardRuntimeEvent_saved hu
    case updateWorkerWatchdog u => exact updateWorkerWatchdog_saved u now s
  · exact hsame _ (o.exec_get (c := .attempts) now s hw)

/-- The foreign keys hold after an operation. -/
theorem Store.Referenced.exec (h : s.Referenced) (hk : ∀ c : Column, c.Keyed (c.get s))
    (o : StoreOp) (now : Nat) : (o.exec now s).2.Referenced := by
  have hruns : s.runs <+: (o.exec now s).2.runs := (o.exec_steps now s .runs (hk .runs)).2
  have hsaved : ∀ runKey, (s.runRecord runKey).isSome = true →
      ((o.exec now s).2.runRecord runKey).isSome = true := fun _ => runRecord_prefix hruns
  constructor
  · by_cases hw : Column.bindings ∈ o.writes
    · cases o <;> simp only [StoreOp.writes, List.mem_cons, List.not_mem_nil, reduceCtorEq,
        or_self, or_false] at hw
      case bindDelivery runKey binding =>
        rcases Txn.commit_cases (HollysysController.bindDelivery runKey binding) s with hs | ⟨u, hu⟩
        · exact fun b hb => hsaved _ (h.bindings b (congrArg Store.deliveryBindings hs ▸ hb))
        · intro b hb
          rcases bindDelivery_bound hu b hb with hb | hrun
          · exact hsaved _ (h.bindings b hb)
          · exact hsaved _ hrun
    · have hsame : (o.exec now s).2.deliveryBindings = s.deliveryBindings :=
        o.exec_get (c := .bindings) now s hw
      exact fun b hb => hsaved _ (h.bindings b (hsame ▸ hb))
  · intro a' ha'
    rcases o.exec_saved now s a' ha' with ⟨a, ha, hkey⟩ | hrun
    · exact hsaved _ (hkey ▸ h.attempts a ha)
    · exact hsaved _ hrun
  · have hattempts := (o.exec_steps now s .attempts (hk .attempts)).2
    have hkept : ∀ m : String × String, (∃ a ∈ s.cardAttempts, a.runId = m.1) →
        ∃ a ∈ (o.exec now s).2.cardAttempts, a.runId = m.1 := by
      rintro m ⟨a, ha, hid⟩
      obtain ⟨a', ha', hc⟩ := hattempts a ha
      exact ⟨a', ha', hc.runId.trans hid⟩
    by_cases hw : Column.metrics ∈ o.writes
    · cases o <;> simp only [StoreOp.writes, List.mem_cons, List.not_mem_nil, reduceCtorEq,
        or_self, or_false] at hw
      case recordAttemptMetric runId metric =>
        rcases Txn.commit_cases (HollysysController.recordAttemptMetric runId metric) s with
          hs | ⟨u, hu⟩
        · exact fun m hm => hkept m (h.metrics m (congrArg Store.attemptMetrics hs ▸ hm))
        · intro m hm
          rcases (recordAttemptMetric_counted hu).2 m hm with hm | hm
          · exact hkept m (h.metrics m hm)
          · exact hkept m hm
    · have hsame : (o.exec now s).2.attemptMetrics = s.attemptMetrics :=
        o.exec_get (c := .metrics) now s hw
      exact fun m hm => hkept m (h.metrics m (hsame ▸ hm))
  · by_cases hw : Column.intents ∈ o.writes
    · cases o <;> simp only [StoreOp.writes, List.mem_cons, List.not_mem_nil, reduceCtorEq,
        or_self, or_false] at hw
      case enqueueReconcile runKey reason eventId intentId =>
        rcases Txn.commit_cases
          (HollysysController.enqueueReconcile runKey reason eventId intentId now) s with
          hs | ⟨u, hu⟩
        · exact fun r hr => hsaved _ (h.intents r (congrArg Store.intents hs ▸ hr))
        · intro r hr
          rcases enqueueReconcile_saved hu r hr with hr | hrun
          · exact hsaved _ (h.intents r hr)
          · exact hsaved _ hrun
    · have hsame : (o.exec now s).2.intents = s.intents := o.exec_get (c := .intents) now s hw
      exact fun r hr => hsaved _ (h.intents r (hsame ▸ hr))

end Referenced

/-! ## Whole runs -/

/-- Every table is keyed, and the rows refer to rows that are there. -/
structure Store.WellKept (s : Store) : Prop where
  keyed : ∀ c : Column, c.Keyed (c.get s)
  referenced : s.Referenced

/-- Every table goes on from the one before. -/
def Store.Continues (s s' : Store) : Prop := ∀ c : Column, c.Continues (c.get s) (c.get s')

/-- The store is kept well, and goes on from an earlier one. -/
structure Store.Kept (s s' : Store) : Prop where
  well : s'.WellKept
  history : s.Continues s'

theorem Store.wellKept_empty : ({} : Store).WellKept where
  keyed c := by
    cases c with
    | cards | runs | bindings => exact ⟨.nil, .nil⟩
    | attempts => exact ⟨.nil, fun _ _ => rfl⟩
    | metrics => exact List.nodup_nil
    | outbox => exact .nil
    | outages => exact ⟨.nil, by simp [Column.get], List.nodup_nil⟩
    | intents => exact ⟨List.nodup_nil, List.nodup_nil⟩
    | aborts => exact ⟨.nil, fun _ => Nat.zero_le 1⟩
    | _ => trivial
  referenced := ⟨by simp, by simp, by simp, by simp⟩

theorem Store.Kept.exec {s s' : Store} (h : s.Kept s') (o : StoreOp) (now : Nat) :
    s.Kept (o.exec now s').2 where
  well :=
    { keyed := fun c => (o.exec_steps now s' c (h.well.keyed c)).1
      referenced := h.well.referenced.exec h.well.keyed o now }
  history c := (h.history c).trans (o.exec_steps now s' c (h.well.keyed c)).2

/-- An operation of the store, of any caller. -/
inductive StoreStep : Store → Store → Prop
  | op (s : Store) (o : StoreOp) (now : Nat) : StoreStep s (o.exec now s).2

/-- The others use the store as they like, the world around it changes, and an operation may
fail or be the last one before a stop. -/
def recording : Setting Op ControllerError World where
  others w w' := Relation.ReflTransGen StoreStep w.store w'.store
  faults _ _ _ := True

theorem Store.Kept.steps {s t t' : Store} (h : s.Kept t)
    (hs : Relation.ReflTransGen StoreStep t t') : s.Kept t' := by
  induction hs with
  | refl => exact h
  | tail _ hstep ih =>
    cases hstep with
    | op o now => exact ih.exec o now

/-- A program runs against the store, to its end or up to a stop. -/
inductive Conducts : World → World → Prop
  | program {α : Type} (p : Service α) {w w' : World} {r : Durable.Outcome ControllerError α}
      (h : Runs machine recording p w r w') : Conducts w w'

theorem Conducts.kept {s : Store} {w w' : World} (h : s.Kept w.store) (hc : Conducts w w') :
    s.Kept w'.store := by
  cases hc with
  | program p hr =>
    refine hr.sound (wp_invariant (I := fun v : World => s.Kept v.store) (φ := fun _ => True)
      (fun _ _ hv ho => hv.steps ho) (fun o v _ hv => ?_) (Prog.uses_all p) h)
    cases o with
    | store o => exact hv.exec o v.now
    | hermes o => exact hv
    | gitlab o => exact hv
    | host o => exact hv

theorem conducts_kept {s : Store} {w w' : World} (h : s.Kept w.store)
    (hc : Relation.ReflTransGen Conducts w w') : s.Kept w'.store := by
  induction hc with
  | refl => exact h
  | tail _ hstep ih => exact hstep.kept ih

theorem served_conducts (calls : List Call) (w : World) :
    Relation.ReflTransGen Conducts w (served calls w) := by
  induction calls generalizing w with
  | nil => exact .refl
  | cons c cs ih =>
    have hc : Conducts w (machine.replay (c.run sampleConfig) [] w).2 :=
      .program _ (replay_runs (fun _ => Relation.ReflTransGen.refl) (fun _ _ _ => trivial) _ [] w)
    exact .head hc (ih _)

end HollysysController
