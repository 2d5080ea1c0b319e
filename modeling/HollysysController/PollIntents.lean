import HollysysController.Durable.Trace
import HollysysController.Durable.Triple
import HollysysController.Traversal

/-! # What a poll owes

A poll moves the cursor of a board past an event before it enqueues the run of
the event. This module says what is lost between the two. -/

namespace HollysysController

open Durable

/-- An event after which the run of its work card is to be reconciled. -/
structure Calls (cards : Store) (e : EventRecord) (runKey : String) : Prop where
  terminal : terminalEventKinds.contains e.kind = true
  card : ∃ m, cards.managedCard e.board e.taskId = some m ∧ m.purpose = .work ∧
    m.runKey = runKey

def cursorOf (s : Store) (board : String) : Nat := (s.cursors board).getD 0

/-- The run has an intent for the event or a later one. -/
def HasIntent (s : Store) (runKey : String) (eventId : Nat) : Prop :=
  ∃ r ∈ s.intents, r.runKey = runKey ∧ eventId ≤ r.eventId.getD 0

/-- Every event at or below a cursor has the intent it calls for. -/
def NoReconcileLost (w : World) : Prop :=
  ∀ e ∈ w.hermes.events, ∀ runKey, Calls w.store e runKey →
    e.id ≤ cursorOf w.store e.board → HasIntent w.store runKey e.id

/-- The operations by which a poll makes progress. -/
def isProgress : Op → Bool
  | .store (.setCursor _ _) | .store (.enqueueReconcile _ _ _ _) => true
  | _ => false

/-- The poll committed `set_cursor` for the event. -/
def Passed (done : List Op) (e : EventRecord) : Prop :=
  Op.store (.setCursor e.board e.id) ∈ done

/-- The poll committed an `enqueue_reconcile` of the run. -/
def Enqueues (done : List Op) (runKey : String) : Prop :=
  ∃ reason eventId intentId, Op.store (.enqueueReconcile runKey reason eventId intentId) ∈ done

/-- The poll was not cut between the two for an event that had no intent yet. -/
def EnqueuesWhatItPassed (w w' : World) (done : List Op) : Prop :=
  ∀ e ∈ w'.hermes.events, ∀ runKey, Calls w.store e runKey → Passed done e →
    HasIntent w.store runKey e.id ∨ Enqueues done runKey

/-! ## The log only grows -/

/-- The log goes on with new events. -/
structure LogGrows (h h' : Hermes) : Prop where
  next : h.nextEvent ≤ h'.nextEvent
  events : ∃ new, h'.events = h.events ++ new ∧ new.Pairwise (·.id < ·.id) ∧
    ∀ e ∈ new, h.nextEvent ≤ e.id ∧ e.id < h'.nextEvent

namespace LogGrows

variable {h h' h'' : Hermes}

theorem of_eq (hn : h'.nextEvent = h.nextEvent) (he : h'.events = h.events) : LogGrows h h' :=
  ⟨hn.ge, [], by simp [he], List.Pairwise.nil, by simp⟩

theorem trans (h₁ : LogGrows h h') (h₂ : LogGrows h' h'') : LogGrows h h'' := by
  obtain ⟨new₁, he₁, hp₁, hb₁⟩ := h₁.events
  obtain ⟨new₂, he₂, hp₂, hb₂⟩ := h₂.events
  have hn₁ := h₁.next
  have hn₂ := h₂.next
  refine ⟨hn₁.trans hn₂, new₁ ++ new₂, by rw [he₂, he₁, List.append_assoc], ?_, ?_⟩
  · refine List.pairwise_append.mpr ⟨hp₁, hp₂, fun a ha b hb => ?_⟩
    have := (hb₁ a ha).2
    have := (hb₂ b hb).1
    omega
  · intro e he
    rcases List.mem_append.mp he with he | he
    · have := hb₁ e he
      omega
    · have := hb₂ e he
      omega

theorem refl (h : Hermes) : LogGrows h h := of_eq rfl rfl

theorem appendEvent (h : Hermes) (board : String) (id : CardId) (kind : String) (now : Nat)
    (runId : Option Nat) (payload : Option EventPayload) :
    LogGrows h (h.appendEvent board id kind now runId payload) where
  next := Nat.le_succ _
  events := ⟨_, rfl, List.pairwise_singleton _ _, by simp [Hermes.appendEvent]⟩

end LogGrows

theorem command_log {α : Type} {c : Command α} {h : Hermes}
    (hc : ∀ a h', c h = .ok (a, h') → LogGrows h h') : LogGrows h (c.commit h).2 := by
  unfold Command.commit
  split
  · exact hc _ _ ‹_›
  · exact .of_eq rfl rfl

theorem HermesOp.exec_log (o : HermesOp) (now : Nat) (h : Hermes) :
    LogGrows h (o.exec now h).2 := by
  cases o <;> simp only [HermesOp.exec]
  case task | taskByIdempotency | eventsAfter => exact .of_eq rfl rfl
  all_goals
    refine command_log fun a h' hc => ?_
    simp only [Hermes.create, Hermes.promote, Hermes.complete, Hermes.specify, Hermes.comment,
      Hermes.reclaim, Hermes.archive] at hc
    repeat' split at hc
    all_goals cases hc
  all_goals first
    | exact .of_eq rfl rfl
    | exact (LogGrows.of_eq (by rfl) (by rfl)).trans (.appendEvent _ _ _ _ _ _ _)
    | exact ((LogGrows.of_eq (by rfl) (by rfl)).trans (.appendEvent _ _ _ _ _ _ _)).trans
        (.appendEvent _ _ _ _ _ _ _)

/-- Cards, cursors and the events of the intents are the same, and the log has only
grown. -/
structure SameBooks (w w' : World) : Prop where
  cards : w'.store.managedCards = w.store.managedCards
  intents : ∀ k n, HasIntent w'.store k n ↔ HasIntent w.store k n
  cursors : w'.store.cursors = w.store.cursors
  log : LogGrows w.hermes w'.hermes

theorem SameBooks.refl (w : World) : SameBooks w w :=
  ⟨rfl, fun _ _ => .rfl, rfl, .refl _⟩

theorem SameBooks.trans {w w' w'' : World} (h : SameBooks w w') (h' : SameBooks w' w'') :
    SameBooks w w'' :=
  ⟨h'.cards.trans h.cards, fun k n => (h'.intents k n).trans (h.intents k n),
    h'.cursors.trans h.cursors, h.log.trans h'.log⟩

/-- Nobody else polls or enqueues; the log may grow and intents may be claimed and
finished at any time, and anything may fail or stop. -/
def pollSetting : Setting Op ControllerError World where
  others := SameBooks
  faults _ _ _ := True

abbrev pollMachine : Machine Op Op.Ret ControllerError (World × List Op) :=
  machine.traced isProgress

abbrev polling : Setting Op ControllerError (World × List Op) := pollSetting.traced

/-- The events of a log: the ids of a board grow. -/
structure LogOrdered (h : Hermes) : Prop where
  increasing : h.events.Pairwise fun a b => a.board = b.board → a.id < b.id
  below : ∀ e ∈ h.events, e.id < h.nextEvent

/-- What holds of every world a poll starts from: the event ids of a board grow, the
cursors stay behind them, and the cards of a run are on one board. -/
structure PollReady (w : World) : Prop where
  ordered : LogOrdered w.hermes
  behind : ∀ board, cursorOf w.store board < w.hermes.nextEvent
  oneBoard : ∀ m ∈ w.store.managedCards, ∀ m' ∈ w.store.managedCards,
    m.runKey = m'.runKey → m.board = m'.board

/-- The events of a board are told apart by their ids. -/
theorem LogOrdered.eq_of_id {h : Hermes} (ho : LogOrdered h) {x y : EventRecord}
    (hx : x ∈ h.events) (hy : y ∈ h.events) (hb : x.board = y.board) (hid : x.id = y.id) :
    x = y := by
  have hp := ho.increasing
  generalize h.events = es at hx hy hp
  induction es with
  | nil => cases hx
  | cons e es ih =>
    obtain ⟨hhead, htail⟩ := List.pairwise_cons.mp hp
    rcases List.mem_cons.mp hx with rfl | hx' <;> rcases List.mem_cons.mp hy with rfl | hy'
    · rfl
    · have := hhead y hy' hb
      omega
    · have := hhead x hx' hb.symm
      omega
    · exact ih hx' hy' htail

theorem LogGrows.ordered {h h' : Hermes} (hg : LogGrows h h') (ho : LogOrdered h) :
    LogOrdered h' := by
  obtain ⟨new, he, hp, hb⟩ := hg.events
  have hn := hg.next
  constructor
  · rw [he]
    refine List.pairwise_append.mpr ⟨ho.increasing, ?_, fun a ha b hb' _ => ?_⟩
    · refine List.Pairwise.imp ?_ hp
      exact fun h _ => h
    · exact (ho.below a ha).trans_le (hb b hb').1
  · intro e hmem
    rw [he] at hmem
    rcases List.mem_append.mp hmem with hold | hnew
    · exact (ho.below e hold).trans_le hn
    · exact (hb e hnew).2

theorem LogGrows.mem {h h' : Hermes} (hg : LogGrows h h') {e : EventRecord} (he : e ∈ h.events) :
    e ∈ h'.events := by
  obtain ⟨new, heq, -⟩ := hg.events
  rw [heq]
  exact List.mem_append_left _ he

/-- An event below the next id of the old log is an old event. -/
theorem LogGrows.old {h h' : Hermes} (hg : LogGrows h h') {e : EventRecord}
    (he : e ∈ h'.events) (hid : e.id < h.nextEvent) : e ∈ h.events := by
  obtain ⟨new, heq, -, hb⟩ := hg.events
  rw [heq] at he
  rcases List.mem_append.mp he with hold | hnew
  · exact hold
  · have := (hb e hnew).1
    omega

/-! ## Recording an event -/

/-- Recording leaves the books and the notes alone. -/
def Recorded (s₀ s : World × List Op) : Prop := SameBooks s₀.1 s.1 ∧ s.2 = s₀.2

section Record

variable {s₀ : World × List Op}

theorem Recorded.others {s s' : World × List Op} (h : Recorded s₀ s) (ho : polling.others s s') :
    Recorded s₀ s' :=
  ⟨h.1.trans ho.1, ho.2.trans h.2⟩

theorem recorded_op {o : Op} (ho : isProgress o = false)
    (hop : ∀ w, SameBooks w (machine.exec o w).2) :
    Keeps pollMachine polling (Recorded s₀) (Prog.op o : Service o.Ret) := by
  refine keeps_op (fun _ _ => Recorded.others) fun s h => ?_
  rw [exec_unwatched ho]
  exact ⟨h.1.trans (hop s.1), h.2⟩

theorem recorded_store {o : StoreOp} (hp : isProgress (.store o) = false)
    (ho : ∀ c ∈ [Column.cards, .intents, .cursors], c ∉ o.writes) :
    Keeps pollMachine polling (Recorded s₀) (store o) := by
  refine recorded_op hp fun w => ⟨?_, fun k n => ?_, ?_, .refl _⟩
  · exact o.exec_get (c := .cards) w.now w.store (ho _ (by simp))
  · have hintents := o.exec_get (c := .intents) w.now w.store (ho _ (by simp))
    simp only [Column.get] at hintents
    simp only [HasIntent, exec_store, hintents]
  · exact o.exec_get (c := .cursors) w.now w.store (ho _ (by simp))

theorem recorded_hermes (o : HermesOp) : Keeps pollMachine polling (Recorded s₀) (hermes o) :=
  recorded_op rfl fun w => ⟨rfl, fun _ _ => .rfl, rfl, o.exec_log w.now w.hermes⟩

theorem plain_recorded :
    Plain (fun {α} (p : Service α) => Keeps pollMachine polling (Recorded s₀) p) where
  toClosed := closed_keeps
  store o ho := recorded_store (by cases o <;> first | rfl | cases ho) fun c hc => by
    cases o <;> simp_all [StoreOp.writes, StoreOp.isPlain] <;> rcases hc with rfl | rfl | rfl <;>
      simp
  hermes o _ := recorded_hermes o
  gitlab o := recorded_op rfl fun w => ⟨rfl, fun _ _ => .rfl, rfl, .refl _⟩
  host o := recorded_op rfl fun w => by rw [exec_host]; exact .refl w

theorem recordAgentLifecycleEvent_recorded (cfg : Config) (managed : ManagedCard)
    (event : EventRecord) :
    Keeps pollMachine polling (Recorded s₀) (recordAgentLifecycleEvent cfg managed event) := by
  have plain : Plain (fun {α} (p : Service α) => Keeps pollMachine polling (Recorded s₀) p) :=
    plain_recorded
  have hrecord : ∀ e, Keeps pollMachine polling (Recorded s₀)
      (store (.recordCardRuntimeEvent e)) := fun e => recorded_store rfl fun c hc => by
    simp only [List.mem_cons, List.not_mem_nil, or_false] at hc
    rcases hc with rfl | rfl | rfl <;> simp [StoreOp.writes]
  have hnotice := plain.enqueueLifecycleNotice cfg managed
  unfold recordAgentLifecycleEvent
  split
  · exact plain.pure _
  · refine plain.bind (hrecord _) fun _ => ?_
    dsimp only
    split
    · refine plain.bind (plain.recordProviderTempfailExit cfg managed event _
        (fun _ => recorded_hermes _) fun _ _ => hrecord _) fun _ => ?_
      split
      · exact plain.pure _
      · exact hnotice _
    · split
      · exact plain.pure _
      · exact hnotice _

end Record

/-! ## Collecting -/

/-- While the events are collected nothing is enqueued, and the notes tell how far
the cursors have come. -/
structure Collecting (w₀ : World) (s : World × List Op) : Prop where
  cards : s.1.store.managedCards = w₀.store.managedCards
  intents : ∀ k n, HasIntent s.1.store k n ↔ HasIntent w₀.store k n
  log : LogGrows w₀.hermes s.1.hermes
  behind : ∀ board, cursorOf s.1.store board < s.1.hermes.nextEvent
  reached : ∀ board n, Op.store (.setCursor board n) ∈ s.2 → n ≤ cursorOf s.1.store board
  passed : ∀ e ∈ s.1.hermes.events, e.id ≤ cursorOf s.1.store e.board →
    e.id ≤ cursorOf w₀.store e.board ∨ Passed s.2 e
  quiet : ∀ runKey, ¬ Enqueues s.2 runKey

/-- The events of a board that are still to be read. -/
structure Fetched (board : String) (es : List EventRecord) (s : World × List Op) : Prop where
  mem : ∀ x ∈ es, x ∈ s.1.hermes.events ∧ x.board = board ∧ cursorOf s.1.store board < x.id
  sorted : es.Pairwise (·.id < ·.id)
  next : ∀ e ∈ s.1.hermes.events, e.board = board → cursorOf s.1.store board < e.id →
    e ∈ es ∨ ∀ x ∈ es, x.id < e.id

/-- The answer of a part of the collection: it lists the events that were passed, in
their order. -/
structure Gathers (w₀ : World) (l : List (String × Nat × String)) (s s' : World × List Op) :
    Prop where
  log : LogGrows s.1.hermes s'.1.hermes
  forward : ∀ board, cursorOf s.1.store board ≤ cursorOf s'.1.store board
  lists : ∀ e ∈ s'.1.hermes.events, ∀ runKey, Calls w₀.store e runKey → Passed s'.2 e →
    Passed s.2 e ∨ ∃ reason, (runKey, e.id, reason) ∈ l
  between : ∀ x ∈ l, ∃ m ∈ w₀.store.managedCards, m.runKey = x.1 ∧
    cursorOf s.1.store m.board < x.2.1 ∧ x.2.1 ≤ cursorOf s'.1.store m.board
  ordered : l.Pairwise fun a b => a.1 = b.1 → a.2.1 < b.2.1

theorem SameBooks.cursorOf {w w' : World} (h : SameBooks w w') (board : String) :
    cursorOf w'.store board = cursorOf w.store board := by
  simp only [HollysysController.cursorOf, h.cursors]

/-- The effect of `set_cursor`. -/
def atCursor (s : World × List Op) (board : String) (n : Nat) : World × List Op :=
  ({ s.1 with store := { s.1.store with
      cursors := s.1.store.cursors.put board (max (cursorOf s.1.store board) n) } },
    s.2 ++ [Op.store (.setCursor board n)])

theorem exec_setCursor (s : World × List Op) (board : String) (n : Nat) :
    pollMachine.exec (.store (.setCursor board n)) s = (.ok (), atCursor s board n) := rfl

theorem cursorOf_atCursor (s : World × List Op) (board board' : String) (n : Nat) :
    cursorOf (atCursor s board n).1.store board' =
      if board' = board then max (cursorOf s.1.store board) n else cursorOf s.1.store board' := by
  simp only [cursorOf, atCursor, Table.put_apply]
  split <;> rfl

theorem passed_atCursor {s : World × List Op} {board : String} {n : Nat} {e : EventRecord} :
    Passed (atCursor s board n).2 e ↔ Passed s.2 e ∨ e.board = board ∧ e.id = n := by
  simp [Passed, atCursor]

section Collect

variable {w₀ : World} {s s' s'' : World × List Op} {board : String}

namespace Collecting

theorem recorded (h : Collecting w₀ s) (hr : Recorded s s') : Collecting w₀ s' where
  cards := hr.1.cards.trans h.cards
  intents k n := (hr.1.intents k n).trans (h.intents k n)
  log := h.log.trans hr.1.log
  behind b := by
    rw [hr.1.cursorOf]
    exact (h.behind b).trans_le hr.1.log.next
  reached b n hn := by
    rw [hr.1.cursorOf]
    exact h.reached b n (hr.2 ▸ hn)
  passed e he hid := by
    rw [hr.1.cursorOf] at hid
    have hold := hr.1.log.old he (hid.trans_lt (h.behind _))
    rw [hr.2]
    exact h.passed e hold hid
  quiet k := by rw [hr.2]; exact h.quiet k

/-- The cursor moves to the next event. -/
theorem setCursor {e : EventRecord} {es : List EventRecord} (h : Collecting w₀ s)
    (ho : LogOrdered s.1.hermes) (hf : Fetched board (e :: es) s) :
    Collecting w₀ (atCursor s board e.id) where
  cards := h.cards
  intents := h.intents
  log := h.log
  behind b := by
    rw [cursorOf_atCursor]
    split
    · exact max_lt (h.behind board) (ho.below e (hf.mem e (by simp)).1)
    · exact h.behind b
  reached b n hn := by
    rw [cursorOf_atCursor]
    simp only [atCursor, List.mem_append, List.mem_singleton, Op.store.injEq,
      StoreOp.setCursor.injEq] at hn
    split
    · next hb =>
      rcases hn with hn | ⟨-, rfl⟩
      · exact (hb ▸ h.reached b n hn).trans (le_max_left _ _)
      · exact le_max_right _ _
    · next hb =>
      rcases hn with hn | ⟨rfl, -⟩
      · exact h.reached b n hn
      · exact absurd rfl hb
  passed x hx hid := by
    rw [passed_atCursor]
    rw [cursorOf_atCursor] at hid
    by_cases hold : x.id ≤ cursorOf s.1.store x.board
    · exact (h.passed x hx hold).imp_right .inl
    · split at hid
      · next hb =>
        -- between the old cursor and the next event there is no event
        have hle : x.id ≤ e.id := by
          rw [hb] at hold
          omega
        rcases hf.next x hx hb (by rw [← hb]; omega) with hmem | hlt
        · rcases List.mem_cons.mp hmem with rfl | hmem
          · exact .inr (.inr ⟨hb, rfl⟩)
          · have := List.rel_of_pairwise_cons hf.sorted hmem
            omega
        · have := hlt e (by simp)
          omega
      · exact absurd hid hold
  quiet k := by
    rintro ⟨reason, eventId, intentId, hmem⟩
    simp only [atCursor, List.mem_append, List.mem_singleton, Op.store.injEq, reduceCtorEq,
      or_false] at hmem
    exact h.quiet k ⟨reason, eventId, intentId, hmem⟩

end Collecting

namespace Fetched

variable {es : List EventRecord}

theorem recorded (h : Fetched board es s) (ho : LogOrdered s.1.hermes) (hr : Recorded s s') :
    Fetched board es s' where
  mem x hx := by
    obtain ⟨hmem, hb, hid⟩ := h.mem x hx
    exact ⟨hr.1.log.mem hmem, hb, by rwa [hr.1.cursorOf]⟩
  sorted := h.sorted
  next e he hb hid := by
    rw [hr.1.cursorOf] at hid
    by_cases hnew : e.id < s.1.hermes.nextEvent
    · exact h.next e (hr.1.log.old he hnew) hb hid
    · refine .inr fun x hx => ?_
      have := ho.below x (h.mem x hx).1
      omega

theorem tail {e : EventRecord} (h : Fetched board (e :: es) s) :
    Fetched board es (atCursor s board e.id) := by
  have hcursor : cursorOf (atCursor s board e.id).1.store board = e.id := by
    rw [cursorOf_atCursor, if_pos rfl, max_eq_right (h.mem e (by simp)).2.2.le]
  constructor
  · intro x hx
    obtain ⟨hmem, hb, -⟩ := h.mem x (by simp [hx])
    exact ⟨hmem, hb, by rw [hcursor]; exact List.rel_of_pairwise_cons h.sorted hx⟩
  · exact h.sorted.of_cons
  · intro x hx hb hid
    rw [hcursor] at hid
    rcases h.next x hx hb ((h.mem e (by simp)).2.2.trans hid) with hmem | hlt
    · rcases List.mem_cons.mp hmem with rfl | hmem
      · exact absurd hid (lt_irrefl _)
      · exact .inl hmem
    · exact .inr fun y hy => hlt y (by simp [hy])

theorem of_eventsAfter (ho : LogOrdered s.1.hermes) (limit : Nat) :
    Fetched board (s.1.hermes.eventsAfter board (cursorOf s.1.store board) limit) s := by
  have hsorted : (s.1.hermes.events.filter fun e =>
      e.board == board && decide (cursorOf s.1.store board < e.id)).Pairwise (·.id < ·.id) := by
    refine (ho.increasing.filter _).imp_of_mem fun ha hb h => h ?_
    simp only [List.mem_filter, Bool.and_eq_true, beq_iff_eq] at ha hb
    rw [ha.2.1, hb.2.1]
  refine ⟨fun x hx => ?_, hsorted.sublist (List.take_sublist _ _), fun e he hb hid => ?_⟩
  · have hx := List.mem_of_mem_take hx
    simpa using hx
  · have he : e ∈ s.1.hermes.events.filter fun e =>
        e.board == board && decide (cursorOf s.1.store board < e.id) := by simp [he, hb, hid]
    rw [← List.take_append_drop limit (List.filter _ _)] at he hsorted
    rcases List.mem_append.mp he with he | he
    · exact .inl he
    · exact .inr fun x hx => (List.pairwise_append.mp hsorted).2.2 x hx e he

end Fetched

/-- What the loop adds to the answer for one event. -/
def entriesOf (managed : Option ManagedCard) (e : EventRecord) : List (String × Nat × String) :=
  match managed with
  | some m => if terminalEventKinds.contains e.kind then
      [(m.runKey, e.id, s!"kanban:{e.kind}")] else []
  | none => []

theorem mem_entriesOf {managed : Option ManagedCard} {e : EventRecord}
    {x : String × Nat × String} (h : x ∈ entriesOf managed e) :
    ∃ m, managed = some m ∧ x.1 = m.runKey ∧ x.2.1 = e.id := by
  unfold entriesOf at h
  split at h
  · split at h
    · rw [List.mem_singleton] at h
      exact ⟨_, rfl, by rw [h], by rw [h]⟩
    · cases h
  · cases h

theorem managedCard_mem {s : Store} {board : String} {id : CardId} {m : ManagedCard}
    (h : s.managedCard board id = some m) : m ∈ s.managedCards ∧ m.board = board := by
  have hb := List.find?_some h
  simp only [Bool.and_eq_true, beq_iff_eq] at hb
  exact ⟨List.mem_of_find?_eq_some h, hb.1⟩

namespace Gathers

variable {l l' : List (String × Nat × String)}

theorem recorded (h : Recorded s s') : Gathers w₀ [] s s' where
  log := h.1.log
  forward b := (h.1.cursorOf b).ge
  lists e _ k _ hp := .inl (by rw [h.2] at hp; exact hp)
  between := by simp
  ordered := .nil

theorem trans (h : Gathers w₀ l s s') (h' : Gathers w₀ l' s' s'') (hone : PollReady w₀)
    (hc : Collecting w₀ s') : Gathers w₀ (l ++ l') s s'' where
  log := h.log.trans h'.log
  forward b := (h.forward b).trans (h'.forward b)
  lists e he k hk hp := by
    rcases h'.lists e he k hk hp with hp | ⟨reason, hmem⟩
    · have hold := h'.log.old he ((hc.reached _ _ hp).trans_lt (hc.behind _))
      refine (h.lists e hold k hk hp).imp_right fun ⟨reason, hmem⟩ => ⟨reason, ?_⟩
      exact List.mem_append_left _ hmem
    · exact .inr ⟨reason, List.mem_append_right _ hmem⟩
  between x hx := by
    rcases List.mem_append.mp hx with hx | hx
    · obtain ⟨m, hm, hk, hlo, hhi⟩ := h.between x hx
      exact ⟨m, hm, hk, hlo, hhi.trans (h'.forward _)⟩
    · obtain ⟨m, hm, hk, hlo, hhi⟩ := h'.between x hx
      exact ⟨m, hm, hk, (h.forward _).trans_lt hlo, hhi⟩
  ordered := by
    refine List.pairwise_append.mpr ⟨h.ordered, h'.ordered, fun x hx y hy hxy => ?_⟩
    obtain ⟨m, hm, hk, -, hhi⟩ := h.between x hx
    obtain ⟨m', hm', hk', hlo, -⟩ := h'.between y hy
    rw [← hone.oneBoard m hm m' hm' (by rw [hk, hk', hxy])] at hlo
    omega

/-- Moving the cursor past an event gathers the run of its card. -/
theorem setCursor {e : EventRecord} {es : List EventRecord} (ho : LogOrdered s.1.hermes)
    (hf : Fetched board (e :: es) s) :
    Gathers w₀ (entriesOf (w₀.store.managedCard board e.taskId) e) s (atCursor s board e.id) where
  log := .refl _
  forward b := by
    rw [cursorOf_atCursor]
    split
    · next hb => exact hb ▸ le_max_left _ _
    · exact le_rfl
  lists x hx k hk hp := by
    refine (passed_atCursor.mp hp).imp_right fun ⟨hb, hid⟩ => ?_
    obtain ⟨hmem, hb', -⟩ := hf.mem e (by simp)
    obtain rfl : x = e := ho.eq_of_id hx hmem (hb.trans hb'.symm) hid
    obtain ⟨m, hm, -, hrun⟩ := hk.card
    rw [hb] at hm
    refine ⟨s!"kanban:{x.kind}", ?_⟩
    simp only [entriesOf, hm, hk.terminal, if_true, hrun, List.mem_singleton]
  between x hx := by
    obtain ⟨m, hm, hk, hid⟩ := mem_entriesOf hx
    obtain ⟨hmem, hb⟩ := managedCard_mem hm
    refine ⟨m, hmem, hk.symm, ?_, ?_⟩
    · rw [hid, hb]
      exact (hf.mem e (by simp)).2.2
    · rw [hid, hb, cursorOf_atCursor, if_pos rfl]
      exact le_max_right _ _
  ordered := by
    unfold entriesOf
    split
    · split
      · exact List.pairwise_singleton _ _
      · exact .nil
    · exact .nil

end Gathers

/-! ## The programs of the collection -/

theorem Collecting.ordered (h : Collecting w₀ s) (hready : PollReady w₀) :
    LogOrdered s.1.hermes :=
  h.log.ordered hready.ordered

/-- A part of a poll that only records. -/
theorem Collecting.ensures {α : Type} {p : Service α} (h : Collecting w₀ s)
    (hp : Keeps pollMachine polling (Recorded s) p) :
    Ensures pollMachine polling (Collecting w₀) p (fun _ s' => Recorded s s') s :=
  hp.ensures ⟨.refl _, rfl⟩ fun _ => h.recorded

/-- A read tells the books as they are. -/
theorem Collecting.ensures_read {o : Op} {Q : o.Ret → World → Prop} (h : Collecting w₀ s)
    (ho : isProgress o = false) (hread : ∀ w, (machine.exec o w).2 = w)
    (hanswer : ∀ w a, (machine.exec o w).1 = .ok a → Q a w) :
    Ensures pollMachine polling (Collecting w₀) (Prog.op o)
      (fun a s' => Recorded s s' ∧ Q a s'.1) s := by
  have hrec : ∀ s₁, polling.others s s₁ → Recorded s s₁ := fun s₁ hm => ⟨hm.1, hm.2⟩
  refine .op (fun s₁ hm => h.recorded (hrec s₁ hm)) (fun s₁ hm => ?_) fun s₁ a s₂ hm hx => ?_
  · rw [exec_unwatched ho, hread]
    exact h.recorded (hrec s₁ hm)
  · have hs₂ : s₂ = s₁ := by
      have h₂ := exec_unwatched (M := machine) ho s₁
      rwa [hx, hread] at h₂
    obtain ⟨done, hd⟩ := exec_traced machine isProgress o s₁
    rw [hx, Prod.mk.injEq] at hd
    rw [hs₂]
    exact ⟨hrec s₁ hm, hanswer s₁.1 a hd.1.symm⟩

theorem Recorded.trans (h : Recorded s s') (h' : Recorded s' s'') : Recorded s s'' :=
  ⟨h.1.trans h'.1, h'.2.trans h.2⟩

/-- `set_cursor`, once the event is recorded. -/
theorem setCursor_gathers (hready : PollReady w₀) {e : EventRecord} {es : List EventRecord}
    {managed : Option ManagedCard} (hm : managed = w₀.store.managedCard board e.taskId)
    (hc : Collecting w₀ s) (hf : Fetched board (e :: es) s) (hr : Recorded s s') :
    Ensures pollMachine polling (Collecting w₀) (store (.setCursor board e.id))
      (fun _ s₃ => Gathers w₀ (entriesOf managed e) s s₃ ∧ Fetched board es s₃) s' := by
  have hready₂ : ∀ s₂, polling.others s' s₂ →
      Recorded s s₂ ∧ Collecting w₀ s₂ ∧ Fetched board (e :: es) s₂ := fun s₂ hmove => by
    have hr₂ : Recorded s s₂ := hr.others hmove
    exact ⟨hr₂, hc.recorded hr₂, hf.recorded (hc.ordered hready) hr₂⟩
  refine .op (fun s₂ hmove => (hready₂ s₂ hmove).2.1) (fun s₂ hmove => ?_)
    fun s₂ a s₃ hmove hx => ?_
  · obtain ⟨-, hc₂, hf₂⟩ := hready₂ s₂ hmove
    exact hc₂.setCursor (hc₂.ordered hready) hf₂
  · obtain ⟨hr₂, hc₂, hf₂⟩ := hready₂ s₂ hmove
    rw [exec_setCursor] at hx
    cases hx
    subst hm
    refine ⟨?_, hf₂.tail⟩
    exact (Gathers.recorded hr₂).trans (.setCursor (hc₂.ordered hready) hf₂) hready hc₂

theorem pollEventList_gathers (cfg : Config) (hready : PollReady w₀) (board : String)
    (es : List EventRecord) (s : World × List Op) (hc : Collecting w₀ s)
    (hf : Fetched board es s) :
    Ensures pollMachine polling (Collecting w₀) (pollEventList cfg board es)
      (fun l s' => Gathers w₀ l s s') s := by
  induction es generalizing s with
  | nil => exact .pure hc (.recorded ⟨.refl _, rfl⟩)
  | cons e es ih =>
    unfold pollEventList
    refine .bind (hc.ensures_read
      (Q := fun managed w => managed = w.store.managedCard board e.taskId)
      rfl (fun _ => rfl) fun w a h => by cases h; rfl) fun managed s₁ hc₁ ⟨hr₁, hm⟩ => ?_
    have hm₀ : managed = w₀.store.managedCard board e.taskId := by
      rw [hm, Store.managedCard, hc₁.cards, Store.managedCard]
    have hrest : ∀ s₂, Collecting w₀ s₂ →
        Gathers w₀ (entriesOf managed e) s s₂ ∧ Fetched board es s₂ →
        Ensures pollMachine polling (Collecting w₀) (pollEventList cfg board es)
          (fun l s' => Gathers w₀ (entriesOf managed e ++ l) s s') s₂ := fun s₂ hc₂ h₂ =>
      (ih s₂ hc₂ h₂.2).mono fun l s' _ hg => h₂.1.trans hg hready hc₂
    cases managed with
    | none =>
      exact .bind (setCursor_gathers hready hm₀ hc hf hr₁) fun _ s₂ hc₂ h₂ =>
        .bind (hrest s₂ hc₂ h₂) fun l s' hc' hg => .pure hc' hg
    | some m =>
      refine .bind (hc₁.ensures (recordAgentLifecycleEvent_recorded cfg m e))
        fun _ s₂ _ hr₂ => .bind (setCursor_gathers hready hm₀ hc hf (hr₁.trans hr₂))
        fun _ s₃ hc₃ h₃ => .bind (hrest s₃ hc₃ h₃) fun l s' hc' hg => .pure hc' ?_
      simp only [entriesOf] at hg
      split at hg
      · rw [if_pos ‹_›]
        exact hg
      · rw [if_neg ‹_›]
        exact hg

theorem pollBoard_gathers (cfg : Config) (hready : PollReady w₀) (board : String)
    (s : World × List Op) (hc : Collecting w₀ s) :
    Ensures pollMachine polling (Collecting w₀) (pollBoard cfg board)
      (fun l s' => Gathers w₀ l s s') s := by
  refine .bind (hc.ensures_read (Q := fun cursor w => cursor = cursorOf w.store board)
    rfl (fun _ => rfl) fun w a h => by cases h; rfl) fun cursor s₁ hc₁ ⟨hr₁, hcursor⟩ => ?_
  refine .bind (hc₁.ensures_read (Q := fun es w => es = w.hermes.eventsAfter board cursor 200)
    rfl (fun _ => rfl) fun w a h => by cases h; rfl) fun es s₂ hc₂ ⟨hr₂, hes⟩ => ?_
  have hf : Fetched board es s₂ := by
    rw [hes, hcursor, ← hr₂.1.cursorOf]
    exact .of_eventsAfter (hc₂.ordered hready) 200
  refine (pollEventList_gathers cfg hready board es s₂ hc₂ hf).mono fun l s' _ hg => ?_
  exact (Gathers.recorded (hr₁.trans hr₂)).trans hg hready hc₂

theorem pollBoards_gathers (cfg : Config) (hready : PollReady w₀) (boards : List String)
    (s : World × List Op) (hc : Collecting w₀ s) :
    Ensures pollMachine polling (Collecting w₀) (pollBoards cfg boards)
      (fun l s' => Gathers w₀ l s s') s := by
  induction boards generalizing s with
  | nil => exact .pure hc (.recorded ⟨.refl _, rfl⟩)
  | cons board boards ih =>
    exact .bind (pollBoard_gathers cfg hready board s hc) fun here s₁ hc₁ hg =>
      .bind (ih s₁ hc₁) fun rest s' hc' hg' => .pure hc' (hg.trans hg' hready hc₁)

end Collect

/-! ## Enqueuing -/

section Pending

variable {l : List (String × Nat × String)}

theorem mem_setPending {pending : List (String × Nat × String)} {entry x : String × Nat × String}
    (h : x ∈ setPending pending entry) : x = entry ∨ x ∈ pending ∧ x.1 ≠ entry.1 := by
  unfold setPending at h
  split at h
  · obtain ⟨p, hp, rfl⟩ := List.mem_map.mp h
    split
    · exact .inl rfl
    · next hne => exact .inr ⟨hp, hne⟩
  · next hany =>
    rcases List.mem_append.mp h with hx | hx
    · refine .inr ⟨hx, fun heq => hany (List.any_eq_true.mpr ⟨x, hx, beq_iff_eq.mpr heq⟩)⟩
    · exact .inl (List.mem_singleton.mp hx)

/-- The last event of a run wins, which is its latest. -/
theorem pendingReconcile_latest (hl : l.Pairwise fun a b => a.1 = b.1 → a.2.1 < b.2.1)
    {p : String × Nat × String} (hp : p ∈ pendingReconcile l) {x : String × Nat × String}
    (hx : x ∈ l) (hk : x.1 = p.1) : x.2.1 ≤ p.2.1 := by
  induction l using List.reverseRecOn generalizing p x with
  | nil => cases hx
  | append_singleton l y ih =>
    obtain ⟨hl, -, hlast⟩ := List.pairwise_append.mp hl
    rw [pendingReconcile, List.foldl_append] at hp
    rcases mem_setPending hp with rfl | ⟨hp, hne⟩
    · rcases List.mem_append.mp hx with hx | hx
      · exact (hlast x hx p (by simp) hk).le
      · rw [List.mem_singleton.mp hx]
    · rcases List.mem_append.mp hx with hx | hx
      · exact ih hl hp hx hk
      · exact absurd (by rw [← hk, List.mem_singleton.mp hx]) hne

end Pending

/-- While the runs of `pending` are enqueued, on from `s₀`. -/
structure Enqueuing (pending : List (String × Nat × String)) (s₀ s : World × List Op) :
    Prop where
  cards : s.1.store.managedCards = s₀.1.store.managedCards
  cursors : s.1.store.cursors = s₀.1.store.cursors
  log : LogGrows s₀.1.hermes s.1.hermes
  kept : ∀ k n, HasIntent s₀.1.store k n → HasIntent s.1.store k n
  origin : ∀ k n, HasIntent s.1.store k n → HasIntent s₀.1.store k n ∨ Enqueues s.2 k
  passed : ∀ e, Passed s.2 e ↔ Passed s₀.2 e
  enqueued : ∀ k, Enqueues s.2 k → Enqueues s₀.2 k ∨
    ∃ p ∈ pending, p.1 = k ∧ HasIntent s.1.store k p.2.1

section Enqueue

variable {pending : List (String × Nat × String)} {s₀ s s' : World × List Op}

theorem Enqueuing.refl (s : World × List Op) : Enqueuing pending s s :=
  ⟨rfl, rfl, .refl _, fun _ _ h => h, fun _ _ h => .inl h, fun _ => .rfl, fun _ h => .inl h⟩

theorem Enqueuing.recorded (h : Enqueuing pending s₀ s) (hr : Recorded s s') :
    Enqueuing pending s₀ s' where
  cards := hr.1.cards.trans h.cards
  cursors := hr.1.cursors.trans h.cursors
  log := h.log.trans hr.1.log
  kept k n hk := (hr.1.intents k n).mpr (h.kept k n hk)
  origin k n hk := by
    rw [hr.2]
    exact h.origin k n ((hr.1.intents k n).mp hk)
  passed e := by rw [hr.2]; exact h.passed e
  enqueued k hk := by
    rw [hr.2] at hk
    simp only [hr.1.intents]
    exact h.enqueued k hk

/-- The run of an entry is enqueued. -/
theorem Enqueuing.upsert {k reason i : String} {n now : Nat} {rows : List ReconcileIntent}
    (h : Enqueuing pending s₀ s) (hp : (k, n, reason) ∈ pending)
    (hu : upsertIntent k reason (some n) i now s.1.store.intents = some rows) :
    Enqueuing pending s₀ ({ s.1 with store := { s.1.store with intents := rows } },
      s.2 ++ [Op.store (.enqueueReconcile k reason (some n) i)]) := by
  have hkept : ∀ k' n', HasIntent s.1.store k' n' → ∃ r ∈ rows, r.runKey = k' ∧
      n' ≤ r.eventId.getD 0 := by
    rintro k' n' ⟨r, hr, rfl, hn⟩
    obtain ⟨r', hr', hk, hle⟩ := upsertIntent_kept hu hr
    exact ⟨r', hr', hk, hn.trans hle⟩
  constructor
  case cards => exact h.cards
  case cursors => exact h.cursors
  case log => exact h.log
  case kept => exact fun k' n' hk => hkept k' n' (h.kept k' n' hk)
  case origin =>
    rintro k' n' ⟨r, hr, rfl, hn⟩
    rcases upsertIntent_origin hu hr with hk | hr
    · exact .inr ⟨reason, some n, i, by simp [hk]⟩
    · refine (h.origin _ n' ⟨r, hr, rfl, hn⟩).imp_right fun ⟨a, b, c, hmem⟩ => ?_
      exact ⟨a, b, c, List.mem_append_left _ hmem⟩
  case passed => exact fun e => by simpa [Passed] using h.passed e
  case enqueued =>
    rintro k' ⟨a, b, c, hmem⟩
    rcases List.mem_append.mp hmem with hmem | hmem
    · refine (h.enqueued k' ⟨a, b, c, hmem⟩).imp_right fun ⟨p, hp, hk, hi⟩ => ?_
      exact ⟨p, hp, hk, hkept _ _ hi⟩
    · simp only [List.mem_singleton, Op.store.injEq, StoreOp.enqueueReconcile.injEq] at hmem
      obtain ⟨rfl, -⟩ := hmem
      exact .inr ⟨_, hp, rfl, upsertIntent_reaches hu⟩

theorem enqueueReconcile_keeps {k reason i : String} {n : Nat} (hp : (k, n, reason) ∈ pending) :
    Keeps pollMachine polling (Enqueuing pending s₀)
      (store (.enqueueReconcile k reason (some n) i)) := by
  refine keeps_op (fun s s' h hm => h.recorded ⟨hm.1, hm.2⟩) fun s h => ?_
  simp only [Machine.traced, machine, Op.exec, StoreOp.exec, Txn.commit, enqueueReconcile]
  rcases s.1.store.runRecord k with _ | run
  · exact h
  · rcases hu : upsertIntent k reason (some n) i s.1.now s.1.store.intents with _ | rows
    · exact h
    · exact h.upsert hp hu

theorem enqueuePending_keeps (intentId : String → String)
    (rest : List (String × Nat × String)) (hrest : ∀ p ∈ rest, p ∈ pending) :
    Keeps pollMachine polling (Enqueuing pending s₀) (enqueuePending intentId rest) := by
  induction rest with
  | nil => exact closed_keeps.pure _
  | cons p rest ih =>
    obtain ⟨k, n, reason⟩ := p
    refine closed_keeps.bind (enqueueReconcile_keeps (hrest _ (by simp))) fun _ => ?_
    exact ih fun p hp => hrest p (by simp [hp])

end Enqueue

/-! ## Whole polls -/

section Poll

variable {w w' : World}

/-- Where a poll can end: the collection is cut, or it is complete and some of the
runs it gathered are enqueued. -/
def PollEnded (w : World) (s' : World × List Op) : Prop :=
  ∃ l s₁, Collecting w s₁ ∧ Enqueuing (pendingReconcile l) s₁ s' ∧
    (Gathers w l (w, []) s₁ ∨ ∀ k, ¬ Enqueues s'.2 k)

theorem pollOnce_ended (cfg : Config) (intentId : String → String) (boards : List String)
    {r : Durable.Outcome ControllerError Unit} {s' : World × List Op} (hready : PollReady w)
    (h : Runs pollMachine polling (pollOnce cfg intentId boards) (w, []) r s') :
    PollEnded w s' := by
  have hstart : Collecting w (w, []) :=
    ⟨rfl, fun _ _ => .rfl, .refl _, hready.behind, by simp, fun _ _ hid => .inl hid,
      by simp [Enqueues]⟩
  have hwp : wp pollMachine polling (pollOnce cfg intentId boards) (fun _ s' => PollEnded w s')
      (w, []) := by
    refine wp_bind.mpr (wp_mono (fun r s₁ h₁ => ?_) (pollBoards_gathers cfg hready boards _ hstart))
    obtain ⟨hc, hg⟩ := h₁
    have hcut : PollEnded w s₁ := ⟨[], s₁, hc, .refl _, .inr hc.quiet⟩
    cases r with
    | returned l =>
      have hkeeps : Keeps pollMachine polling (Enqueuing (pendingReconcile l) s₁)
          (enqueuePending intentId (pendingReconcile l)) :=
        enqueuePending_keeps intentId _ fun _ h => h
      exact wp_mono (fun _ s' h => ⟨l, s₁, hc, h, .inl (hg l rfl)⟩) (hkeeps s₁ (.refl _))
    | raised e => exact hcut
    | stopped => exact hcut
  exact h.sound hwp

theorem Calls.cards {s s' : Store} {e : EventRecord} {k : String}
    (hs : s'.managedCards = s.managedCards) : Calls s' e k ↔ Calls s e k := by
  have hm : s'.managedCard e.board e.taskId = s.managedCard e.board e.taskId := by
    simp only [Store.managedCard, hs]
  constructor <;> rintro ⟨ht, hc⟩
  · exact ⟨ht, by rwa [hm] at hc⟩
  · exact ⟨ht, by rwa [hm]⟩

/-- **What a poll loses.** After the poll every event at or below a cursor has its
intent if and only if the poll was not cut between a cursor and an enqueue. -/
theorem PollEnded.noReconcileLost_iff {done : List Op} (hready : PollReady w)
    (hn : NoReconcileLost w) (h : PollEnded w (w', done)) :
    NoReconcileLost w' ↔ EnqueuesWhatItPassed w w' done := by
  obtain ⟨l, s₁, hc, he, hend⟩ := h
  have hcards : w'.store.managedCards = w.store.managedCards := he.cards.trans hc.cards
  have hcursors : w'.store.cursors = s₁.1.store.cursors := he.cursors
  have hcursor : ∀ b, cursorOf w'.store b = cursorOf s₁.1.store b := fun b => by
    rw [cursorOf, hcursors, cursorOf]
  have hkept : ∀ k n, HasIntent w.store k n → HasIntent w'.store k n := fun k n hk =>
    he.kept k n ((hc.intents k n).mpr hk)
  constructor
  · intro hlost e hmem k hk hp
    have hid := hc.reached _ _ ((he.passed e).mp hp)
    rw [← hcursor] at hid
    have hi := hlost e hmem k ((Calls.cards hcards).mpr hk) hid
    exact (he.origin k e.id hi).imp_left (hc.intents k e.id).mp
  · intro hpassed e hmem k hk hid
    rw [Calls.cards hcards] at hk
    rw [hcursor] at hid
    have hmem₁ : e ∈ s₁.1.hermes.events := he.log.old hmem (hid.trans_lt (hc.behind _))
    rcases hc.passed e hmem₁ hid with hold | hp
    · -- the cursor was past the event before the poll
      have hmem₀ := hc.log.old hmem₁ (hold.trans_lt (hready.behind _))
      exact hkept _ _ (hn e hmem₀ k hk hold)
    · rcases hpassed e hmem k hk ((he.passed e).mpr hp) with hi | hi
      · exact hkept _ _ hi
      · rcases he.enqueued k hi with hi' | ⟨p, hp', rfl, r, hr, hrun, hle⟩
        · exact absurd hi' (hc.quiet k)
        · rcases hend with hg | hquiet
          · rcases hg.lists e hmem₁ _ hk hp with hnone | ⟨reason, hl⟩
            · cases hnone
            · exact ⟨r, hr, hrun, (pendingReconcile_latest hg.ordered hp' hl rfl).trans hle⟩
          · exact absurd hi (hquiet _)

/-- A poll can follow on a poll. -/
theorem PollEnded.ready {done : List Op} (hready : PollReady w) (h : PollEnded w (w', done)) :
    PollReady w' := by
  obtain ⟨l, s₁, hc, he, -⟩ := h
  refine ⟨he.log.ordered (hc.ordered hready), fun b => ?_, ?_⟩
  · have hcursors : w'.store.cursors = s₁.1.store.cursors := he.cursors
    rw [cursorOf, hcursors]
    exact (hc.behind b).trans_le he.log.next
  · rw [he.cards, hc.cards]
    exact hready.oneBoard

end Poll

/-! ## Histories of polls -/

/-- What happens between two polls: no cursor moves, no intent forgets its event, and
no card becomes managed after an event of it was passed. -/
structure Elsewhere (w w' : World) : Prop where
  log : LogGrows w.hermes w'.hermes
  cursors : w'.store.cursors = w.store.cursors
  intents : ∀ k n, HasIntent w.store k n → HasIntent w'.store k n
  cards : ∀ e ∈ w.hermes.events, ∀ k, Calls w'.store e k →
    e.id ≤ cursorOf w.store e.board → Calls w.store e k
  oneBoard : ∀ m ∈ w'.store.managedCards, ∀ m' ∈ w'.store.managedCards,
    m.runKey = m'.runKey → m.board = m'.board

/-- A poll that has ended: the world before and after it, and the progress it made. -/
structure Polled where
  before : World
  after : World
  done : List Op

/-- The polls of a Controller, each ended by an answer, an error or a crash. -/
inductive PollHistory (cfg : Config) : World → List Polled → World → Prop
  | start {w} : PollHistory cfg w [] w
  | elsewhere {w ps w' w''} : PollHistory cfg w ps w' → Elsewhere w' w'' →
      PollHistory cfg w ps w''
  | poll {w ps w' r w'' done} (intentId : String → String) (boards : List String) :
      PollHistory cfg w ps w' →
      Runs pollMachine polling (pollOnce cfg intentId boards) (w', []) r (w'', done) →
      PollHistory cfg w (ps ++ [⟨w', w'', done⟩]) w''

section History

variable {w w' : World}

theorem Elsewhere.noReconcileLost (h : Elsewhere w w') (hready : PollReady w)
    (hn : NoReconcileLost w) : NoReconcileLost w' := by
  intro e he k hk hid
  rw [cursorOf, h.cursors, ← cursorOf] at hid
  have hold := h.log.old he (hid.trans_lt (hready.behind _))
  exact h.intents k e.id (hn e hold k (h.cards e hold k hk hid) hid)

theorem Elsewhere.ready (h : Elsewhere w w') (hready : PollReady w) : PollReady w' := by
  refine ⟨h.log.ordered hready.ordered, fun b => ?_, h.oneBoard⟩
  rw [cursorOf, h.cursors, ← cursorOf]
  exact (hready.behind b).trans_le h.log.next

/-- **Polls lose a reconcile only where they are cut.** No poll of a history leaves an
event at or below a cursor without its intent, if and only if no poll is cut between
the cursor of an event and the enqueue of its run. -/
theorem polls_lose_nothing_iff {cfg : Config} {ps : List Polled} (hready : PollReady w)
    (hn : NoReconcileLost w) (h : PollHistory cfg w ps w') :
    (∀ p ∈ ps, NoReconcileLost p.after) ↔
      ∀ p ∈ ps, EnqueuesWhatItPassed p.before p.after p.done := by
  -- the last world is ready, and has lost nothing unless a poll has
  suffices key : PollReady w' ∧ ((∀ p ∈ ps, NoReconcileLost p.after) → NoReconcileLost w') ∧
      ((∀ p ∈ ps, NoReconcileLost p.after) ↔
        ∀ p ∈ ps, EnqueuesWhatItPassed p.before p.after p.done) from key.2.2
  induction h with
  | start => exact ⟨hready, fun _ => hn, by simp⟩
  | elsewhere _ hmove ih =>
    obtain ⟨hr, hlast, hiff⟩ := ih
    exact ⟨hmove.ready hr, fun hps => hmove.noReconcileLost hr (hlast hps), hiff⟩
  | poll intentId boards _ hrun ih =>
    obtain ⟨hr, hlast, hiff⟩ := ih
    have hended := pollOnce_ended cfg intentId boards hr hrun
    refine ⟨hended.ready hr, fun hps => hps _ (List.mem_append_right _ (List.mem_singleton_self _)), ?_⟩
    simp only [List.forall_mem_append, List.forall_mem_singleton, hiff]
    refine and_congr_right fun hps => ?_
    exact hended.noReconcileLost_iff hr (hlast (hiff.mpr hps))

end History

/-! ## A poll that is cut -/

/-- Card 5 was completed, and the poll has not read it yet. -/
def completedWorld : World where
  store := { runs := [sampleRun "run-a" "ga" 1], managedCards := [sampleCard 5 4 .implement] }
  hermes :=
    { events := [{ id := 1, board := "app", taskId := ⟨5⟩, runId := some 3, kind := "completed",
                   createdAt := 50 }]
      nextEvent := 2 }
  gitlab := downGitLab
  now := 100

theorem completedWorld_ready : PollReady completedWorld where
  ordered := ⟨List.pairwise_singleton _ _, by decide⟩
  behind _ := Nat.zero_lt_two
  oneBoard := by decide

theorem completedWorld_noReconcileLost : NoReconcileLost completedWorld := by
  intro e he k _ hid
  rw [List.mem_singleton.mp he] at hid
  cases hid

def sampleIntentId (runKey : String) : String := "intent-" ++ runKey

/-- Where a poll of board "app" ends that meets the faults of the script. -/
def scriptedPoll (fs : List (Fault ControllerError)) : World × List Op :=
  (pollMachine.replay (pollOnce sampleConfig sampleIntentId ["app"]) fs (completedWorld, [])).2

theorem scriptedPoll_history (fs : List (Fault ControllerError)) :
    PollHistory sampleConfig completedWorld
      [⟨completedWorld, (scriptedPoll fs).1, (scriptedPoll fs).2⟩] (scriptedPoll fs).1 :=
  .poll sampleIntentId ["app"] .start
    (replay_runs (E := polling) (fun s => ⟨.refl s.1, rfl⟩) (fun _ _ _ => trivial) _ _ _)

/-- The poll is stopped right after `set_cursor`. -/
def crashedPoll : World × List Op :=
  scriptedPoll [.none, .none, .none, .none, .stopAfter]

/-- The event is passed, and no intent calls for its run. -/
theorem crashedPoll_loses :
    PollReady completedWorld ∧ NoReconcileLost completedWorld ∧
      PollHistory sampleConfig completedWorld
        [⟨completedWorld, crashedPoll.1, crashedPoll.2⟩] crashedPoll.1 ∧
      ¬ NoReconcileLost crashedPoll.1 := by
  refine ⟨completedWorld_ready, completedWorld_noReconcileLost, scriptedPoll_history _,
    fun h => ?_⟩
  have hintents : crashedPoll.1.store.intents = [] := by decide +kernel
  obtain ⟨r, hr, -⟩ := h ⟨1, "app", ⟨5⟩, some 3, "completed", none, 50⟩ (by decide +kernel) "run-a"
    ⟨by decide, sampleCard 5 4 .implement, by decide +kernel, rfl, rfl⟩ (by decide +kernel)
  rw [hintents] at hr
  cases hr

/-- The poll that is not cut. -/
theorem finishedPoll_loses_nothing : NoReconcileLost (scriptedPoll []).1 := by
  refine (polls_lose_nothing_iff completedWorld_ready completedWorld_noReconcileLost
    (scriptedPoll_history [])).mpr (fun p hp => ?_) _ (List.mem_singleton_self _)
  rw [List.mem_singleton.mp hp]
  intro e _ k hk _
  obtain ⟨m, hm, -, rfl⟩ := hk.card
  have hcard : m = sampleCard 5 4 .implement :=
    List.mem_singleton.mp (managedCard_mem hm).1
  rw [hcard]
  exact .inr ⟨"kanban:completed", some 1, sampleIntentId "run-a", by decide +kernel⟩

end HollysysController
