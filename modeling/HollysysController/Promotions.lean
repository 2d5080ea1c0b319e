import HollysysController.Columns
import HollysysController.StaleWorker

/-! # The Controller's own promotions

Publishing a card, releasing it after a cooldown and dispatching it again all
promote it when they find it blocked. Reconcile counts the promotions of the
card against the one release operation that publishes it. A `PromotionView` is
all that this count depends on, and each action is followed through its views. -/

namespace HollysysController

open Durable

/-! ## What the check sees of a card -/

/-- The key of the operation that publishes the card. -/
def ManagedCard.releaseKey (managed : ManagedCard) : String := s!"{managed.idempotencyKey}:release"

structure PromotionView where
  promoted : Nat
  status : Option TaskStatus
  resolved : Bool
  row : Option OperationRow

def promotionView (managed : ManagedCard) (w : World) : PromotionView where
  promoted := (w.hermes.eventKinds managed.board managed.cardId).count "promoted_manual"
  status := (w.hermes.find managed.board managed.cardId).map (·.status)
  resolved := (w.hermes.find managed.board managed.cardId).any (·.comments.any isResolution)
  row := w.store.operations managed.releaseKey

namespace PromotionView

/-- The release operation of the card is recorded. -/
def recorded (managed : ManagedCard) (v : PromotionView) : Bool :=
  releaseRecorded v.row managed.board managed.cardId

/-- The card was never promoted, or once by its publishing, or a human resolved it. -/
def Authorized (managed : ManagedCard) (v : PromotionView) : Prop :=
  v.resolved = true ∨ v.promoted = 0 ∨ (v.promoted = 1 ∧ v.recorded managed = true)

/-- The view after a promotion to `status`. -/
def promoteTo (status : TaskStatus) (v : PromotionView) : PromotionView :=
  { v with promoted := v.promoted + 1, status := some status }

/-- Every promotion of a card in the view keeps `P`. -/
def Promotes (P : PromotionView → Prop) (v : PromotionView) : Prop :=
  ∀ status, status = .ready ∨ status = .todo → P (v.promoteTo status)

end PromotionView

/-- Reconcile finds nothing wrong with the promotions of the card. -/
def CardAuthorized (managed : ManagedCard) (w : World) : Prop :=
  ∀ task, w.hermes.task managed.board managed.cardId = some task →
    machine.eval (unauthorizedPromotion [{ managed, task }]) w = (.returned none, w)

/-- The check reads the view and nothing else. -/
theorem cardAuthorized_iff {managed : ManagedCard} {w : World} {t : HermesTask}
    (hf : w.hermes.find managed.board managed.cardId = some t) :
    CardAuthorized managed w ↔ (promotionView managed w).Authorized managed := by
  obtain ⟨-, hb, hi⟩ := Hermes.mem_of_find hf
  have hcount : promotions (w.hermes.snapshot t) = (promotionView managed w).promoted := by
    simp [promotions, Hermes.snapshot, promotionView, hb, hi]
  have hres : (w.hermes.snapshot t).comments.any isResolution =
      (promotionView managed w).resolved := by
    simp [Hermes.snapshot, promotionView, hf]
  have hid : (w.hermes.snapshot t).id = managed.cardId := hi
  have hread : machine.eval (store (.operationRecord (releaseKey
      { managed, task := w.hermes.snapshot t }))) w =
      (.returned (w.store.operations managed.releaseKey), w) := by
    rw [eval_store]
    rfl
  have hcheck : machine.eval (unauthorizedPromotion [{ managed, task := w.hermes.snapshot t }]) w =
      (.returned (if (promotionView managed w).promoted = 0 then none
        else if (promotionView managed w).resolved ∨ ((promotionView managed w).promoted = 1 ∧
          (promotionView managed w).recorded managed) then none
        else some { managed, task := w.hermes.snapshot t }), w) := by
    by_cases h₀ : (promotionView managed w).promoted = 0
    · simp [unauthorizedPromotion, hcount, h₀]
    · cases hr : (promotionView managed w).resolved with
      | true => simp [unauthorizedPromotion, promotionIsAuthorized, hcount, hres, hr, h₀]
      | false =>
        by_cases h₁ : (promotionView managed w).promoted = 1
        · cases hrec : (promotionView managed w).recorded managed <;>
            simp only [PromotionView.recorded, promotionView] at hrec <;>
            simp [unauthorizedPromotion, promotionIsAuthorized, hcount, hres, hr, h₁,
              Machine.eval_bind, hread, hid, hrec]
        · simp [unauthorizedPromotion, promotionIsAuthorized, hcount, hres, hr, h₀, h₁]
  have hauth : CardAuthorized managed w ↔
      machine.eval (unauthorizedPromotion [{ managed, task := w.hermes.snapshot t }]) w =
        (.returned none, w) := by
    unfold CardAuthorized
    simp only [Hermes.task, hf, Option.map_some, Option.some.injEq, forall_eq']
  rw [hauth, hcheck, PromotionView.Authorized]
  simp only [Prod.mk.injEq, Outcome.returned.injEq, and_true]
  constructor
  · intro h
    split at h
    · exact .inr (.inl ‹_›)
    · split at h
      · rename_i hc
        exact hc.imp_right .inr
      · cases h
  · rintro (h | h | h)
    · simp [h]
    · simp [h]
    · simp [h]

theorem cardAuthorized_of_view {managed : ManagedCard} {w : World}
    (h : (promotionView managed w).Authorized managed) : CardAuthorized managed w := by
  cases hf : w.hermes.find managed.board managed.cardId with
  | none => exact fun task htask => by simp [Hermes.task, hf] at htask
  | some t => exact (cardAuthorized_iff hf).mpr h

/-- Reconcile finds no unauthorized promotion when it finds none in any card. -/
theorem unauthorizedPromotion_none {items : List HistoryItem} {w : World}
    (h : ∀ i ∈ items, machine.eval (unauthorizedPromotion [i]) w = (.returned none, w)) :
    machine.eval (unauthorizedPromotion items) w = (.returned none, w) := by
  induction items with
  | nil => rfl
  | cons i is ih =>
    have hi := h i List.mem_cons_self
    have his := ih fun j hj => h j (List.mem_cons_of_mem _ hj)
    unfold unauthorizedPromotion at hi ⊢
    by_cases h₀ : promotions i.task = 0
    · simpa [h₀] using his
    · simp only [h₀, if_false, Prog.bind_def, Machine.eval_bind] at hi ⊢
      rcases hx : machine.eval (promotionIsAuthorized i) w with ⟨r, w'⟩
      rw [hx] at hi
      cases r with
      | returned b =>
        cases b with
        | true =>
          obtain rfl : w' = w := congrArg Prod.snd hi
          simpa using his
        | false => simp at hi
      | raised e => simp at hi
      | stopped => simp at hi

/-! ## The setting of an action -/

/-- What an operation may raise when it fails: a dependency, or the database. -/
def OperationError (e : ControllerError) : Prop := e.isDependency = true ∨ e.isFatal = true

/-- The operation is done, so it is answered from the ledger. -/
def OperationDone (w : World) (key : String) : Prop :=
  ∃ row, w.store.operations key = some row ∧ row.status = .done ∧ row.result.isSome

/-- While an action runs the others leave the card's view and the done operations
alone, and any operation may fail or stop. -/
def besideCard (managed : ManagedCard) : Setting Op ControllerError World where
  others w w' := promotionView managed w' = promotionView managed w ∧
    ∀ key, OperationDone w key → OperationDone w' key
  faults _ _ f := ∀ e, f = .failBefore e ∨ f = .failAfter e → OperationError e

/-- From the view `v` every run of `p` ends with `P`, an answer as `ok` says and
an error in `C`. -/
def SafeFrom (managed : ManagedCard) (C : ControllerError → Prop) (P : PromotionView → Prop)
    {α : Type} (ok : α → PromotionView → Prop) (p : Service α) (v : PromotionView) : Prop :=
  ∀ w, promotionView managed w = v →
    wp machine (besideCard managed) p (fun r w' => P (promotionView managed w') ∧ match r with
      | .returned a => ok a (promotionView managed w')
      | .raised e => C e
      | .stopped => True) w

namespace SafeFrom

variable {managed : ManagedCard} {C : ControllerError → Prop} {P : PromotionView → Prop}
  {α β : Type} {v : PromotionView}

theorem pure {ok : α → PromotionView → Prop} {a : α} (hP : P v) (hok : ok a v) :
    SafeFrom managed C P ok (Prog.pure a) v := by
  rintro w rfl
  exact ⟨hP, hok⟩

theorem raise {ok : α → PromotionView → Prop} {e : ControllerError} (hP : P v) (hC : C e) :
    SafeFrom managed C P ok (Prog.raise e) v := by
  rintro w rfl
  exact ⟨hP, hC⟩

theorem bind {Q : α → PromotionView → Prop} {ok : β → PromotionView → Prop} {p : Service α}
    {f : α → Service β} (hp : SafeFrom managed C P Q p v)
    (hf : ∀ a v', P v' → Q a v' → SafeFrom managed C P ok (f a) v') :
    SafeFrom managed C P ok (p.bind f) v := by
  intro w hw
  rw [wp_bind]
  refine wp_mono (fun r w' h => ?_) (hp w hw)
  cases r with
  | returned a => exact hf a _ h.1 h.2 w' rfl
  | raised e => exact h
  | stopped => exact h

theorem attempt {ok : α → PromotionView → Prop} {p : Service α}
    (hp : SafeFrom managed C P ok p v) :
    SafeFrom managed C P (fun r v' => match r with
      | .ok a => ok a v'
      | .error e => C e) p.attempt v := by
  intro w hw
  rw [wp_attempt]
  refine wp_mono (fun r w' h => ?_) (hp w hw)
  cases r <;> exact h

theorem mono {C' : ControllerError → Prop} {ok ok' : α → PromotionView → Prop} {p : Service α}
    (hp : SafeFrom managed C P ok p v) (hC : ∀ e, C e → C' e)
    (hok : ∀ a v', ok a v' → ok' a v') : SafeFrom managed C' P ok' p v := by
  intro w hw
  refine wp_mono (fun r w' h => ⟨h.1, ?_⟩) (hp w hw)
  cases r with
  | returned a => exact hok _ _ h.2
  | raised e => exact hC _ h.2
  | stopped => trivial

/-- More views are safe too. -/
theorem weaken {R : PromotionView → Prop} {ok : α → PromotionView → Prop} {p : Service α}
    (hp : SafeFrom managed C P ok p v) (hR : ∀ v', P v' → R v') : SafeFrom managed C R ok p v := by
  intro w hw
  exact wp_mono (fun r w' h => ⟨hR _ h.1, h.2⟩) (hp w hw)

/-- Safety from every view in `P` follows the structure of programs. -/
theorem closed : Closed (fun {α} (p : Service α) =>
    ∀ v, P v → SafeFrom managed (fun _ => True) P (fun _ _ => True) p v) where
  pure _ _ hv := pure hv trivial
  raise _ _ hv := raise hv trivial
  bind hp hf v hv := (hp v hv).bind fun a v' hv' _ => hf a v' hv'
  attempt hp v hv := (hp v hv).attempt.mono (fun _ _ => trivial) fun _ _ _ => trivial

/-- An operation, by what it does to the view. -/
theorem op {o : Op} {ok : o.Ret → PromotionView → Prop} (hC : ∀ e, OperationError e → C e)
    (hP : P v)
    (h : ∀ w, promotionView managed w = v → P (promotionView managed (machine.exec o w).2) ∧
      match machine.exec o w with
      | (.ok a, w') => ok a (promotionView managed w')
      | (.error e, _) => C e) :
    SafeFrom managed C P ok (Prog.op o) v := by
  rintro w rfl
  refine wp_op (fun w₁ ho => ?_) (fun w₁ ho => ?_) fun w₁ ho => ?_
  · have hP₁ : P (promotionView managed w₁) := ho.1.symm ▸ hP
    exact ⟨⟨hP₁, trivial⟩, fun e hf => ⟨hP₁, hC e (hf e (.inl rfl))⟩⟩
  · exact ⟨⟨(h w₁ ho.1).1, trivial⟩, fun e hf => ⟨(h w₁ ho.1).1, hC e (hf e (.inr rfl))⟩⟩
  · obtain ⟨h₁, h₂⟩ := h w₁ ho.1
    rcases hx : machine.exec o w₁ with ⟨r, w₂⟩
    rw [hx] at h₁ h₂
    cases r <;> exact ⟨h₁, h₂⟩

/-! ## Operations and the view -/

/-- A store transaction changes the view at the release row only. -/
theorem storeRow {o : StoreOp} {ok : o.Ret → PromotionView → Prop}
    (hC : ∀ e, OperationError e → C e) (hP : P v)
    (h : ∀ now s, s.operations managed.releaseKey = v.row →
      P { v with row := (o.exec now s).2.operations managed.releaseKey } ∧
      match o.exec now s with
      | (.ok a, s') => ok a { v with row := s'.operations managed.releaseKey }
      | (.error e, _) => C e) :
    SafeFrom managed C P ok (HollysysController.store o) v := by
  refine op (o := .store o) hC hP fun w hw => ?_
  subst hw
  obtain ⟨h₁, h₂⟩ := h w.now w.store rfl
  refine ⟨h₁, ?_⟩
  simp only [machine, Op.exec]
  rcases hx : o.exec w.now w.store with ⟨r, s'⟩
  rw [hx] at h₂
  cases r <;> exact h₂

/-- A store transaction outside the operation ledger. -/
theorem store {o : StoreOp} (hC : ∀ e, OperationError e → C e) (hP : P v)
    (ho : Column.operations ∉ o.writes)
    (herr : ∀ now s e, (o.exec now s).1 = .error e → C e) :
    SafeFrom managed C P (fun _ v' => v' = v) (HollysysController.store o) v := by
  refine storeRow hC hP fun now s hs => ?_
  have hrow : (o.exec now s).2.operations managed.releaseKey = v.row := by
    have := o.exec_get now s ho
    simp only [Column.get] at this
    rw [this, hs]
  refine ⟨by rwa [hrow], ?_⟩
  rcases hx : o.exec now s with ⟨r, s'⟩
  rw [hx] at hrow
  cases r with
  | ok a => exact congrArg (fun row => { v with row }) hrow
  | error e => exact herr now s e (congrArg Prod.fst hx)

/-- The host knows nothing of the card. -/
theorem host {o : HostOp} (hP : P v) :
    SafeFrom managed (fun _ => True) P (fun _ v' => v' = v) (HollysysController.host o) v := by
  refine op (o := .host o) (fun _ _ => trivial) hP fun w hw => ?_
  subst hw
  rw [exec_host]
  refine ⟨hP, ?_⟩
  simp only [machine, Op.exec]
  cases o.exec w.now w.host <;> trivial

/-- A read of the card. -/
theorem task (hC : ∀ e, OperationError e → C e) (hP : P v) :
    SafeFrom managed C P (fun task v' => v' = v ∧ task.map (·.status) = v.status)
      (hermes (.task managed.board managed.cardId)) v := by
  refine op (o := .hermes (.task managed.board managed.cardId)) hC hP fun w hw => ?_
  subst hw
  refine ⟨hP, rfl, ?_⟩
  simp only [Hermes.task, promotionView, Option.map_map]
  rfl

/-- A promotion of the card, when it is blocked or waiting. -/
theorem promote (hC : ∀ e, OperationError e → C e) (hP : P v)
    (hpromote : v.status = some .blocked ∨ v.status = some .todo → v.Promotes P) :
    SafeFrom managed C P (fun _ _ => True) (hermes (.promote managed.board managed.cardId)) v := by
  refine op (o := .hermes (.promote managed.board managed.cardId)) hC hP fun w hw => ?_
  subst hw
  rcases Hermes.promote_cases w.hermes managed.board managed.cardId w.now with
    ⟨t, status, hf, ht, hs, hx⟩ | ⟨text, hx⟩
  · have hx' : machine.exec (.hermes (.promote managed.board managed.cardId)) w =
        (.ok (), { w with
          hermes := w.hermes.promoted managed.board managed.cardId status w.now }) := by
      simp only [machine, Op.exec, HermesOp.exec, Command.commit, hx]
    rw [hx']
    have hview : promotionView managed { w with
        hermes := w.hermes.promoted managed.board managed.cardId status w.now } =
        (promotionView managed w).promoteTo status := by
      simp only [promotionView, Hermes.find_promoted hf, hf, PromotionView.promoteTo]
      simp [Hermes.promoted, Hermes.eventKinds_appendEvent, HermesTask.withStatus]
    refine ⟨?_, trivial⟩
    rw [hview]
    exact hpromote (by simpa [promotionView, hf] using ht) status hs
  · have hx' : machine.exec (.hermes (.promote managed.board managed.cardId)) w =
        (.error (commandFailed text), w) := by
      simp only [machine, Op.exec, HermesOp.exec, Command.commit, hx]
    rw [hx']
    exact ⟨hP, hC _ (.inl rfl)⟩

/-- A CAS reclaim that does not archive: a running card is ready afterwards. -/
theorem reclaim {runId pid : Nat} (hC : ∀ e, OperationError e → C e) (hP : P v)
    (hready : v.status = some .running → P { v with status := some .ready }) :
    SafeFrom managed C P (fun _ v' => v' = { v with status := some .ready })
      (hermes (.reclaim managed.board managed.cardId runId pid false)) v := by
  refine op (o := .hermes (.reclaim managed.board managed.cardId runId pid false)) hC hP
    fun w hw => ?_
  subst hw
  rcases Hermes.reclaim_cases w.hermes managed.board managed.cardId runId pid w.now false with
    ⟨t, hf, ht, h', hx, htasks, es, hevents, hes⟩ | ⟨text, hx⟩
  · have hx' : machine.exec (.hermes (.reclaim managed.board managed.cardId runId pid false)) w =
        (.ok (), { w with hermes := h' }) := by
      simp only [machine, Op.exec, HermesOp.exec, Command.commit, hx]
    rw [hx']
    have hfind : h'.find managed.board managed.cardId = some (t.reclaimed false) := by
      have hself : (w.hermes.updateTask managed.board managed.cardId (·.reclaimed false)).find
          managed.board managed.cardId =
            (w.hermes.find managed.board managed.cardId).map (·.reclaimed false) :=
        Hermes.find_updateTask_self fun _ => ⟨rfl, rfl⟩
      rw [hf] at hself
      simpa [Hermes.find, htasks] using hself
    have hcount : (h'.eventKinds managed.board managed.cardId).count "promoted_manual" =
        (w.hermes.eventKinds managed.board managed.cardId).count "promoted_manual" := by
      simp only [Hermes.eventKinds, hevents, List.filter_append, List.map_append,
        List.count_append, Nat.add_eq_left, List.count_eq_zero, List.mem_map, not_exists, not_and]
      intro e he hk
      rcases hes e (List.mem_of_mem_filter he) with h | h <;> simp [h] at hk
    have hview : promotionView managed { w with hermes := h' } =
        { promotionView managed w with status := some .ready } := by
      simp [promotionView, hfind, hf, hcount, HermesTask.reclaimed, HermesTask.reclaimTarget]
    refine ⟨?_, hview⟩
    rw [hview]
    exact hready (by simp [promotionView, hf, ht])
  · have hx' : machine.exec (.hermes (.reclaim managed.board managed.cardId runId pid false)) w =
        (.error (commandFailed text), w) := by
      simp only [machine, Op.exec, HermesOp.exec, Command.commit, hx]
    rw [hx']
    exact ⟨hP, hC _ (.inl rfl)⟩

/-! ## The actions and the view -/

/-- `release` promotes the card at most once, and only when it finds it blocked. -/
theorem release (hC : ∀ e, OperationError e → C e) (hrun : ∀ text, C (.runtimeError text))
    (hP : P v) (hpromote : v.status = some .blocked → v.Promotes P) :
    SafeFrom managed C P (fun _ _ => True) (release managed.board managed.cardId) v := by
  -- After the promotion the card is only read.
  have hconfirm : ∀ v' (f : Option TaskRecord → Service Unit), P v' →
      (∀ t, (f t = Prog.pure ()) ∨ ∃ e, f t = Prog.raise e ∧ C e) →
      SafeFrom managed C P (fun _ _ => True)
        ((hermes (.task managed.board managed.cardId)).bind f) v' := by
    intro v' f hP' hf
    refine (task hC hP').bind fun t v₁ hP₁ _ => ?_
    rcases hf t with h | ⟨e, h, he⟩ <;> rw [h]
    · exact pure hP₁ trivial
    · exact raise hP₁ he
  refine (task hC hP).bind fun t v₁ hP₁ ht => ?_
  obtain ⟨rfl, hst⟩ := ht
  cases t with
  | none => exact raise hP₁ (hrun _)
  | some t =>
    dsimp only
    split
    · exact pure hP₁ trivial
    · rename_i hnot
      have hheld : v₁.status = some .blocked ∨ v₁.status = some .todo → v₁.Promotes P := by
        rintro (h | h)
        · exact hpromote h
        · rw [← hst, Option.map_some, Option.some.injEq] at h
          simp [h, TaskStatus.isReleased] at hnot
      refine (promote hC hP₁ hheld).attempt.bind fun r v₂ hP₂ hr => ?_
      cases r with
      | error e =>
        dsimp only
        split
        · refine hconfirm v₂ _ hP₂ fun t => ?_
          cases t with
          | none => exact .inr ⟨e, rfl, hr⟩
          | some t =>
            dsimp only
            split
            · exact .inl rfl
            · exact .inr ⟨e, rfl, hr⟩
        · exact raise hP₂ hr
      | ok u =>
        refine hconfirm v₂ _ hP₂ fun t => ?_
        cases t with
        | none => exact .inr ⟨_, rfl, hrun _⟩
        | some t =>
          dsimp only
          split
          · exact .inl rfl
          · exact .inr ⟨_, rfl, hrun _⟩

theorem fromText {r : Except String α} (hC : ∀ text, C (.valueError text)) (hP : P v) :
    SafeFrom managed C P (fun a v' => r = .ok a ∧ v' = v) (fromText r) v := by
  cases r with
  | error text => exact raise hP (hC text)
  | ok a => exact pure hP ⟨rfl, rfl⟩

theorem assertReconcileMutable (hC : ∀ e, OperationError e → C e)
    (hsup : ∀ text, C (.superseded text)) (hP : P v) (runKey : String) :
    SafeFrom managed C P (fun _ v' => v' = v) (assertReconcileMutable runKey) v := by
  refine bind (Q := fun _ v' => v' = v)
    (bind (store hC hP (by simp [StoreOp.writes]) fun _ _ _ h => by cases h)
      fun _ v₁ h h₁ => pure h h₁) fun control v₁ h h₁ => ?_
  split
  · exact pure h h₁
  · exact raise h (hsup _)

/-- The version check reads the run control. -/
theorem assertVersion (hC : ∀ e, OperationError e → C e) (hsup : ∀ text, C (.superseded text))
    (hP : P v) (run : Option String) (version : Option Nat) (text : String) :
    SafeFrom managed C P (fun _ v' => v' = v) (assertVersion run version text) v := by
  unfold HollysysController.assertVersion
  split
  · refine (assertReconcileMutable hC hsup hP _).bind fun control v₁ h h₁ => ?_
    split
    · exact raise h (hsup _)
    · exact pure h h₁
  · exact pure hP rfl

/-- An operation, by what its claim, its action and its settlement do. -/
theorem operation {D : ControllerError → Prop} {B : PromotionView → Prop} {c : OperationCall}
    {run : Option String} {action : Service OperationResult}
    (hD : ∀ e, OperationError e → D e) (hsup : ∀ text, D (.superseded text)) (hP : P v)
    (hclaim : SafeFrom managed (fun _ => True) P (fun r v' => r = none → B v')
      (HollysysController.store (.operationResult c)) v)
    (haction : ∀ v', B v' → SafeFrom managed D P (fun _ _ => True) action v')
    (hfinish : ∀ result v', P v' → SafeFrom managed D P (fun _ _ => True)
      (HollysysController.store (.finishOperation c.key result)) v')
    (hsettle : ∀ e v', D e → P v' → SafeFrom managed (fun _ => True) P (fun _ _ => True)
      (settleFailure c e) v') :
    SafeFrom managed (fun _ => True) P (fun _ _ => True) (operation c run action) v := by
  refine (assertVersion (fun _ _ => trivial) (fun _ => trivial) hP _ _ _).bind
    fun _ v₁ hP₁ h₁ => ?_
  subst h₁
  refine hclaim.bind fun previous v₂ hP₂ hB => ?_
  cases previous with
  | some => exact pure hP₂ trivial
  | none =>
    have hattempted : SafeFrom managed D P (fun _ _ => True) (do
        let result ← action
        HollysysController.store (.finishOperation c.key result)
        HollysysController.assertVersion run c.expectedStateVersion
          "discarded_stale_operation_result"
        Pure.pure result) v₂ :=
      (haction v₂ (hB rfl)).bind fun result v₃ hP₃ _ =>
        (hfinish result v₃ hP₃).bind fun _ v₄ hP₄ _ =>
          (assertVersion hD hsup hP₄ _ _ _).bind fun _ v₅ hP₅ _ => pure hP₅ trivial
    refine (hattempted.attempt.mono (fun _ _ => trivial) fun _ _ h => h).bind
      fun r v₃ hP₃ hr => ?_
    cases r with
    | ok result => exact pure hP₃ trivial
    | error e => exact hsettle e v₃ hr hP₃

end SafeFrom

/-! ## The three actions -/

inductive PromotionAction where
  | publish (run : RunRecord) (task : TaskRecord)
  | cooldown (runKey session : String)
  | redispatch (cfg : Config) (run : RunRecord) (row : CardRuntime) (i : WorkerIdentity)

namespace PromotionAction

/-- What the Controller runs for the card. -/
def program (managed : ManagedCard) : PromotionAction → Service Unit
  | publish run task => do
    let _ ← ensureWorkPublished run task
    pure ()
  | cooldown runKey session => do
    let _ ← operation (cooldownCall runKey managed.board managed.cardId session) none
      (releaseCooldown managed.board managed.cardId)
    pure ()
  | redispatch cfg run row i => redispatchWorker cfg run managed row i

/-- The action is about the card: its board, and its body as the ledger knows it. -/
def About (managed : ManagedCard) : PromotionAction → Prop
  | publish run task => run.workspace.board = managed.board ∧ task.id = managed.cardId ∧
      ∀ record, parseCardBody task.body = .ok record →
        record.idempotencyKey = managed.idempotencyKey
  | cooldown _ _ => True
  | redispatch _ run _ _ => run.workspace.board = managed.board

end PromotionAction

/-- When the action finds the card blocked, a human resolved it, or its operation is
done, or it was never promoted and its publishing is recorded, which a publish
does itself. -/
def PromotesOnce (managed : ManagedCard) (w : World) (a : PromotionAction) : Prop :=
  let v := promotionView managed w
  v.status = some .blocked → v.resolved = true ∨ match a with
    | .publish _ _ => v.promoted = 0 ∨ OperationDone w managed.releaseKey
    | .cooldown runKey session => (v.promoted = 0 ∧ v.recorded managed = true) ∨
        OperationDone w (cooldownCall runKey managed.board managed.cardId session).key
    | .redispatch _ _ _ _ => v.promoted = 0 ∧ v.recorded managed = true

namespace PromotionView

variable {managed : ManagedCard} {v : PromotionView}

/-- A promotion of a card that was never promoted, or that a human resolved. -/
theorem Authorized.promotes (hr : v.recorded managed = true)
    (h : v.resolved = true ∨ v.promoted = 0) : v.Promotes (Authorized managed) := by
  intro status _
  rcases h with h | h
  · exact .inl h
  · exact .inr (.inr ⟨by simp [promoteTo, h], hr⟩)

/-- A change of the release row that keeps it recorded keeps the card authorized. -/
theorem Authorized.withRow {row : Option OperationRow} (h : v.Authorized managed)
    (hrow : v.recorded managed = true → releaseRecorded row managed.board managed.cardId = true) :
    ({ v with row := row } : PromotionView).Authorized managed := by
  rcases h with h | h | ⟨h, hr⟩
  · exact .inl h
  · exact .inr (.inl h)
  · exact .inr (.inr ⟨h, hrow hr⟩)

end PromotionView

/-- The errors that leave a release operation in flight. -/
def KeepsRelease : ControllerError → Prop
  | .valueError _ | .checkedHeadConflict _ | .runPolicy _ => False
  | _ => True

theorem OperationError.keepsRelease {e : ControllerError} (h : OperationError e) :
    KeepsRelease e := by
  cases e <;> simp [OperationError, ControllerError.isDependency, ControllerError.isFatal,
    KeepsRelease] at h ⊢

section Actions

variable {managed : ManagedCard} {v : PromotionView}

/-- Closing a recorded release as done or uncertain keeps it recorded. -/
theorem releaseRecorded_modify {t : Table String OperationRow} {key : String}
    {f : OperationRow → OperationRow} {board : String} {id : CardId}
    (hf : ∀ row, (f row).kind = row.kind ∧ (f row).payload = row.payload ∧
      ((f row).status = .done ∨ (f row).status = .uncertain))
    (h : releaseRecorded (t key) board id = true) :
    releaseRecorded (t.modify key f key) board id = true := by
  cases hrow : t key with
  | none => simp [hrow, releaseRecorded] at h
  | some row =>
    obtain ⟨hk, hp, hs⟩ := hf row
    simp only [hrow, releaseRecorded, Option.any_some, Bool.and_eq_true, beq_iff_eq] at h
    simp only [Table.modify_self, hrow, Option.map_some, releaseRecorded, Option.any_some, hk, hp,
      h.1.1, h.2]
    rcases hs with hs | hs <;> simp [hs]

section Release

variable {key : String} {version : Nat} (hkey : key = managed.idempotencyKey)
include hkey

/-- The claim of the release operation records it, or it is done or refused. -/
theorem claim_safe (hv : v.Authorized managed)
    (honce : v.status = some .blocked → v.resolved = true ∨ v.promoted = 0 ∨
      ∃ row, v.row = some row ∧ row.status = .done ∧ row.result.isSome) :
    SafeFrom managed (fun _ => True) (PromotionView.Authorized managed)
      (fun r v' => r = none → v'.Authorized managed ∧ v'.recorded managed = true ∧
        (v'.status = some .blocked → v'.resolved = true ∨ v'.promoted = 0))
      (store (.operationResult (releaseCall managed.board key managed.cardId version))) v := by
  refine SafeFrom.storeRow
    (o := .operationResult (releaseCall managed.board key managed.cardId version))
    (fun _ _ => trivial) hv fun now s hs => ?_
  have hsame : ({ v with row := s.operations managed.releaseKey } : PromotionView) = v :=
    congrArg (fun row => { v with row }) hs
  simp only [StoreOp.exec, Txn.commit]
  rcases operationResult_cases (releaseCall managed.board key managed.cardId version) now s with
    ⟨e, hx⟩ | ⟨r, hx⟩ | ⟨s', row, hx, rfl, hk, hp, hst, hold⟩ <;> rw [hx] <;> dsimp only
  · exact ⟨by rwa [hsame], trivial⟩
  · exact ⟨by rwa [hsame], fun h => by cases h⟩
  · have hrk : (releaseCall managed.board key managed.cardId version).key = managed.releaseKey := by
      rw [hkey]
      rfl
    rw [hrk] at hold ⊢
    rw [Table.put_self]
    have hrec : releaseRecorded (some row) managed.board managed.cardId = true := by
      simp [releaseRecorded, hk, hp, hst, releaseCall]
    refine ⟨hv.withRow fun _ => hrec, fun _ => ⟨hv.withRow fun _ => hrec, hrec, fun hb => ?_⟩⟩
    rcases honce hb with h | h | ⟨old, hold', hdone, hres⟩
    · exact .inl h
    · exact .inr h
    · exact absurd ⟨hdone, hres⟩ (hold old (hs.trans hold')).2

theorem release_finish (hv : v.Authorized managed) {result : OperationResult} :
    SafeFrom managed KeepsRelease (PromotionView.Authorized managed) (fun _ _ => True)
      (store (.finishOperation (releaseCall managed.board key managed.cardId version).key
        result)) v := by
  refine SafeFrom.storeRow (fun _ h => h.keepsRelease) hv fun now s hs => ⟨?_, trivial⟩
  refine hv.withRow fun hr => ?_
  have hrk : (releaseCall managed.board key managed.cardId version).key = managed.releaseKey := by
    rw [hkey]
    rfl
  simp only [StoreOp.exec, Txn.commit, finishOperation, hrk]
  exact releaseRecorded_modify (fun _ => ⟨rfl, rfl, .inl rfl⟩) (by rw [hs]; exact hr)

/-- An error of the release leaves its operation in flight. -/
theorem release_settle {e : ControllerError} (he : KeepsRelease e) (hv : v.Authorized managed) :
    SafeFrom managed (fun _ => True) (PromotionView.Authorized managed) (fun _ _ => True)
      (settleFailure (releaseCall managed.board key managed.cardId version) e) v := by
  have hrk : (releaseCall managed.board key managed.cardId version).key = managed.releaseKey := by
    rw [hkey]
    rfl
  have huncertain : ∀ text e', SafeFrom managed (fun _ => True) (PromotionView.Authorized managed)
      (fun _ _ => True) ((store (.markOperationUncertain
        (releaseCall managed.board key managed.cardId version).key text)).bind fun _ =>
          (raise e' : Service OperationResult)) v := by
    intro text e'
    refine SafeFrom.bind (Q := fun _ _ => True)
      (SafeFrom.storeRow (fun _ _ => trivial) hv fun now s hs => ⟨?_, trivial⟩)
      fun _ _ h _ => SafeFrom.raise h trivial
    refine hv.withRow fun hr => ?_
    simp only [StoreOp.exec, Txn.commit, markOperationUncertain, hrk]
    exact releaseRecorded_modify (fun _ => ⟨rfl, rfl, .inr rfl⟩) (by rw [hs]; exact hr)
  cases e with
  | superseded => exact SafeFrom.raise hv trivial
  | dependency | runtimeError | permissionError | fatal => exact huncertain _ _
  | valueError | checkedHeadConflict | runPolicy => exact he.elim

end Release

/-- Publishing a card keeps it authorized, unless it promotes the card again. -/
theorem publish_safe {run : RunRecord} {task : TaskRecord}
    (ha : (PromotionAction.publish run task).About managed) (hv : v.Authorized managed)
    (honce : v.status = some .blocked → v.resolved = true ∨ v.promoted = 0 ∨
      ∃ row, v.row = some row ∧ row.status = .done ∧ row.result.isSome) :
    SafeFrom managed (fun _ => True) (PromotionView.Authorized managed) (fun _ _ => True)
      (ensureWorkPublished run task) v := by
  obtain ⟨hboard, hid, hkey⟩ := ha
  have htrue : ∀ e, OperationError e → True := fun _ _ => trivial
  refine (SafeFrom.assertReconcileMutable htrue (fun _ => trivial) hv _).bind
    fun control v₁ hP₁ h₁ => ?_
  subst h₁
  refine (SafeFrom.fromText (fun _ => trivial) hP₁).bind fun record v₂ hP₂ h₂ => ?_
  obtain ⟨hparse, rfl⟩ := h₂
  refine SafeFrom.bind (Q := fun _ _ => True) ?_ fun _ v₃ hP₃ _ => ?_
  · rw [hboard, hid]
    refine SafeFrom.operation (D := KeepsRelease)
      (B := fun v' => v'.Authorized managed ∧ v'.recorded managed = true ∧
        (v'.status = some .blocked → v'.resolved = true ∨ v'.promoted = 0))
      (fun _ h => h.keepsRelease) (fun _ => trivial) hP₂ ?_ ?_ ?_ ?_
    · exact claim_safe (hkey record hparse) hP₂ honce
    · rintro v' ⟨hv', hr, hpro⟩
      exact (SafeFrom.release (fun _ h => h.keepsRelease) (fun _ => trivial) hv'
        fun hb => .promotes hr (hpro hb)).bind fun _ v₄ hP₄ _ => SafeFrom.pure hP₄ trivial
    · exact fun result v' hv' => release_finish (hkey record hparse) hv'
    · exact fun e v' he hv' => release_settle (hkey record hparse) he hv'
  · rw [hboard, hid]
    refine (SafeFrom.task htrue hP₃).bind fun t v₄ hP₄ _ => ?_
    cases t with
    | none => exact SafeFrom.raise hP₄ trivial
    | some t => exact SafeFrom.pure hP₄ trivial

/-- A CAS reclaim leaves the view, or makes a running card ready, and the card is
read once more. -/
theorem reclaimAttempt_safe {runId pid : Nat} (hv : v.Authorized managed) :
    SafeFrom managed (fun _ => True) (PromotionView.Authorized managed)
      (fun t v' => t.map (·.status) = v'.status ∧
        (v' = v ∨ v' = { v with status := some .ready }))
      (reclaimAttempt managed.board managed.cardId runId pid) v := by
  have htrue : ∀ e, OperationError e → True := fun _ _ => trivial
  refine (SafeFrom.task htrue hv).bind fun t v₁ hP₁ ht => ?_
  obtain ⟨rfl, hst⟩ := ht
  cases t with
  | none => exact SafeFrom.raise hP₁ trivial
  | some t =>
    dsimp only
    split
    · split
      · exact SafeFrom.raise hP₁ trivial
      · refine (SafeFrom.reclaim htrue hP₁ fun _ => hP₁).bind fun _ v₂ hP₂ h₂ => ?_
        exact (SafeFrom.task htrue hP₂).mono (fun _ h => h) fun t v₃ h => ⟨h.1 ▸ h.2, .inr (h.1 ▸ h₂)⟩
    · exact (SafeFrom.task htrue hP₁).mono (fun _ h => h) fun t v₃ h => ⟨h.1 ▸ h.2, .inl h.1⟩

/-- Dispatching a card again keeps it authorized, unless it promotes the card again. -/
theorem redispatch_safe {cfg : Config} {run : RunRecord} {row : CardRuntime} {i : WorkerIdentity}
    (ha : run.workspace.board = managed.board) (hv : v.Authorized managed)
    (honce : v.status = some .blocked →
      v.resolved = true ∨ (v.promoted = 0 ∧ v.recorded managed = true)) :
    SafeFrom managed (fun _ => True) (PromotionView.Authorized managed) (fun _ _ => True)
      (redispatchWorker cfg run managed row i) v := by
  have htrue : ∀ e, OperationError e → True := fun _ _ => trivial
  have hpromote : v.status = some .blocked → v.Promotes (PromotionView.Authorized managed) := by
    intro hb
    rcases honce hb with h | ⟨h, hr⟩
    · exact fun _ _ => .inl h
    · exact .promotes hr (.inr h)
  have hstore : ∀ (o : StoreOp) v', v'.Authorized managed → Column.operations ∉ o.writes →
      SafeFrom managed (fun _ => True) (PromotionView.Authorized managed) (fun _ _ => True)
        (store o) v' :=
    fun o v' hv' ho => (SafeFrom.store htrue hv' ho fun _ _ _ _ => trivial).mono (fun _ h => h)
      fun _ _ _ => trivial
  refine SafeFrom.bind (Q := fun _ _ => True) ?_ fun _ v₁ hP₁ _ => ?_
  · rw [ha]
    refine (reclaimAttempt_safe hv).bind fun t v₁ hP₁ h₁ => ?_
    obtain ⟨hst, hview⟩ := h₁
    cases t with
    | none => exact SafeFrom.raise hP₁ trivial
    | some t =>
      dsimp only
      split
      · exact SafeFrom.raise hP₁ trivial
      · split
        · rename_i hb
          have hblocked : v₁.status = some .blocked := by rw [← hst, Option.map_some, hb]
          obtain rfl : v₁ = v := by
            rcases hview with h | h
            · exact h
            · rw [h] at hblocked
              cases hblocked
          refine (SafeFrom.release htrue (fun _ => trivial) hP₁ hpromote).bind fun _ v₂ hP₂ _ => ?_
          refine (SafeFrom.task htrue hP₂).bind fun t v₃ hP₃ _ => ?_
          cases t with
          | none => exact SafeFrom.raise hP₃ trivial
          | some t =>
            dsimp only
            split
            · exact SafeFrom.pure hP₃ trivial
            · exact SafeFrom.raise hP₃ trivial
        · split
          · exact SafeFrom.pure hP₁ trivial
          · exact SafeFrom.raise hP₁ trivial
  · refine SafeFrom.bind (Q := fun _ _ => True) ?_ fun _ v₂ hP₂ _ => ?_
    · exact (SafeFrom.host hP₁).bind fun _ v₂ hP₂ _ => hstore _ v₂ hP₂ (by simp [StoreOp.writes])
    · refine (hstore _ v₂ hP₂ (by simp [StoreOp.writes])).bind fun _ v₃ hP₃ _ => ?_
      split
      · refine SafeFrom.bind (Q := fun _ _ => True) ?_ fun _ v₄ hP₄ _ => ?_
        · exact (hstore _ v₃ hP₃ (by simp [StoreOp.writes])).bind fun _ v₄ hP₄ _ =>
            SafeFrom.pure hP₄ trivial
        · unfold enqueueProgress
          split
          · exact SafeFrom.pure hP₄ trivial
          · exact hstore _ v₄ hP₄ (by simp [StoreOp.writes])
      · exact SafeFrom.pure hP₃ trivial

/-- Releasing a card after its cooldown, from a view in which it may be promoted. -/
theorem releaseCooldown_safe {P : PromotionView → Prop} (hP : P v)
    (hpromote : v.status = some .blocked → v.Promotes P) :
    SafeFrom managed (fun _ => True) P (fun _ _ => True)
      (releaseCooldown managed.board managed.cardId) v := by
  have htrue : ∀ e, OperationError e → True := fun _ _ => trivial
  have hready : ∀ t v', P v' → SafeFrom managed (fun _ => True) P (fun _ _ => True)
      (retryReady managed.board managed.cardId t) v' := by
    intro t v' hP'
    cases t with
    | none => exact SafeFrom.raise hP' trivial
    | some t =>
      unfold retryReady
      dsimp only
      split
      · exact (SafeFrom.store htrue hP' (by simp [StoreOp.writes]) fun _ _ _ _ => trivial).bind
          fun _ _ h _ => SafeFrom.pure h trivial
      · exact SafeFrom.raise hP' trivial
  refine (SafeFrom.task htrue hP).bind fun t v₁ hP₁ ht => ?_
  obtain ⟨rfl, hst⟩ := ht
  cases t with
  | none => exact SafeFrom.raise hP₁ trivial
  | some t =>
    dsimp only
    split
    · exact (SafeFrom.release htrue (fun _ => trivial) hP₁ hpromote).bind fun _ v₂ hP₂ _ =>
        (SafeFrom.task htrue hP₂).bind fun t v₃ hP₃ _ => hready t v₃ hP₃
    · exact hready (some t) v₁ hP₁

/-- The ledger transactions of another operation leave the release row alone. -/
theorem ledger_row {c : OperationCall} {run : Option String} {o : StoreOp} (ho : c.ledger run o)
    (hne : c.key ≠ managed.releaseKey) (now : Nat) (s : Store) :
    (o.exec now s).2.operations managed.releaseKey = s.operations managed.releaseKey := by
  cases o <;> simp only [OperationCall.ledger] at ho
  case runControl => rfl
  case operationResult c' =>
    subst ho
    simp only [StoreOp.exec, Txn.commit]
    rcases operationResult_cases c' now s with ⟨e, hx⟩ | ⟨r, hx⟩ | ⟨s', row, hx, rfl, -⟩ <;> rw [hx]
    exact Table.put_ne _ _ hne.symm
  all_goals
    subst ho
    exact Table.modify_ne _ _ hne.symm

/-- An operation that the ledger answers or refuses leaves the view alone. -/
theorem unclaimed_safe {c : OperationCall} {action : Service OperationResult} {w : World}
    (hno : ∀ w₁, (besideCard managed).others w w₁ →
      ∀ s', operationResult c w₁.now w₁.store ≠ .ok (none, s')) :
    wp machine (besideCard managed) (operation c none action)
      (fun _ w' => promotionView managed w' = promotionView managed w) w := by
  have hclaim : wp machine (besideCard managed) (store (.operationResult c)) (fun r w' =>
      promotionView managed w' = promotionView managed w ∧ r ≠ .returned none) w := by
    have hexec : ∀ w₁, (besideCard managed).others w w₁ →
        (machine.exec (.store (.operationResult c)) w₁).2 = w₁ ∧
        (machine.exec (.store (.operationResult c)) w₁).1 ≠ .ok none := by
      intro w₁ ho
      simp only [machine, Op.exec, StoreOp.exec, Txn.commit]
      rcases operationResult_cases c w₁.now w₁.store with ⟨e, hx⟩ | ⟨r, hx⟩ | ⟨s', row, hx, -⟩
      · simp [hx]
      · simp [hx]
      · exact absurd hx (hno w₁ ho _)
    refine wp_op (o := Op.store (.operationResult c)) (fun w₁ ho => ?_) (fun w₁ ho => ?_)
      fun w₁ ho => ?_
    · exact ⟨⟨ho.1, by simp⟩, fun _ _ => ⟨ho.1, by simp⟩⟩
    · rw [(hexec w₁ ho).1]
      exact ⟨⟨ho.1, by simp⟩, fun _ _ => ⟨ho.1, by simp⟩⟩
    · obtain ⟨h₁, h₂⟩ := hexec w₁ ho
      rcases hx : machine.exec (.store (.operationResult c)) w₁ with ⟨r, w₂⟩
      rw [hx] at h₁ h₂
      obtain rfl : w₂ = w₁ := h₁
      cases r with
      | ok a => exact ⟨ho.1, fun h => h₂ (by cases h; rfl)⟩
      | error e => exact ⟨ho.1, by simp⟩
  rw [operation_unbound]
  refine wp_bind.mpr (wp_mono (fun r w' h => ?_) hclaim)
  cases r with
  | returned a =>
    cases a with
    | none => exact absurd rfl h.2
    | some previous => exact h.1
  | raised e => exact h.1
  | stopped => exact h.1

/-- The release of a cooldown, when the ledger transactions keep `P` and the card may
be promoted under every row its claim leaves. -/
theorem cooldown_operation_safe {P : PromotionView → Prop} {c : OperationCall}
    {R : Option OperationRow → Prop} (hP : P v)
    (hpromote : v.status = some .blocked →
      ∀ row, R row → ({ v with row := row } : PromotionView).Promotes P)
    (hrow : ∀ o, c.ledger none o → ∀ now s v', P v' → s.operations managed.releaseKey = v'.row →
      P { v' with row := (o.exec now s).2.operations managed.releaseKey } ∧
      (v' = v → R ((o.exec now s).2.operations managed.releaseKey))) :
    SafeFrom managed (fun _ => True) P (fun _ _ => True)
      (operation c none (releaseCooldown managed.board managed.cardId)) v := by
  have hstore : ∀ o, c.ledger none o → ∀ v', P v' →
      SafeFrom managed (fun _ => True) P (fun _ _ => True) (store o) v' := by
    intro o ho v' hv'
    refine SafeFrom.storeRow (fun _ _ => trivial) hv' fun now s hs => ⟨(hrow o ho now s v' hv' hs).1, ?_⟩
    rcases o.exec now s with ⟨r, s'⟩
    cases r <;> trivial
  refine SafeFrom.operation (D := fun _ => True)
    (B := fun v' => P v' ∧ ∃ row, R row ∧ v' = { v with row := row })
    (fun _ _ => trivial) (fun _ => trivial) hP ?_ ?_ ?_ ?_
  · refine SafeFrom.storeRow (o := .operationResult c) (fun _ _ => trivial) hP fun now s hs => ?_
    obtain ⟨h₁, h₂⟩ := hrow (.operationResult c) rfl now s v hP hs
    refine ⟨h₁, ?_⟩
    rcases hx : StoreOp.exec now (.operationResult c) s with ⟨r, s'⟩
    rw [hx] at h₁ h₂
    cases r with
    | ok a => exact fun _ => ⟨h₁, _, h₂ rfl, rfl⟩
    | error e => trivial
  · rintro v' ⟨hv', row, hR, rfl⟩
    exact releaseCooldown_safe hv' fun hb => hpromote hb row hR
  · exact fun result v' hv' => hstore (.finishOperation c.key result) rfl v' hv'
  · exact fun e v' _ hv' => settleFailure_closed SafeFrom.closed hstore e v' hv'

end Actions

/-- The release of a cooldown keeps the card authorized, unless it promotes it again. -/
theorem cooldown_safe {managed : ManagedCard} {runKey session : String} {w : World}
    (hv : (promotionView managed w).Authorized managed)
    (honce : PromotesOnce managed w (.cooldown runKey session)) :
    wp machine (besideCard managed)
      (operation (cooldownCall runKey managed.board managed.cardId session) none
        (releaseCooldown managed.board managed.cardId))
      (fun _ w' => (promotionView managed w').Authorized managed) w := by
  have hsame : ∀ {w'}, promotionView managed w' = promotionView managed w →
      (promotionView managed w').Authorized managed := fun h => h ▸ hv
  by_cases hdone : OperationDone w (cooldownCall runKey managed.board managed.cardId session).key
  · refine wp_mono (fun _ _ h => hsame h) (unclaimed_safe fun w₁ ho s' hx => ?_)
    obtain ⟨row, hrow, hst, hres⟩ := ho.2 _ hdone
    obtain ⟨_, hc⟩ := operationResult_claimed hx
    exact (hc.before row hrow).2 ⟨hst, hres⟩
  have honce' : (promotionView managed w).status = some .blocked →
      (promotionView managed w).resolved = true ∨ ((promotionView managed w).promoted = 0 ∧
        (promotionView managed w).recorded managed = true) := by
    intro hb
    rcases honce hb with h | h | h
    · exact .inl h
    · exact .inr h
    · exact absurd h hdone
  by_cases hkey : (cooldownCall runKey managed.board managed.cardId session).key =
      managed.releaseKey
  · cases hr : (promotionView managed w).recorded managed with
    | true =>
      -- The key is taken by the release operation, so the claim is refused.
      refine wp_mono (fun _ _ h => hsame h) (unclaimed_safe fun w₁ ho s' hx => ?_)
      rw [← ho.1] at hr
      obtain ⟨_, hc⟩ := operationResult_claimed hx
      cases hrow : (promotionView managed w₁).row with
      | none => simp [PromotionView.recorded, hrow, releaseRecorded] at hr
      | some row =>
        have hkind := (hc.before row (by rw [hkey]; exact hrow)).1
        simp [PromotionView.recorded, hrow, releaseRecorded, hkind, cooldownCall] at hr
    | false =>
      have hP : (promotionView managed w).resolved = true ∨ (promotionView managed w).promoted = 0 := by
        rcases hv with h | h | ⟨-, h⟩
        · exact .inl h
        · exact .inr h
        · rw [hr] at h
          cases h
      have hopen : SafeFrom managed (fun _ => True)
          (fun v => v.resolved = true ∨ v.promoted = 0) (fun _ _ => True)
          (operation (cooldownCall runKey managed.board managed.cardId session) none
            (releaseCooldown managed.board managed.cardId)) (promotionView managed w) := by
        refine cooldown_operation_safe (R := fun _ => True) hP (fun hb row _ => ?_)
          fun o _ now s v' hv' _ => ⟨hv', fun _ => trivial⟩
        rcases honce' hb with h | ⟨-, h⟩
        · exact fun _ _ => .inl h
        · rw [hr] at h
          cases h
      exact wp_mono (fun r w' h => h.1.elim .inl fun h => .inr (.inl h)) (hopen w rfl)
  · have hother : SafeFrom managed (fun _ => True) (PromotionView.Authorized managed)
        (fun _ _ => True) (operation (cooldownCall runKey managed.board managed.cardId session) none
          (releaseCooldown managed.board managed.cardId)) (promotionView managed w) := by
      refine cooldown_operation_safe (R := fun row => row = (promotionView managed w).row) hv
        (fun hb row hrow => ?_) fun o ho now s v' hv' hs => ?_
      · subst hrow
        rcases honce' hb with h | ⟨h, hr⟩
        · exact fun _ _ => .inl h
        · exact .promotes hr (.inr h)
      · rw [ledger_row ho hkey now s, hs]
        exact ⟨hv', fun h => by rw [h]⟩
    exact wp_mono (fun r w' h => h.1) (hother w rfl)

/-- **An action keeps the card authorized**, however it ends, unless it promotes the
card again. -/
theorem action_safe {managed : ManagedCard} {a : PromotionAction} {w : World}
    (ha : a.About managed) (hv : (promotionView managed w).Authorized managed)
    (honce : PromotesOnce managed w a) :
    wp machine (besideCard managed) (a.program managed)
      (fun _ w' => (promotionView managed w').Authorized managed) w := by
  have hsafe : ∀ {α : Type} {p : Service α}, SafeFrom managed (fun _ => True)
      (PromotionView.Authorized managed) (fun _ _ => True) p (promotionView managed w) →
      wp machine (besideCard managed) p
        (fun _ w' => (promotionView managed w').Authorized managed) w :=
    fun h => wp_mono (fun _ _ h => h.1) (h w rfl)
  cases a with
  | publish run task =>
    exact hsafe ((publish_safe ha hv honce).bind fun _ _ h _ => SafeFrom.pure h trivial)
  | redispatch cfg run row i => exact hsafe (redispatch_safe ha hv honce)
  | cooldown runKey session =>
    refine wp_bind.mpr (wp_mono (fun r w' h => ?_) (cooldown_safe hv honce))
    cases r <;> exact h

/-! ## Every run of actions -/

/-- A move of the others between the actions: workers, dispatcher and humans do as
they like, but do not promote the card, and leave its release operation alone. -/
structure OthersMove (managed : ManagedCard) (w w' : World) : Prop where
  promoted : (promotionView managed w').promoted = (promotionView managed w).promoted
  resolved : (promotionView managed w).resolved = true → (promotionView managed w').resolved = true
  row : (promotionView managed w').row = (promotionView managed w).row

/-- A Controller action on the card that `ok` allows, however it ends, or a move of
the others. -/
inductive CardStep (managed : ManagedCard) (ok : World → PromotionAction → Prop) :
    World → World → Prop
  | act {a : PromotionAction} {w w' : World} {r : Durable.Outcome ControllerError Unit} :
      a.About managed → ok w a → Runs machine (besideCard managed) (a.program managed) w r w' →
      CardStep managed ok w w'
  | move {w w' : World} : OthersMove managed w w' → CardStep managed ok w w'

theorem OthersMove.authorized {managed : ManagedCard} {w w' : World} (h : OthersMove managed w w')
    (hv : (promotionView managed w).Authorized managed) :
    (promotionView managed w').Authorized managed := by
  rcases hv with hv | hv | ⟨hv, hr⟩
  · exact .inl (h.resolved hv)
  · exact .inr (.inl (h.promoted.trans hv))
  · refine .inr (.inr ⟨h.promoted.trans hv, ?_⟩)
    rwa [PromotionView.recorded, h.row]

/-- **The Controller's promotions are authorized while each card is promoted once.**
In every run of actions and moves from a card that was never promoted. -/
theorem promotions_authorized {managed : ManagedCard} {w₀ w : World}
    (h₀ : (promotionView managed w₀).promoted = 0)
    (h : Relation.ReflTransGen (CardStep managed (PromotesOnce managed)) w₀ w) :
    CardAuthorized managed w := by
  have hinv : (promotionView managed w).Authorized managed := by
    induction h with
    | refl => exact .inr (.inl h₀)
    | tail _ hstep ih =>
      cases hstep with
      | act ha hok hr => exact hr.sound (action_safe ha ih hok)
      | move hm => exact hm.authorized ih
  exact cardAuthorized_of_view hinv

/-! ## A card that is promoted twice -/

def sampleRecord : CardRecord where
  run := sampleRun "run-a" "ga" 1
  stage := .implement
  iteration := 1
  idempotencyKey := "run-a:implement:1:normal:work"
  parentCardId := ⟨4⟩
  assignee := "coder"
  skills := []
  contextDigest := "d"
  scratchDir := "/scratch"

/-- Card 5 is created and held. -/
def heldWorld : World where
  store := { runs := [sampleRun "run-a" "ga" 1], managedCards := [sampleCard 5 4 .implement] }
  hermes :=
    { tasks := [{ id := ⟨5⟩, board := "app", body := .work sampleRecord, assignee := some "coder",
                  status := .blocked, createdBy := some "hollysys-controller", createdAt := 10,
                  idempotencyKey := some "run-a:implement:1:normal:work", tenant := some "run-a",
                  skills := [], parents := [⟨4⟩] }]
      nextTask := 6 }
  gitlab := downGitLab
  now := 100

def samplePublish : PromotionAction :=
  .publish (sampleRun "run-a" "ga" 1) (heldWorld.hermes.snapshot (heldWorld.hermes.tasks.head (by decide)))

def sampleRedispatch : PromotionAction :=
  .redispatch sampleConfig (sampleRun "run-a" "ga" 1) {}
    { board := "app", cardId := ⟨5⟩, runId := 3, workerPid := 40 }

/-- Card 5 after its publishing. -/
def publishedWorld : World :=
  (machine.eval (samplePublish.program (sampleCard 5 4 .implement)) heldWorld).2

/-- Hermes has blocked card 5 again. -/
def reblockedWorld : World :=
  { publishedWorld with
    hermes := publishedWorld.hermes.updateTask "app" ⟨5⟩ (·.withStatus .blocked) }

/-- Card 5 after the redispatch of its stale worker. -/
def redispatchedWorld : World :=
  (machine.eval (sampleRedispatch.program (sampleCard 5 4 .implement)) reblockedWorld).2

theorem besideCard_eval {managed : ManagedCard} {α : Type} (p : Service α) (w : World) :
    Runs machine (besideCard managed) p w (machine.eval p w).1 (machine.eval p w).2 :=
  eval_runs (E := besideCard managed) (fun _ => ⟨rfl, fun _ h => h⟩)
    (fun _ _ _ h => by rcases h with h | h <;> cases h) p w

/-- Publish, then redispatch of a card that Hermes blocked: no other actor promotes
the card, and the next reconcile finds an unauthorized promotion. -/
theorem redispatch_unauthorized :
    (promotionView (sampleCard 5 4 .implement) heldWorld).promoted = 0 ∧
    Relation.ReflTransGen (CardStep (sampleCard 5 4 .implement) fun _ _ => True) heldWorld
      redispatchedWorld ∧
    ¬ CardAuthorized (sampleCard 5 4 .implement) redispatchedWorld := by
  refine ⟨by decide +kernel, ?_, ?_⟩
  · have hpublish : CardStep (sampleCard 5 4 .implement) (fun _ _ => True) heldWorld
        publishedWorld :=
      .act (a := samplePublish) ⟨rfl, rfl, fun _ h => by cases h; rfl⟩ trivial (besideCard_eval _ _)
    have hblock : CardStep (sampleCard 5 4 .implement) (fun _ _ => True) publishedWorld
        reblockedWorld :=
      .move ⟨by decide +kernel, by decide +kernel, rfl⟩
    have hredispatch : CardStep (sampleCard 5 4 .implement) (fun _ _ => True) reblockedWorld
        redispatchedWorld :=
      .act (a := sampleRedispatch) rfl trivial (besideCard_eval _ _)
    exact ((Relation.ReflTransGen.single hpublish).tail hblock).tail hredispatch
  · rw [cardAuthorized_iff (t := redispatchedWorld.hermes.tasks.head (by decide +kernel)) rfl]
    have hview : (promotionView (sampleCard 5 4 .implement) redispatchedWorld).promoted = 2 ∧
        (promotionView (sampleCard 5 4 .implement) redispatchedWorld).resolved = false := by
      decide +kernel
    rintro (h | h | ⟨h, -⟩)
    · rw [hview.2] at h
      cases h
    · rw [hview.1] at h
      cases h
    · rw [hview.1] at h
      cases h

/-- After its publishing the card is authorized. -/
theorem publishedWorld_authorized :
    CardAuthorized (sampleCard 5 4 .implement) publishedWorld := by
  have hpublish : CardStep (sampleCard 5 4 .implement) (PromotesOnce (sampleCard 5 4 .implement))
      heldWorld publishedWorld :=
    .act (a := samplePublish) ⟨rfl, rfl, fun _ h => by cases h; rfl⟩
      (fun _ => .inr (.inl (by decide +kernel))) (besideCard_eval _ _)
  exact promotions_authorized (by decide +kernel) (.single hpublish)

end HollysysController
