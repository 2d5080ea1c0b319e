import HollysysController.Operations
import HollysysController.Durable.Loops

/-! # The rows of the operation ledger

Any sequence of `operation` calls under one key: the first result that is stored
stays, a call that expects something else changes nothing, and the expected
version only grows. -/

namespace HollysysController

open Durable

/-- The ledger row under a key. -/
def ledgerRow (key : String) (w : World) : Option OperationRow := w.store.operations key

/-! ## Rows and calls -/

/-- The call expects what the stored row expects, at its version or a later one. -/
structure OperationCall.Agrees (c : OperationCall) (row : OperationRow) : Prop where
  kind : row.kind = c.kind
  payload : row.payload = c.payload
  head : row.expectedHeadSha = c.expectedHeadSha
  version : versionAdmitted row.expectedStateVersion c.expectedStateVersion = true

/-- An older version is not admitted. -/
theorem OperationCall.not_agrees_of_lt {c : OperationCall} {row : OperationRow}
    {stored expected : Nat} (hs : row.expectedStateVersion = some stored)
    (he : c.expectedStateVersion = some expected) (hlt : expected < stored) : ¬ c.Agrees row := by
  intro h
  have hversion := h.version
  simp only [hs, he, versionAdmitted, decide_eq_true_eq] at hversion
  omega

/-- A row goes on as `new`: a stored result stays as it is, and the version never
decreases. -/
structure RowAdvances (old new : OperationRow) : Prop where
  absorbing : old.status = .done → old.result.isSome = true → new = old
  version : versionAdmitted old.expectedStateVersion new.expectedStateVersion = true

theorem versionAdmitted_refl (v : Option Nat) : versionAdmitted v v = true := by
  cases v <;> simp [versionAdmitted]

theorem versionAdmitted_trans {u v x : Option Nat} (huv : versionAdmitted u v = true)
    (hvx : versionAdmitted v x = true) : versionAdmitted u x = true := by
  cases u <;> cases v <;> cases x <;> simp_all [versionAdmitted]
  omega

theorem RowAdvances.refl (row : OperationRow) : RowAdvances row row :=
  ⟨fun _ _ => rfl, versionAdmitted_refl _⟩

theorem RowAdvances.trans {a b c : OperationRow} (hab : RowAdvances a b) (hbc : RowAdvances b c) :
    RowAdvances a c where
  absorbing hs hr := by
    obtain rfl := hab.absorbing hs hr
    exact hbc.absorbing hs hr
  version := versionAdmitted_trans hab.version hbc.version

/-- What becomes of a row: it is never deleted, and it advances. -/
def RowKept (old new : Option OperationRow) : Prop :=
  ∀ row, old = some row → ∃ row', new = some row' ∧ RowAdvances row row'

theorem RowKept.refl (r : Option OperationRow) : RowKept r r :=
  fun row h => ⟨row, h, .refl row⟩

theorem RowKept.trans {a b c : Option OperationRow} (hab : RowKept a b) (hbc : RowKept b c) :
    RowKept a c := by
  intro row h
  obtain ⟨row₁, h₁, had₁⟩ := hab row h
  obtain ⟨row₂, h₂, had₂⟩ := hbc row₁ h₁
  exact ⟨row₂, h₂, had₁.trans had₂⟩

/-! ## One call of the ledger -/

section Call

variable {c : OperationCall} {now : Nat} {s : Store} {row : OperationRow}

theorem operationResult_refuses (hrow : s.operations c.key = some row) (h : ¬ c.Agrees row) :
    ∃ text, operationResult c now s = .error (.valueError text) := by
  simp only [operationResult, hrow]
  split
  · exact ⟨_, rfl⟩
  · next hsame =>
    simp only [not_or, not_not] at hsame
    split
    · exact ⟨_, rfl⟩
    · next hhead =>
      split
      · exact ⟨_, rfl⟩
      · next hversion =>
        exact absurd ⟨hsame.1, hsame.2, not_not.mp hhead, by simpa using hversion⟩ h

theorem operationResult_replays {result : OperationResult} (hrow : s.operations c.key = some row)
    (hdone : row.status = .done) (hresult : row.result = some result) (h : c.Agrees row) :
    operationResult c now s = .ok (some result, s) := by
  simp [operationResult, hrow, h.kind, h.payload, h.head, h.version, hdone, hresult]

/-- The call claims a stored row: it has no result yet and admits the call's version. -/
structure OperationCall.Claims (c : OperationCall) (row : OperationRow) : Prop where
  unfinished : ¬ (row.status = .done ∧ row.result.isSome = true)
  version : versionAdmitted row.expectedStateVersion c.expectedStateVersion = true

theorem OperationCall.Claims.advances {new : OperationRow} (h : c.Claims row)
    (hnew : new.expectedStateVersion = c.expectedStateVersion) : RowAdvances row new where
  absorbing hs hr := absurd ⟨hs, hr⟩ h.unfinished
  version := by rw [hnew]; exact h.version

/-- A claimed row expects the version of the call. -/
theorem operationResult_claims {s' : Store} (h : operationResult c now s = .ok (none, s')) :
    ∃ row', s'.operations c.key = some row' ∧
      row'.expectedStateVersion = c.expectedStateVersion ∧
      ∀ row, s.operations c.key = some row → c.Claims row := by
  unfold operationResult at h
  cases hrow : s.operations c.key with
  | none =>
    simp only [hrow, Except.ok.injEq, Prod.mk.injEq, true_and] at h
    subst h
    exact ⟨_, Table.put_self _ _ _, rfl, fun row hnone => by cases hnone⟩
  | some row =>
    simp only [hrow] at h
    split at h
    · cases h
    · split at h
      · cases h
      · split at h
        · cases h
        · next hversion =>
          split at h
          · next hdone =>
            obtain ⟨result, hresult⟩ := Option.isSome_iff_exists.mp hdone.2
            simp [hresult] at h
          · next hopen =>
            simp only [Except.ok.injEq, Prod.mk.injEq, true_and] at h
            subst h
            refine ⟨_, Table.put_self _ _ _, rfl, fun old hold => ?_⟩
            cases hold
            exact ⟨hopen, by simpa using hversion⟩

end Call

/-! ## One operation -/

/-- The row of a key is left alone by the others, the store does not fail, and anything
else may raise. -/
def besideRow (key : String) : Setting Op ControllerError World where
  others w w' := ledgerRow key w' = ledgerRow key w
  faults _ o f := (∀ q, o = .store q → f = .none) ∧ f ≠ .stopBefore ∧ f ≠ .stopAfter

theorem besideRow_unstopped {key : String} {α : Type} {p : Service α} {w w' : World} :
    ¬ Runs machine (besideRow key) p w .stopped w' :=
  runs_unstopped fun _ _ _ (hf : _ ∧ _) => hf.2

/-- Operations that do not touch the row of a key, as the action of a call under it. -/
def Op.sparesRow (key : String) : Op → Prop
  | .store o => ∀ now s, (o.exec now s).2.operations key = s.operations key
  | _ => True

section Operation

variable {key : String} {c : OperationCall} {run : Option String}
variable {action : Service OperationResult} {w w' : World} {x : Option OperationRow}

theorem exec_sparesRow {o : Op} (ho : o.sparesRow key) (w : World) :
    ledgerRow key (machine.exec o w).2 = ledgerRow key w := by
  cases o with
  | store q => exact ho w.now w.store
  | hermes q => rfl
  | gitlab q => rfl
  | host q => rfl

/-- What spares the row keeps every property of the row. -/
theorem spares_keeps {α : Type} {p : Service α} (hp : p.Uses (Op.sparesRow key))
    (I : Option OperationRow → Prop) :
    Keeps machine (besideRow key) (fun w => I (ledgerRow key w)) p := fun w hw =>
  wp_invariant (fun v v' hv (ho : ledgerRow key v' = _) => by rwa [ho])
    (fun o v ho hv => by rwa [exec_sparesRow ho]) hp hw

theorem assertVersion_spares (key : String) (run : Option String) (version : Option Nat)
    (text : String) : (assertVersion run version text).Uses (Op.sparesRow key) := by
  unfold assertVersion
  split
  · refine (assertReconcileMutable_closed (closed_uses _)
      (Prog.uses_op (fun _ _ => rfl))).bind fun control => ?_
    split
    · exact trivial
    · exact trivial
  · exact trivial

/-- The ledger's own writes to a claimed row leave its version alone. -/
theorem settle_versions (version : Option Nat) (o : StoreOp)
    (ho : (∃ result, o = .finishOperation key result) ∨ (∃ text, o = .failOperation key text) ∨
      (∃ text, o = .supersedeOperation key text) ∨
      (∃ text, o = .markOperationUncertain key text)) :
    Keeps machine (besideRow key)
      (fun w => ∃ row, ledgerRow key w = some row ∧ row.expectedStateVersion = version)
      (store o) := by
  refine keeps_op (fun v v' hv (hsame : ledgerRow key v' = _) => by rwa [hsame]) ?_
  rintro v ⟨row, hrow, hversion⟩
  have hrow' : v.store.operations key = some row := hrow
  rcases ho with ⟨result, rfl⟩ | ⟨text, rfl⟩ | ⟨text, rfl⟩ | ⟨text, rfl⟩ <;>
    exact ⟨_, (Table.modify_self _ _ _).trans (congrArg (Option.map _) hrow'), hversion⟩

/-- A claimed operation keeps the version of its row. -/
theorem runOperation_keeps (hkey : c.key = key) (haction : action.Uses (Op.sparesRow key))
    (version : Option Nat) :
    Keeps machine (besideRow key)
      (fun w => ∃ row, ledgerRow key w = some row ∧ row.expectedStateVersion = version)
      (runOperation c run action none) := by
  subst hkey
  have hspares := fun {α : Type} {p : Service α} (hp : p.Uses (Op.sparesRow c.key)) =>
    spares_keeps hp fun x => ∃ row, x = some row ∧ row.expectedStateVersion = version
  have hsettle := @settle_versions c.key version
  refine closed_keeps.bind (closed_keeps.attempt ?_) fun r => ?_
  · exact closed_keeps.bind (hspares haction) fun result =>
      closed_keeps.bind (hsettle _ (.inl ⟨_, rfl⟩)) fun _ =>
      closed_keeps.bind (hspares (assertVersion_spares _ _ _ _)) fun _ => closed_keeps.pure _
  · cases r with
    | ok result => exact closed_keeps.pure _
    | error e =>
      cases e with
      | superseded text => exact closed_keeps.raise _
      | dependency kind text context =>
        exact closed_keeps.bind (hsettle _ (.inr (.inr (.inr ⟨_, rfl⟩)))) fun _ =>
          closed_keeps.raise _
      | checkedHeadConflict text =>
        exact closed_keeps.bind (hsettle _ (.inr (.inr (.inl ⟨_, rfl⟩)))) fun _ =>
          closed_keeps.raise _
      | runPolicy text | valueError text =>
        exact closed_keeps.bind (hsettle _ (.inr (.inl ⟨_, rfl⟩))) fun _ =>
          closed_keeps.raise _
      | runtimeError text | permissionError text | fatal text =>
        exact closed_keeps.bind (hsettle _ (.inr (.inr (.inr ⟨_, rfl⟩)))) fun _ =>
          closed_keeps.raise _

/-- The call of the ledger advances the row, and claims it when it has no answer. -/
theorem operationResult_advances (c : OperationCall) (w : World) :
    wp machine (besideRow c.key) (store (.operationResult c)) (fun o w' =>
      RowKept (ledgerRow c.key w) (ledgerRow c.key w') ∧
      (o = .returned none → ∃ row', ledgerRow c.key w' = some row' ∧
        row'.expectedStateVersion = c.expectedStateVersion ∧
        ∀ row, ledgerRow c.key w = some row → c.Claims row)) w := by
  have hcall : ∀ v, ledgerRow c.key v = ledgerRow c.key w →
      RowKept (ledgerRow c.key w)
        (ledgerRow c.key (machine.exec (.store (.operationResult c)) v).2) ∧
      ((machine.exec (.store (.operationResult c)) v).1 = .ok none → ∃ row',
        ledgerRow c.key (machine.exec (.store (.operationResult c)) v).2 = some row' ∧
        row'.expectedStateVersion = c.expectedStateVersion ∧
        ∀ row, ledgerRow c.key w = some row → c.Claims row) := by
    intro v hv
    rw [← hv]
    rcases operationResult_cases c v.now v.store with ⟨e, hx⟩ | ⟨r, hx⟩ | ⟨s', row', hx, -⟩
    · have hexec : machine.exec (.store (.operationResult c)) v = (.error e, v) := by
        simp [machine, Op.exec, StoreOp.exec, Txn.commit, hx]
      rw [hexec]
      exact ⟨.refl _, fun h => by cases h⟩
    · have hexec : machine.exec (.store (.operationResult c)) v = (.ok (some r), v) := by
        simp [machine, Op.exec, StoreOp.exec, Txn.commit, hx]
      rw [hexec]
      exact ⟨.refl _, fun h => by cases h⟩
    · have hexec : machine.exec (.store (.operationResult c)) v =
          (.ok none, { v with store := s' }) := by
        simp [machine, Op.exec, StoreOp.exec, Txn.commit, hx]
      rw [hexec]
      obtain ⟨row', hrow', hversion, hclaims⟩ := operationResult_claims hx
      exact ⟨fun row hrow => ⟨row', hrow', (hclaims row hrow).advances hversion⟩,
        fun _ => ⟨row', hrow', hversion, hclaims⟩⟩
  refine wp_op (fun v ho => ?_) (fun v ho => ?_) fun v ho => ?_
  · have hrefl : RowKept (ledgerRow c.key w) (ledgerRow c.key v) := by
      rw [show ledgerRow c.key v = ledgerRow c.key w from ho]
      exact .refl _
    exact ⟨⟨hrefl, fun h => by cases h⟩, fun e _ => ⟨hrefl, fun h => by cases h⟩⟩
  · exact ⟨⟨(hcall v ho).1, fun h => by cases h⟩, fun e _ => ⟨(hcall v ho).1, fun h => by cases h⟩⟩
  · have h := hcall v ho
    rcases hx : machine.exec (.store (.operationResult c)) v with ⟨r, v'⟩
    rw [hx] at h
    cases r with
    | error e => exact ⟨h.1, fun h => by cases h⟩
    | ok r => exact ⟨h.1, fun hr => h.2 (by cases hr; rfl)⟩

/-- **One operation advances its row.** -/
theorem operation_advances (hkey : c.key = key) (haction : action.Uses (Op.sparesRow key))
    (w : World) :
    wp machine (besideRow key) (operation c run action) (fun _ w' =>
      RowKept (ledgerRow key w) (ledgerRow key w')) w := by
  subst hkey
  unfold operation
  rw [Prog.bind_def, wp_bind]
  refine wp_mono (fun o w₁ (h₁ : ledgerRow c.key w₁ = ledgerRow c.key w) => ?_)
    (spares_keeps (assertVersion_spares c.key run _ _) (· = ledgerRow c.key w) w rfl)
  rw [← h₁]
  cases o with
  | raised e => exact .refl _
  | stopped => exact .refl _
  | returned u =>
    dsimp only
    rw [Prog.bind_def, wp_bind]
    refine wp_mono (fun o w₂ h₂ => ?_) (operationResult_advances c w₁)
    obtain ⟨hadvances, hclaims⟩ := h₂
    cases o with
    | raised e => exact hadvances
    | stopped => exact hadvances
    | returned previous =>
      cases previous with
      | some r => exact hadvances
      | none =>
        obtain ⟨row₂, hrow₂, hversion, hclaims⟩ := hclaims rfl
        refine wp_mono (fun o w₃ h₃ => ?_) (runOperation_keeps rfl haction
          c.expectedStateVersion w₂ ⟨row₂, hrow₂, hversion⟩)
        obtain ⟨row₃, hrow₃, hversion₃⟩ := h₃
        exact fun row hrow => ⟨row₃, hrow₃, (hclaims row hrow).advances hversion₃⟩

/-! ## Refusals and replays -/

/-- The part of an operation before its action. -/
def consult (c : OperationCall) (run : Option String) : Service (Option OperationResult) := do
  assertVersion run c.expectedStateVersion "operation_state_version_changed"
  store (.operationResult c)

theorem operation_consults (c : OperationCall) (run : Option String)
    (action : Service OperationResult) :
    operation c run action = (consult c run).bind (runOperation c run action) :=
  (Prog.bind_assoc _ _ _).symm

/-- A run that may not be reconciled is superseded. -/
theorem assertReconcileMutable_raises (runKey : String) (w : World) :
    wp machine (besideRow key) (assertReconcileMutable runKey)
      (fun o _ => ∀ e, o = .raised e → ∃ text, e = .superseded text) w := by
  have hcontrol : ∀ w, wp machine (besideRow key) (runControl runKey)
      (fun o _ => ∃ control, o = .returned control) w := fun w =>
    wp_bind.mpr (wp_op_calm (fun _ f hf => hf.1 _ rfl) fun v _ => ⟨_, rfl⟩)
  refine wp_bind.mpr (wp_mono (fun o w₁ h₁ => ?_) (hcontrol w))
  obtain ⟨control, rfl⟩ := h₁
  dsimp only
  split
  · exact nofun
  · rintro e ⟨⟩
    exact ⟨_, rfl⟩

/-- The check of a version keeps the row, and can only find the reconcile superseded. -/
theorem assertVersion_row (version : Option Nat) (text : String) (w : World) :
    wp machine (besideRow key) (assertVersion run version text) (fun o w' =>
      ledgerRow key w' = ledgerRow key w ∧
      ∀ e, o = .raised e → run.isSome = true ∧ ∃ text, e = .superseded text) w := by
  have hraises : wp machine (besideRow key) (assertVersion run version text) (fun o _ =>
      ∀ e, o = .raised e → run.isSome = true ∧ ∃ text, e = .superseded text) w := by
    unfold assertVersion
    split
    · refine wp_bind.mpr (wp_mono (fun o w₁ h₁ => ?_) (assertReconcileMutable_raises _ w))
      cases o with
      | raised e =>
        rintro e' ⟨⟩
        exact ⟨rfl, h₁ e rfl⟩
      | stopped => exact nofun
      | returned control =>
        dsimp only
        split
        · rintro e ⟨⟩
          exact ⟨rfl, _, rfl⟩
        · exact nofun
    · exact nofun
  exact wp_of_runs fun o w' hr => ⟨hr.sound (spares_keeps (assertVersion_spares key run version
    text) (· = ledgerRow key w) w rfl), hr.sound hraises⟩

/-- A call that disagrees with the row is refused. -/
theorem consult_refuses {row : OperationRow} (hkey : c.key = key)
    (hrow : ledgerRow key w = some row) (h : ¬ c.Agrees row) :
    wp machine (besideRow key) (consult c run) (fun o w' =>
      (∀ a, o ≠ .returned a) ∧ ledgerRow key w' = some row) w := by
  subst hkey
  unfold consult
  rw [Prog.bind_def, wp_bind]
  refine wp_mono (fun o w₁ h₁ => ?_) (assertVersion_row _ _ w)
  have hrow₁ := h₁.1.trans hrow
  cases o with
  | raised e => exact ⟨by simp, hrow₁⟩
  | stopped => exact ⟨by simp, hrow₁⟩
  | returned u =>
    refine wp_op_calm (fun _ f hf => hf.1 _ rfl) fun v ho => ?_
    have hrow₂ : ledgerRow c.key v = some row := Eq.trans ho hrow₁
    obtain ⟨text, hx⟩ : ∃ text, operationResult c v.now v.store = .error (.valueError text) :=
      operationResult_refuses hrow₂ h
    simp only [machine, Op.exec, StoreOp.exec, Txn.commit, hx]
    exact ⟨by simp, hrow₂⟩

/-- A call that agrees with a done row is answered from it. -/
theorem consult_replays {row : OperationRow} {result : OperationResult} (hkey : c.key = key)
    (hrow : ledgerRow key w = some row) (hdone : row.status = .done)
    (hresult : row.result = some result) (h : c.Agrees row) :
    wp machine (besideRow key) (consult c run) (fun o w' =>
      (∀ a, o = .returned a → a = some result) ∧
      (∀ e, o = .raised e → run.isSome = true ∧ ∃ text, e = .superseded text) ∧
      ledgerRow key w' = some row) w := by
  subst hkey
  unfold consult
  rw [Prog.bind_def, wp_bind]
  refine wp_mono (fun o w₁ h₁ => ?_) (assertVersion_row _ _ w)
  have hrow₁ := h₁.1.trans hrow
  cases o with
  | raised e =>
    refine ⟨by simp, ?_, hrow₁⟩
    rintro e' ⟨⟩
    exact h₁.2 e rfl
  | stopped => exact ⟨by simp, by simp, hrow₁⟩
  | returned u =>
    refine wp_op_calm (fun _ f hf => hf.1 _ rfl) fun v ho => ?_
    have hrow₂ : ledgerRow c.key v = some row := Eq.trans ho hrow₁
    have hx : operationResult c v.now v.store = _ :=
      operationResult_replays hrow₂ hdone hresult h
    simp only [machine, Op.exec, StoreOp.exec, Txn.commit, hx]
    refine ⟨?_, by simp, hrow₂⟩
    rintro a ⟨⟩
    rfl

end Operation

/-! ## Sequences of calls -/

/-- What happens to the row of a key: calls under it, one after the other, whatever the
rest of the world does in between. -/
inductive LedgerRun (key : String) : World → World → Prop where
  | start {w : World} : LedgerRun key w w
  | others {w w₁ w₂ : World} : LedgerRun key w w₁ → ledgerRow key w₂ = ledgerRow key w₁ →
      LedgerRun key w w₂
  | call {w w₁ w₂ : World} {c : OperationCall} {run : Option String}
      {action : Service OperationResult} {o : Durable.Outcome ControllerError OperationResult} :
      LedgerRun key w w₁ → c.key = key → action.Uses (Op.sparesRow key) →
      Runs machine (besideRow key) (operation c run action) w₁ o w₂ → LedgerRun key w w₂

/-- A call that disagrees with a stored row raises, and the row stays as it is. -/
def Refuses (key : String) (w : World) : Prop :=
  ∀ row, ledgerRow key w = some row → ∀ (c : OperationCall) run action, c.key = key →
    ¬ c.Agrees row → ∀ o w', Runs machine (besideRow key) (operation c run action) w o w' →
    (∃ e, o = .raised e) ∧ ledgerRow key w' = some row

/-- A call that agrees with a done row is answered with its result, unless the state of
its run has moved on; the row stays as it is, and the action makes no difference. -/
def Replays (key : String) (w : World) : Prop :=
  ∀ row result, ledgerRow key w = some row → row.status = .done → row.result = some result →
    ∀ (c : OperationCall) run action, c.key = key → c.Agrees row →
    ∀ o w', Runs machine (besideRow key) (operation c run action) w o w' →
    (o = .returned result ∨ run.isSome = true ∧ ∃ text, o = .raised (.superseded text)) ∧
      ledgerRow key w' = some row ∧
      ∀ other, Runs machine (besideRow key) (operation c run other) w o w'

theorem ledger_refuses (key : String) (w : World) : Refuses key w := by
  intro row hrow c run action hkey hdisagrees o w' h
  rw [operation_consults] at h
  have hconsult := fun {o w'} (hr : Runs machine (besideRow key) (consult c run) w o w') =>
    hr.sound (consult_refuses hkey hrow hdisagrees)
  rcases runs_bind.mp h with ⟨a, w₁, hr, -⟩ | ⟨e, hr, rfl⟩ | ⟨hr, -⟩
  · exact absurd rfl ((hconsult hr).1 a)
  · exact ⟨⟨e, rfl⟩, (hconsult hr).2⟩
  · exact absurd hr besideRow_unstopped

theorem ledger_replays (key : String) (w : World) : Replays key w := by
  intro row result hrow hdone hresult c run action hkey hagrees o w' h
  rw [operation_consults] at h
  have hconsult := fun {o w'} (hr : Runs machine (besideRow key) (consult c run) w o w') =>
    hr.sound (consult_replays hkey hrow hdone hresult hagrees)
  refine ⟨?_, ?_, fun other => ?_⟩
  · rcases runs_bind.mp h with ⟨a, w₁, hr, ha⟩ | ⟨e, hr, rfl⟩ | ⟨hr, -⟩
    · obtain rfl := (hconsult hr).1 a rfl
      cases ha
      exact .inl rfl
    · obtain ⟨hrun, text, rfl⟩ := (hconsult hr).2.1 e rfl
      exact .inr ⟨hrun, text, rfl⟩
    · exact absurd hr besideRow_unstopped
  · rcases runs_bind.mp h with ⟨a, w₁, hr, ha⟩ | ⟨e, hr, rfl⟩ | ⟨hr, -⟩
    · have hrow₁ := (hconsult hr).2.2
      obtain rfl := (hconsult hr).1 a rfl
      cases ha
      exact hrow₁
    · exact (hconsult hr).2.2
    · exact absurd hr besideRow_unstopped
  · rw [operation_consults]
    refine runs_bind_congr (fun a w₁ hr => ?_) h
    obtain rfl := (hconsult hr).1 a rfl
    rfl

/-- **The operation ledger.** Along every sequence of calls under one key a stored result
is absorbing and the version never decreases; at its end a call is refused or replayed as
the row says. -/
theorem ledgerRun_laws {key : String} {w w' : World} (h : LedgerRun key w w') :
    RowKept (ledgerRow key w) (ledgerRow key w') ∧ Refuses key w' ∧ Replays key w' := by
  refine ⟨?_, ledger_refuses key w', ledger_replays key w'⟩
  induction h with
  | start => exact .refl _
  | others _ hsame ih => rwa [hsame]
  | call _ hkey haction hr ih =>
    exact ih.trans (hr.sound (operation_advances hkey haction _))

/-! ## A call that stores its result -/

def ledgerWorld : World where
  gitlab := { mr := fun _ _ _ => .error (.valueError "no merge request"), check := fun _ => .ok "" }

def releaseOne : OperationCall where
  key := "release:app:t_1"
  kind := "kanban_release"
  payload := .release "app" ⟨1⟩

def releasedWorld : World :=
  (machine.eval (operation releaseOne none (pure (.released "ready"))) ledgerWorld).2

theorem releasedWorld_run :
    Runs machine (besideRow releaseOne.key) (operation releaseOne none (pure (.released "ready")))
      ledgerWorld (machine.eval (operation releaseOne none (pure (.released "ready"))) ledgerWorld).1
      releasedWorld :=
  eval_runs (E := besideRow releaseOne.key) (fun _ => rfl)
    (fun _ _ => And.intro (fun _ _ => rfl) (And.intro nofun nofun)) _ _

/-- A released card stays released under its key. -/
theorem releasedWorld_laws :
    (ledgerRow releaseOne.key releasedWorld).map (·.status) = some .done ∧
      RowKept (ledgerRow releaseOne.key ledgerWorld) (ledgerRow releaseOne.key releasedWorld) ∧
      Refuses releaseOne.key releasedWorld ∧ Replays releaseOne.key releasedWorld := by
  have haction : (pure (.released "ready") : Service OperationResult).Uses
    (Op.sparesRow releaseOne.key) := trivial
  exact ⟨by decide +kernel, ledgerRun_laws (.call .start rfl haction releasedWorld_run)⟩

end HollysysController
