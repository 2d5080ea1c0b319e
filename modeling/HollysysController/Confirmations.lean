import HollysysController.Columns

/-! # Confirmations of an abort

`confirm_abort_request` commits before it looks at the run it has read. What a
confirmation that raises leaves of the two tables, and what becomes of the token of
one that succeeds. -/

namespace HollysysController

/-- The store after operations, each at its time. -/
def afterOps : List (StoreOp × Nat) → Store → Store
  | [], s => s
  | (o, now) :: ops, s => afterOps ops (o.exec now s).2

/-- The token is the one of the request: no other request carries it, and none is created
with it. -/
structure TokenOf (token : String) (row : AbortRow) (s : Store) (ops : List (StoreOp × Nat)) :
    Prop where
  stored : ∀ r ∈ s.abortRequests, r.tokenHash = token → r.requestId = row.requestId
  drawn : ∀ created now, (StoreOp.createAbortRequest created, now) ∈ ops →
    created.tokenHash ≠ token

/-- What `confirm_abort_request` owes. When it raises both tables are as before; when it
succeeds no later confirmation with the token does, whatever happens in between. -/
def ConfirmationLaw (c : AbortConfirmation) (now : Nat) (s : Store) : Prop :=
  match confirmAbortRequest c now s with
  | (.error _, s') => s'.abortRequests = s.abortRequests ∧ s'.runControl = s.runControl
  | (.ok _, s') => ∀ row ops, s.pendingAbort c.runKey = some row → TokenOf c.tokenHash row s ops →
      ∀ c' now', c'.tokenHash = c.tokenHash →
        ∃ e, (confirmAbortRequest c' now' (afterOps ops s')).1 = .error e

/-- The confirmation is the one that the pending request waits for, but the run can no longer
be aborted and is not about to be. -/
def Superseded (c : AbortConfirmation) (now : Nat) (s : Store) : Prop :=
  ∃ row, s.pendingAbort c.runKey = some row ∧ now ≤ row.expiresAt ∧ c.matchesRequest row = true ∧
    ∀ control, s.runControl c.runKey = some control →
      control.state ∉ abortableStates ∧ control.state ≠ .abortRequested

/-! ## Tokens that no pending request carries -/

/-- No pending request carries the token. -/
def Store.Spent (s : Store) (token : String) : Prop :=
  ∀ r ∈ s.abortRequests, r.tokenHash = token → r.status ≠ .pending

theorem pendingAbort_some {s : Store} {runKey : String} {row : AbortRow}
    (h : s.pendingAbort runKey = some row) :
    row ∈ s.abortRequests ∧ row.runKey = runKey ∧ row.status = .pending := by
  have hmem := List.mem_of_mem_head? h
  rw [List.mem_insertionSort, List.mem_filter] at hmem
  simpa using hmem

/-- A confirmation that goes through matches a pending request. -/
theorem confirmRequest_ok {c : AbortConfirmation} {now : Nat} {s s' : Store}
    {control : Option RunControl} (h : confirmRequest c now s = .ok (control, s')) :
    ∃ row, s.pendingAbort c.runKey = some row ∧ now ≤ row.expiresAt ∧
      c.matchesRequest row = true ∧
      s'.abortRequests = s.abortRequests.map fun r => if r.requestId = row.requestId then
        { r with status := .confirmed, confirmMessageId := some c.messageId } else r := by
  unfold confirmRequest at h
  split at h
  · cases h
  · rename_i row hrow
    split at h
    · cases h
    · rename_i hexpired
      split at h
      · cases h
      · rename_i hmatch
        refine ⟨row, hrow, not_lt.mp hexpired, by simpa using hmatch, ?_⟩
        dsimp only at h
        split at h
        · cases h
          rfl
        · split at h <;> cases h <;> rfl

/-- A spent token confirms nothing. -/
theorem Store.Spent.refused {s : Store} {c : AbortConfirmation} (h : s.Spent c.tokenHash)
    (now : Nat) : ∃ e, (confirmAbortRequest c now s).1 = .error e := by
  cases hc : confirmRequest c now s with
  | error e => exact ⟨e, by simp [confirmAbortRequest, Txn.commit, hc]⟩
  | ok r =>
    obtain ⟨row, hrow, -, hmatch, -⟩ := confirmRequest_ok hc
    obtain ⟨hmem, -, hpending⟩ := pendingAbort_some hrow
    simp only [AbortConfirmation.matchesRequest, Bool.and_eq_true, beq_iff_eq] at hmatch
    exact absurd hpending (h row hmem hmatch.1.1.1)

/-- Requests that are rewritten without a new pending one keep a token spent. -/
theorem Store.Spent.map {s s' : Store} {token : String} {f : AbortRow → AbortRow}
    (h : s.Spent token) (hs' : s'.abortRequests = s.abortRequests.map f)
    (htoken : ∀ r, (f r).tokenHash = r.tokenHash)
    (hstatus : ∀ r, (f r).status = .pending → r.status = .pending) : s'.Spent token := by
  intro r hr ht hp
  rw [hs'] at hr
  obtain ⟨r₀, hr₀, rfl⟩ := List.mem_map.mp hr
  exact h r₀ hr₀ ((htoken r₀).symm.trans ht) (hstatus r₀ hp)

theorem createAbortRequest_spent {row : AbortRow} {now : Nat} {s s' : Store} {u : Unit}
    {token : String} (h : createAbortRequest row now s = .ok (u, s')) (hs : s.Spent token)
    (hnew : row.tokenHash ≠ token) : s'.Spent token := by
  unfold createAbortRequest at h
  split at h
  · cases h
  · split at h
    · cases h
    · split at h
      · cases h
      · cases h
        intro r hr ht hp
        rcases List.mem_append.mp hr with hr | hr
        · obtain ⟨r₀, hr₀, rfl⟩ := List.mem_map.mp hr
          split at hp
          · cases hp
          · rename_i hne
            rw [if_neg hne] at ht
            exact hs r₀ hr₀ ht hp
        · rw [List.mem_singleton] at hr
          subst hr
          exact hnew ht

theorem confirmAbortRequest_store (c : AbortConfirmation) (now : Nat) (s : Store) :
    (confirmAbortRequest c now s).2 = ((confirmRequest c now).commit s).2 := by
  unfold confirmAbortRequest
  split
  · rename_i heq
    rw [heq]
  · rename_i heq
    rw [heq]
    split <;> rfl

/-- An operation that creates no request with the token keeps it spent. -/
theorem exec_spent {o : StoreOp} {now : Nat} {s : Store} {token : String} (h : s.Spent token)
    (hnew : ∀ row, o = .createAbortRequest row → row.tokenHash ≠ token) :
    (o.exec now s).2.Spent token := by
  by_cases hw : Column.aborts ∈ o.writes
  · cases o <;> first | (simp [StoreOp.writes] at hw; done) | skip
    case createAbortRequest row =>
      simp only [StoreOp.exec, Txn.commit]
      split
      · rename_i heq
        exact createAbortRequest_spent heq h (hnew row rfl)
      · exact h
    case confirmAbortRequest c =>
      simp only [StoreOp.exec, confirmAbortRequest_store, Txn.commit]
      split
      · rename_i heq
        obtain ⟨row, -, -, -, hmap⟩ := confirmRequest_ok heq
        refine h.map hmap (fun r => ?_) (fun r hr => ?_)
        · split <;> rfl
        · split at hr
          · cases hr
          · exact hr
      · exact h
  · have hget := o.exec_get (c := .aborts) now s hw
    simp only [Column.get] at hget
    intro r hr
    rw [hget] at hr
    exact h r hr

theorem afterOps_spent {ops : List (StoreOp × Nat)} {s : Store} {token : String}
    (h : s.Spent token) (hnew : ∀ created now, (StoreOp.createAbortRequest created, now) ∈ ops →
      created.tokenHash ≠ token) : (afterOps ops s).Spent token := by
  induction ops generalizing s with
  | nil => exact h
  | cons entry ops ih =>
    obtain ⟨o, now⟩ := entry
    refine ih (exec_spent h fun row ho => ?_) fun created now' hmem =>
      hnew created now' (List.mem_cons_of_mem _ hmem)
    subst ho
    exact hnew row now List.mem_cons_self

/-! ## The law -/

/-- A confirmation that goes through is answered unless it is superseded. -/
theorem confirmRequest_judged {c : AbortConfirmation} {now : Nat} {s s' : Store}
    {control : Option RunControl} (h : confirmRequest c now s = .ok (control, s')) :
    control.filter (·.state == .abortRequested) = none ↔ Superseded c now s := by
  obtain ⟨row, hrow, hnow, hmatch, -⟩ := confirmRequest_ok h
  rcases confirmRequest_cases c now s with ⟨e, he⟩ | ⟨row', control', s'', hrow', hok, hcases⟩
  · rw [h] at he
    cases he
  · rw [h] at hok
    cases hok
    rcases hcases with ⟨r, hr, habortable, hcontrol, -⟩ | ⟨hnot, hcontrol, -⟩
    · constructor
      · intro hnone
        rw [hcontrol] at hnone
        simp [RunControl.abortConfirmed] at hnone
      · rintro ⟨-, -, -, -, hstate⟩
        exact absurd habortable (hstate r hr).1
    · rw [hcontrol]
      constructor
      · intro hnone
        refine ⟨row, hrow, hnow, hmatch, fun r hr => ⟨hnot r hr, fun hstate => ?_⟩⟩
        simp [hr, hstate] at hnone
      · rintro ⟨-, -, -, -, hstate⟩
        cases hr : s.runControl c.runKey with
        | none => rfl
        | some r => simp [(hstate r hr).2]

/-- A confirmation that goes through changes the requests. -/
theorem confirmRequest_changes {c : AbortConfirmation} {now : Nat} {s s' : Store}
    {control : Option RunControl} (h : confirmRequest c now s = .ok (control, s')) :
    s'.abortRequests ≠ s.abortRequests := by
  obtain ⟨row, hrow, -, -, hmap⟩ := confirmRequest_ok h
  obtain ⟨hmem, -, hpending⟩ := pendingAbort_some hrow
  intro hsame
  rw [hmap] at hsame
  have hrow' := List.map_inj_left.mp (hsame.trans (List.map_id _).symm) row hmem
  rw [if_pos rfl, id_eq] at hrow'
  have hstatus := congrArg AbortRow.status hrow'
  rw [hpending] at hstatus
  cases hstatus

/-- A confirmation that goes through spends the token of the request. -/
theorem confirmRequest_spends {c : AbortConfirmation} {now : Nat} {s s' : Store}
    {control : Option RunControl} {row : AbortRow}
    (h : confirmRequest c now s = .ok (control, s')) (hrow : s.pendingAbort c.runKey = some row)
    (htoken : ∀ r ∈ s.abortRequests, r.tokenHash = c.tokenHash → r.requestId = row.requestId) :
    s'.Spent c.tokenHash := by
  obtain ⟨row', hrow', -, -, hmap⟩ := confirmRequest_ok h
  rw [hrow] at hrow'
  cases hrow'
  intro r hr ht
  rw [hmap] at hr
  obtain ⟨r₀, hr₀, rfl⟩ := List.mem_map.mp hr
  by_cases hid : r₀.requestId = row.requestId
  · simp [hid]
  · rw [if_neg hid] at ht
    exact absurd (htoken r₀ hr₀ ht) hid

/-- **Exactly when a confirmation keeps its law.** It does unless it is superseded: then the
request is confirmed, the run is not, and the call raises. -/
theorem confirmationLaw_iff (c : AbortConfirmation) (now : Nat) (s : Store) :
    ConfirmationLaw c now s ↔ ¬ Superseded c now s := by
  cases hc : confirmRequest c now s with
  | error e =>
    have hraises : confirmAbortRequest c now s = (.error e, s) := by
      simp [confirmAbortRequest, Txn.commit, hc]
    have hnot : ¬ Superseded c now s := by
      rintro ⟨row, hrow, hnow, hmatch, -⟩
      unfold confirmRequest at hc
      simp only [hrow, if_neg (not_lt.mpr hnow), hmatch, Bool.not_true, Bool.false_eq_true,
        if_false] at hc
      split at hc
      · cases hc
      · split at hc <;> cases hc
    rw [ConfirmationLaw, hraises]
    exact iff_of_true ⟨rfl, rfl⟩ hnot
  | ok r =>
    obtain ⟨control, s'⟩ := r
    have hjudged := confirmRequest_judged hc
    cases hcontrol : control.filter (·.state == .abortRequested) with
    | none =>
      have hraises : confirmAbortRequest c now s =
          (.error (.valueError "run is no longer active"), s') := by
        simp [confirmAbortRequest, Txn.commit, hc, hcontrol]
      rw [ConfirmationLaw, hraises]
      exact iff_of_false (fun hsame => confirmRequest_changes hc hsame.1)
        (not_not_intro (hjudged.mp hcontrol))
    | some updated =>
      have hanswers : confirmAbortRequest c now s = (.ok updated, s') := by
        simp [confirmAbortRequest, Txn.commit, hc, hcontrol]
      rw [ConfirmationLaw, hanswers]
      refine iff_of_true ?_ fun hsuperseded => ?_
      · intro row ops hrow htoken c' now' hc'
        have hspent := confirmRequest_spends hc hrow htoken.stored
        rw [← hc'] at hspent htoken
        exact (afterOps_spent hspent htoken.drawn).refused now'
      · rw [hjudged.mpr hsuperseded] at hcontrol
        cases hcontrol

/-- A run that was completed while the confirmation of its abort was on its way. -/
def completedStore : Store where
  runControl := (Durable.Table.empty).put "run-a" { state := .completed }
  abortRequests :=
    [{ requestId := "abort:m1", runKey := "run-a", tokenHash := "hash", sender := "ou_1",
       chatId := "oc_1", threadId := none, reason := "stop", expiresAt := 600 }]

def lateConfirmation : AbortConfirmation where
  runKey := "run-a"
  tokenHash := "hash"
  sender := "ou_1"
  chatId := "oc_1"
  threadId := none
  messageId := "m2"

/-- The call raises, and the request is confirmed. -/
theorem lateConfirmation_confirmed : ¬ ConfirmationLaw lateConfirmation 10 completedStore := by
  intro hlaw
  have hstatus : (match confirmAbortRequest lateConfirmation 10 completedStore with
      | (.error _, s') => s'.abortRequests.map (·.status)
      | (.ok _, _) => []) = [.confirmed] := by
    decide +kernel
  unfold ConfirmationLaw at hlaw
  split at hlaw
  · rename_i s' heq
    rw [heq] at hstatus
    have hconfirmed : s'.abortRequests.map (·.status) = [.confirmed] := hstatus
    rw [hlaw.1] at hconfirmed
    revert hconfirmed
    decide
  · rename_i heq
    rw [heq] at hstatus
    cases hstatus

end HollysysController
