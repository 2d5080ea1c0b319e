import HollysysController.Bodies
import HollysysController.Stalls

/-! # How a run comes into a state

A body's own operations lead to a few states only. Into the others a run comes
by a transition or by the end of its code flow, and the function that asks for
one is the function to look at. -/

namespace HollysysController

open Durable

/-- The states that the operations of a body lead to by themselves. -/
def bodyStates : List RunState :=
  [.active, .exception, .completed, .aborting, .aborted, .completedBeforeAbort]

/-- The transaction brings no run into the state. -/
def Txn.Avoids (state : RunState) {α : Type} (t : Txn α) : Prop :=
  ∀ s a s', t s = .ok (a, s') → ∀ k, ((s'.runControl k).getD {}).state = state →
    ((s.runControl k).getD {}).state = state

variable {state : RunState}

theorem avoids_put {s s' : Store} {k₀ : String} {row : RunControl}
    (hs : s'.runControl = s.runControl.put k₀ row) (hrow : row.state ≠ state) (k : String)
    (h : ((s'.runControl k).getD {}).state = state) :
    ((s.runControl k).getD {}).state = state := by
  rw [hs, Table.put_apply] at h
  split at h
  · exact absurd h hrow
  · exact h

theorem Txn.Avoids.commit {α : Type} {t : Txn α} (h : t.Avoids state) (s : Store) (k : String)
    (hs : (((t.commit s).2.runControl k).getD {}).state = state) :
    ((s.runControl k).getD {}).state = state := by
  unfold Txn.commit at hs
  split at hs
  · next hx => exact h _ _ _ hx k hs
  · exact hs

theorem transitionRun_avoids {t : Transition} (ht : t.newState ≠ state) (now : Nat) :
    (transitionRun t now).Avoids state := by
  intro s a s' h
  unfold transitionRun at h
  split at h
  · cases h
  · split at h
    · cases h
    · split at h
      · cases h
      · cases h
        exact avoids_put rfl ht

theorem setRunException_avoids (hstate : .exception ≠ state) (runKey reason : String)
    (now : Nat) : (setRunException runKey reason now).Avoids state := by
  intro s a s' h
  unfold setRunException at h
  split at h
  · cases h
  · split at h
    · cases h
      exact fun _ => id
    · exact transitionRun_avoids hstate now s a s' h

theorem markCompleted_avoids (hstate : .completed ≠ state) (runKey : String) (external : Bool)
    (compliance head : String) (merge : Option String) (reason : String) (now : Nat) :
    (markCompleted runKey external compliance head merge reason now).Avoids state := by
  intro s a s' h
  unfold markCompleted at h
  split at h
  · cases h
  · split at h
    · cases h
    · split at h
      · cases h
      · split at h
        · cases h
          exact fun _ => id
        · exact transitionRun_avoids hstate now s a s' h

/-- The end of the code flow leads to the state it is given. -/
theorem markFlowCompleted_avoids {ended : RunState} (hstate : ended ≠ state)
    (runKey head reason : String) (now : Nat) :
    (markFlowCompleted runKey ended head reason now).Avoids state := by
  intro s a s' h
  unfold markFlowCompleted at h
  split at h
  · cases h
  · split at h
    · cases h
    · split at h
      · cases h
      · split at h
        · cases h
          exact fun _ => id
        · exact transitionRun_avoids hstate now s a s' h

/-- A transition is about its own run. -/
theorem transitionRun_other {t : Transition} {k : String} (hkey : t.runKey ≠ k) {now : Nat}
    {s s' : Store} {a : RunControl} (h : transitionRun t now s = .ok (a, s')) :
    s'.runControl k = s.runControl k := by
  unfold transitionRun at h
  split at h
  · cases h
  · split at h
    · cases h
    · split at h <;> cases h
      exact Table.put_ne _ _ (Ne.symm hkey)

/-- The end of the code flow is about its own run. -/
theorem markFlowCompleted_other {key k : String} (hkey : key ≠ k) {ended : RunState}
    {head reason : String} {now : Nat} {s : Store} :
    (StoreOp.exec now (.markFlowCompleted key ended head reason) s).2.runControl k =
      s.runControl k := by
  simp only [StoreOp.exec, Txn.commit]
  split
  · next hx =>
    unfold markFlowCompleted at hx
    split at hx
    · cases hx
    · split at hx
      · cases hx
      · split at hx
        · cases hx
        · split at hx
          · cases hx
            rfl
          · exact transitionRun_other hkey hx
  · rfl

/-- So is the end of a merged run, -/
theorem markCompleted_other {key k : String} (hkey : key ≠ k) {external : Bool}
    {compliance head reason : String} {merge : Option String} {now : Nat} {s : Store} :
    (StoreOp.exec now (.markCompleted key external compliance head merge reason) s).2.runControl k =
      s.runControl k := by
  simp only [StoreOp.exec, Txn.commit]
  split
  · next hx =>
    unfold markCompleted at hx
    split at hx
    · cases hx
    · split at hx
      · cases hx
      · split at hx
        · cases hx
        · split at hx
          · cases hx
            rfl
          · exact transitionRun_other hkey hx
  · rfl

/-- and the end of an abort. -/
theorem finishAbort_other {key k : String} (hkey : key ≠ k) {merged : Bool}
    {head merge : Option String} {now : Nat} {s : Store} :
    (StoreOp.exec now (.finishAbort key merged head merge) s).2.runControl k = s.runControl k := by
  simp only [StoreOp.exec, Txn.commit]
  split
  · next hx =>
    unfold finishAbort at hx
    split at hx
    · cases hx
    · split at hx
      · cases hx
      · split at hx
        · cases hx
          rfl
        · split at hx <;> cases hx
          · exact Table.put_ne _ _ (Ne.symm hkey)
          · rfl
  · rfl

theorem ensureRunControl_avoids (hstate : .active ≠ state) (runKey : String) :
    (ensureRunControl runKey).Avoids state := by
  intro s a s' h
  unfold ensureRunControl at h
  split at h <;> cases h
  · exact fun _ => id
  · exact avoids_put rfl hstate

theorem markAborting_avoids (hstate : .aborting ≠ state) (runKey : String) :
    (markAborting runKey).Avoids state := by
  intro s a s' h
  unfold markAborting at h
  split at h
  · cases h
    exact fun _ => id
  · split at h <;> cases h
    · exact avoids_put rfl hstate
    · exact fun _ => id

theorem finishAbort_avoids {merged : Bool}
    (hstate : (if merged then .completedBeforeAbort else .aborted) ≠ state)
    (runKey : String) (head merge : Option String) (now : Nat) :
    (finishAbort runKey merged head merge now).Avoids state := by
  intro s a s' h
  unfold finishAbort at h
  split at h
  · cases h
  · split at h
    · cases h
    · split at h
      · cases h
        exact fun _ => id
      · split at h <;> cases h
        · exact avoids_put rfl hstate
        · exact fun _ => id

/-- A confirmed abort request asks for an abort. -/
theorem confirmAbortRequest_avoids (hstate : .abortRequested ≠ state) (c : AbortConfirmation)
    (now : Nat) (s : Store) (k : String)
    (h : (((confirmAbortRequest c now s).2.runControl k).getD {}).state = state) :
    ((s.runControl k).getD {}).state = state := by
  have hcommit : (confirmAbortRequest c now s).2 = ((confirmRequest c now).commit s).2 := by
    unfold confirmAbortRequest
    split
    · next hx => rw [hx]
    · next hx => split <;> rw [hx]
  rw [hcommit] at h
  refine Txn.Avoids.commit (fun s a s' hx => ?_) s k h
  rcases confirmRequest_cases c now s with ⟨e, he⟩ | ⟨row, control, s₁, -, hok, hcases⟩
  · rw [he] at hx
    cases hx
  · rw [hok] at hx
    cases hx
    rcases hcases with ⟨r, -, -, -, hput⟩ | ⟨-, -, hsame⟩
    · exact avoids_put hput hstate
    · intro k hk
      rwa [hsame] at hk

/-- A body's store operation brings no run into a state that is not its own. -/
theorem exec_avoids (hstate : state ∉ bodyStates) {o : StoreOp} (ho : o.isBody = true)
    (now : Nat) (s : Store) (k : String)
    (hs : (((o.exec now s).2.runControl k).getD {}).state = state) :
    ((s.runControl k).getD {}).state = state := by
  simp only [bodyStates, List.mem_cons, List.not_mem_nil, or_false, not_or] at hstate
  obtain ⟨hactive, hexception, hcompleted, haborting, haborted, hbefore⟩ := hstate
  by_cases hw : Column.control ∈ o.writes
  · cases o <;> simp only [StoreOp.writes, List.mem_cons, List.not_mem_nil, reduceCtorEq,
      or_self, or_false] at hw <;> first
      | cases ho; done
      | skip
    case ensureRunControl runKey =>
      exact (ensureRunControl_avoids (Ne.symm hactive) runKey).commit s k hs
    case setRunException runKey reason =>
      exact (setRunException_avoids (Ne.symm hexception) runKey reason now).commit s k hs
    case markCompleted runKey external compliance head merge reason =>
      exact (markCompleted_avoids (Ne.symm hcompleted) runKey external compliance head merge
        reason now).commit s k hs
    case markAborting runKey =>
      exact (markAborting_avoids (Ne.symm haborting) runKey).commit s k hs
    case finishAbort runKey merged head merge =>
      refine (finishAbort_avoids ?_ runKey head merge now).commit s k hs
      cases merged
      · exact Ne.symm haborted
      · exact Ne.symm hbefore
  · have hget := o.exec_get (c := .control) now s hw
    simp only [Column.get] at hget
    rwa [hget] at hs

end HollysysController
