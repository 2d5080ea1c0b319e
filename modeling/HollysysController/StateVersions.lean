import HollysysController.Delivery
import HollysysController.Durable.Sql
import HollysysController.Durable.Steps

/-! # The versions of a run's state

`transition_run`, `confirm_abort_request`, `mark_aborting` and `finish_abort`,
statement by statement, for any number of threads. Each reads first and writes
later, so what holds at its `UPDATE` is what the `WHERE` clause asks for again. -/

namespace HollysysController

open Durable

/-- A call that writes the state of a run. -/
inductive ControlCall where
  | transition (t : Transition)
  | confirm (c : AbortConfirmation)
  | aborting (runKey : String)
  | finish (runKey : String) (merged : Bool) (checkedHead mergeCommitSha : Option String)
  deriving DecidableEq, Repr

/-- What a call returns: the row it read last, if any. -/
abbrev ControlAnswer := Except ControllerError (Option RunControl)

/-- Where a thread stands in a call. -/
inductive ControlPlace where
  | called (c : ControlCall)
  | timed (c : ControlCall) (now : Nat)
  | transitionUpdate (t : Transition) (version now : Nat)
  | transitionRead (t : Transition)
  | confirmExpire (requestId : String)
  | confirmRequest (c : AbortConfirmation) (row : AbortRow) (now : Nat)
  | confirmUpdate (c : AbortConfirmation) (row : AbortRow) (now : Nat)
  | confirmRead (c : AbortConfirmation)
  | confirmClosing (control : Option RunControl)
  | closing (answer : ControlAnswer)
  | answer (answer : ControlAnswer)

def Store.updateAborts (s : Store) (requestId : String) (f : AbortRow → AbortRow) : Store :=
  { s with abortRequests := s.abortRequests.map fun r => if r.requestId = requestId then f r else r }

/-- `UPDATE run_control … WHERE run_key=? AND p`, and whether a row was there. -/
def Store.updateControl (s : Store) (runKey : String) (p : RunControl → Bool)
    (f : RunControl → RunControl) : Store × Bool :=
  match (s.runControl runKey).filter p with
  | some row => ({ s with runControl := s.runControl.put runKey (f row) }, true)
  | none => (s, false)

def staleVersion : ControllerError := .valueError "stale_run_version"

/-- What `finish_abort` checks of its arguments. -/
def finishRefused (merged : Bool) (checkedHead mergeCommitSha : Option String) : Option String :=
  if merged ∧ !checkedHead.any isSha then
    some "completed_before_abort requires a valid checked head SHA"
  else if mergeCommitSha.any (!isSha ·) then some "abort terminal has an invalid merge commit SHA"
  else none

/-- The statement at each place. -/
def controlStmt : ControlPlace → Stmt ControlPlace Store
  | .called (.finish runKey merged checkedHead mergeCommitSha) => .now fun now =>
    match finishRefused merged checkedHead mergeCommitSha with
    | some text => .answer (.error (.valueError text))
    | none => .timed (.finish runKey merged checkedHead mergeCommitSha) now
  | .called c => .now (.timed c)
  | .timed (.transition t) now => .select fun s =>
    match s.runControl t.runKey with
    | none => .answer (.error (.valueError s!"unknown_run:{t.runKey}"))
    | some row =>
      if row.state ∉ t.expectedStates then .answer (.error (.valueError "invalid_run_transition"))
      else if t.expectedVersion.any (· != row.stateVersion) then .answer (.error staleVersion)
      else .transitionUpdate t row.stateVersion now
  | .transitionUpdate t version now => .write fun s =>
    let (s', updated) := s.updateControl t.runKey (·.stateVersion == version) (t.apply now)
    (s', if updated then .transitionRead t else .answer (.error staleVersion))
  | .transitionRead t => .select fun s => .closing (.ok (s.runControl t.runKey))
  | .timed (.confirm c) now => .select fun s =>
    match s.pendingAbort c.runKey with
    | none => .answer (.error (.valueError "no pending abort request"))
    | some row =>
      if row.expiresAt < now then .confirmExpire row.requestId
      else if !c.matchesRequest row then
        .answer (.error (.permissionError
          "abort confirmation must match token, requester, and channel"))
      else .confirmRequest c row now
  | .confirmExpire requestId => .write fun s =>
    -- the error that follows rolls this back
    (s.updateAborts requestId ({ · with status := .expired }),
      .answer (.error (.valueError "abort confirmation token expired")))
  | .confirmRequest c row now => .write fun s =>
    (s.updateAborts row.requestId
        ({ · with status := .confirmed, confirmMessageId := some c.messageId }),
      .confirmUpdate c row now)
  | .confirmUpdate c row now => .write fun s =>
    ((s.updateControl c.runKey (abortableStates.contains ·.state)
        (·.abortConfirmed row c.sender now)).1, .confirmRead c)
  | .confirmRead c => .select fun s => .confirmClosing (s.runControl c.runKey)
  | .confirmClosing control => .commit <| .answer <|
    match control.filter (·.state == .abortRequested) with
    | some row => .ok (some row)
    | none => .error (.valueError "run is no longer active")
  | .timed (.aborting runKey) _ => .write fun s =>
    ((s.updateControl runKey (·.state == .abortRequested) (·.abortStarted)).1, .closing (.ok none))
  | .timed (.finish runKey merged checkedHead mergeCommitSha) now => .write fun s =>
    ((s.updateControl runKey (fun r => r.state == .abortRequested || r.state == .aborting)
        (·.abortFinished merged checkedHead mergeCommitSha now)).1, .closing (.ok none))
  | .closing answer => .commit (.answer answer)
  | .answer _ => .leave

/-- The places between the first write of a call and its commit. -/
def ControlPlace.inside : ControlPlace → Bool
  | .transitionRead _ | .confirmUpdate _ _ _ | .confirmRead _ | .confirmClosing _ | .closing _ =>
    true
  | _ => false

def controlCalls (W : Type) : Protocol W ControlCall ControlPlace Store where
  entry := .called
  stmt _ := controlStmt
  inside p := p.inside
  entry_outside _ := by simp [ControlPlace.inside]
  outside _ p hp := by
    rcases p with (_ | _ | _ | _) | ⟨_ | _ | _ | _, now⟩ | _ | _ | _ | _ | _ | _ | _ | _ | _
    case called.finish =>
      intro now
      dsimp only
      split <;> exact Bool.false_ne_true
    case timed.transition | timed.confirm =>
      intro s
      dsimp only
      repeat' split
      all_goals exact Bool.false_ne_true
    case transitionRead | confirmRead => exact absurd rfl hp
    all_goals first | trivial | exact fun _ => Bool.false_ne_true
  commit_outside _ p k hs := by
    rcases p with (_ | _ | _ | _) | ⟨_ | _ | _ | _, now⟩ | _ | _ | _ | _ | _ | _ | _ | _ | _ <;>
      cases hs <;> simp [ControlPlace.inside]

/-- The database with the threads on it. -/
abbrev ControlDb (W : Type) := Db W ControlPlace Store

/-! ## The transactions -/

/-- The run that the transaction opened at a place is about. -/
def ControlPlace.runKey : ControlPlace → Option String
  | .transitionUpdate t _ _ => some t.runKey
  | .confirmRequest c _ _ => some c.runKey
  | .timed (.aborting runKey) _ | .timed (.finish runKey _ _ _) _ => some runKey
  | _ => none

/-- What the transaction opened at a place writes over a row. -/
inductive StateWrite : ControlPlace → RunControl → RunControl → Prop
  | transition {t version now row} : row.stateVersion = version →
      StateWrite (.transitionUpdate t version now) row (t.apply now row)
  | confirm {c request now row} : row.state ∈ abortableStates →
      StateWrite (.confirmRequest c request now) row (row.abortConfirmed request c.sender now)
  | aborting {runKey now row} : row.state = .abortRequested →
      StateWrite (.timed (.aborting runKey) now) row row.abortStarted
  | finish {runKey merged checkedHead mergeCommitSha now row} :
      row.state = .abortRequested ∨ row.state = .aborting →
      StateWrite (.timed (.finish runKey merged checkedHead mergeCommitSha) now) row
        (row.abortFinished merged checkedHead mergeCommitSha now)

theorem StateWrite.version {p₀ : ControlPlace} {row row' : RunControl}
    (h : StateWrite p₀ row row') : row'.stateVersion = row.stateVersion + 1 := by
  cases h <;> rfl

/-- The transaction has left the states alone, or has written that of its run once. -/
def Wrote (p₀ : ControlPlace) (s t : Store) : Prop :=
  t.runControl = s.runControl ∨ ∃ k row row', p₀.runKey = some k ∧ s.runControl k = some row ∧
    StateWrite p₀ row row' ∧ t.runControl = s.runControl.put k row'

theorem updateControl_wrote {p₀ : ControlPlace} {s : Store} {runKey : String}
    {p : RunControl → Bool} {f : RunControl → RunControl} (hkey : p₀.runKey = some runKey)
    (hf : ∀ row, p row = true → StateWrite p₀ row (f row)) :
    Wrote p₀ s (s.updateControl runKey p f).1 := by
  unfold Store.updateControl
  split
  · next row hrow =>
    obtain ⟨hrow, hp⟩ := Option.filter_eq_some_iff.mp hrow
    exact .inr ⟨runKey, row, f row, hkey, hrow, hf row hp, rfl⟩
  · exact .inl rfl

/-- What an open transaction has done when it stands at a place. -/
def InsideControl (p₀ : ControlPlace) (s : Store) : ControlPlace → Store → Prop
  | .transitionRead t, u => ∃ version now row, p₀ = .transitionUpdate t version now ∧
      s.runControl t.runKey = some row ∧ row.stateVersion = version ∧
      u.runControl = s.runControl.put t.runKey (t.apply now row)
  | .confirmUpdate c row now, u => p₀ = .confirmRequest c row now ∧ u.runControl = s.runControl
  | .confirmRead _, u | .confirmClosing _, u =>
    Wrote p₀ s u ∧ ∃ c row now, p₀ = .confirmRequest c row now
  | .closing answer, u => Wrote p₀ s u ∧ ∀ t version now, p₀ = .transitionUpdate t version now →
      ∃ row, s.runControl t.runKey = some row ∧ row.stateVersion = version ∧
        answer = .ok (some (t.apply now row)) ∧
        u.runControl = s.runControl.put t.runKey (t.apply now row)
  | .answer _, _ => True
  | _, _ => False

variable {W : Type} [DecidableEq W]

omit [DecidableEq W] in
theorem block_insideControl {w : W} {p₀ p : ControlPlace} {s t : Store}
    (h₀ : p₀.inside = false) (h : Block (controlCalls W) w p₀ s p t) : InsideControl p₀ s p t := by
  induction h with
  | @begin k hs =>
    rcases p₀ with (_ | _ | _ | _) | ⟨_ | _ | _ | _, now⟩ | _ | _ | _ | _ | _ | _ | _ | _ | _ <;>
      cases hs
  | @first f hs =>
    rcases p₀ with (_ | _ | _ | _) | ⟨_ | _ | _ | _, now⟩ | _ | _ | _ | _ | _ | _ | _ | _ | _ <;>
      cases hs
    · exact ⟨updateControl_wrote rfl fun row h => .aborting (by simpa using h), by simp⟩
    · exact ⟨updateControl_wrote rfl fun row h => .finish (by simpa using h), by simp⟩
    · next t version now =>
      dsimp only [Store.updateControl]
      split
      · next row hrow =>
        obtain ⟨hrow, hversion⟩ := Option.filter_eq_some_iff.mp hrow
        exact ⟨version, now, row, rfl, hrow, by simpa using hversion, rfl⟩
      · trivial
    · trivial
    · exact ⟨rfl, rfl⟩
    · cases h₀
  | @now p t k n _ hs ih =>
    rcases p with (_ | _ | _ | _) | ⟨_ | _ | _ | _, now⟩ | _ | _ | _ | _ | _ | _ | _ | _ | _ <;>
      cases hs <;> cases ih
  | @select p t k _ hs ih =>
    rcases p with (_ | _ | _ | _) | ⟨_ | _ | _ | _, now⟩ | _ | _ | _ | _ | _ | _ | _ | _ | _ <;>
      cases hs
    · cases ih
    · cases ih
    · obtain ⟨version, now, row, rfl, hrow, hversion, hput⟩ := ih
      refine ⟨.inr ⟨_, row, _, rfl, hrow, .transition hversion, hput⟩, fun t' v n heq => ?_⟩
      cases heq
      exact ⟨row, hrow, hversion, by simp [hput], hput⟩
    · exact ih
  | @write p t f _ hs ih =>
    rcases p with (_ | _ | _ | _) | ⟨_ | _ | _ | _, now⟩ | _ | _ | _ | _ | _ | _ | _ | _ | _ <;>
      cases hs
    · cases ih
    · cases ih
    · cases ih
    · trivial
    · cases ih
    · next c row now _ =>
      obtain ⟨rfl, hsame⟩ := ih
      have hwrote : Wrote (.confirmRequest c row now) t (t.updateControl c.runKey
          (abortableStates.contains ·.state) (·.abortConfirmed row c.sender now)).1 :=
        updateControl_wrote rfl fun r hr => .confirm (by simpa using hr)
      exact ⟨by rwa [Wrote, hsame] at hwrote, c, row, now, rfl⟩

/-- A commit ends the transaction of a call that has not failed. -/
structure Committed (s s' : ControlDb W) (p₀ k : ControlPlace) : Prop where
  answer : ∃ answer, k = .answer answer
  wrote : Wrote p₀ s.tables s'.tables
  transition : ∀ t version now, p₀ = .transitionUpdate t version now →
    ∃ row, s.tables.runControl t.runKey = some row ∧ row.stateVersion = version ∧
      k = .answer (.ok (some (t.apply now row))) ∧
      s'.tables.runControl = s.tables.runControl.put t.runKey (t.apply now row)

theorem commits_committed {s s' : ControlDb W} {a : Act W ControlCall} {w : W}
    {p₀ k : ControlPlace} (h : Db.Commits (controlCalls W) s a s' w p₀ k) :
    Committed s s' p₀ k := by
  obtain ⟨p, hp, hb⟩ := h.block
  have hin := block_insideControl (Bool.eq_false_iff.mpr h.outside) hb
  rcases p with (_ | _ | _ | _) | ⟨_ | _ | _ | _, now⟩ | _ | _ | _ | _ | _ | _ | _ | _ | _ <;>
    cases hp
  · obtain ⟨hwrote, c, row, now, rfl⟩ := hin
    exact ⟨⟨_, rfl⟩, hwrote, by simp⟩
  · refine ⟨⟨_, rfl⟩, hin.1, fun t version now heq => ?_⟩
    obtain ⟨row, hrow, hversion, hanswer, hput⟩ := hin.2 t version now heq
    exact ⟨row, hrow, hversion, by rw [hanswer], hput⟩

/-! ## What a thread knows before its update -/

/-- The version the thread has read, with what it knows of the row at this version. -/
structure Reads (t : Transition) (version : Nat) (s : Store) : Prop where
  expected : ∀ v, t.expectedVersion = some v → v = version
  row : ∃ row, s.runControl t.runKey = some row ∧ version ≤ row.stateVersion ∧
    (row.stateVersion = version → row.state ∈ t.expectedStates)

theorem Reads.wrote {t : Transition} {version : Nat} {p₀ : ControlPlace} {s u : Store}
    (h : Reads t version s) (hw : Wrote p₀ s u) : Reads t version u := by
  refine ⟨h.expected, ?_⟩
  obtain ⟨row, hrow, hle, hstate⟩ := h.row
  rcases hw with hsame | ⟨k, old, new, -, hold, hwrite, hput⟩
  · exact ⟨row, by rw [hsame, hrow], hle, hstate⟩
  · rw [hput, Table.put_apply]
    split
    · next hk =>
      subst hk
      cases hrow.symm.trans hold
      have hversion := hwrite.version
      exact ⟨new, rfl, by omega, by omega⟩
    · exact ⟨row, hrow, hle, hstate⟩

/-- Only the `SELECT` of a transition leads to its update. -/
theorem goes_transitionUpdate {s : ControlDb W} {w : W} {p : ControlPlace} {t : Transition}
    {version now : Nat} (hg : Db.Goes (controlCalls W) s w p (.transitionUpdate t version now)) :
    p = .timed (.transition t) now ∧ Reads t version (s.visible w) := by
  generalize hq : ControlPlace.transitionUpdate t version now = q at hg
  cases hg with
  | select hs =>
    rcases p with (_ | _ | _ | _) | ⟨_ | _ | _ | _, now⟩ | _ | _ | _ | _ | _ | _ | _ | _ | _ <;>
      cases hs <;> dsimp only at hq
    · split at hq
      · cases hq
      · next row hrow =>
        split at hq
        · cases hq
        · next hstate =>
          split at hq
          · cases hq
          · next hversion =>
            cases hq
            refine ⟨rfl, fun v hv => ?_, row, hrow, Nat.le_refl _, fun _ => not_not.mp hstate⟩
            simpa [hv] using hversion
    · split at hq
      · cases hq
      · repeat' split at hq
        all_goals cases hq
    · cases hq
    · cases hq
  | now hs =>
    rcases p with (_ | _ | _ | _) | ⟨_ | _ | _ | _, now⟩ | _ | _ | _ | _ | _ | _ | _ | _ | _ <;>
      cases hs <;> try cases hq
    dsimp only at hq
    split at hq <;> cases hq
  | write hs =>
    rcases p with (_ | _ | _ | _) | ⟨_ | _ | _ | _, now⟩ | _ | _ | _ | _ | _ | _ | _ | _ | _ <;>
      cases hs <;> dsimp only at hq <;> try split at hq
    all_goals cases hq
  | begin hs | commit hs =>
    rcases p with (_ | _ | _ | _) | ⟨_ | _ | _ | _, now⟩ | _ | _ | _ | _ | _ | _ | _ | _ | _ <;>
      cases hs <;> cases hq

/-- A thread outside a transaction sees the committed tables. -/
theorem visible_outside {s : ControlDb W} {w : W} {p : ControlPlace}
    (h : s.Sound (controlCalls W)) (hp : s.place w = some p)
    (hout : ∀ p₀ s t, ¬ InsideControl p₀ s p t) : s.visible w = s.tables := by
  unfold Db.visible
  split
  · next x hx =>
    split
    · next hw =>
      obtain ⟨hsince, p', hp', hb⟩ := h.block x hx
      rw [hw, hp] at hp'
      cases hp'
      exact absurd (block_insideControl (Bool.eq_false_iff.mpr hsince) hb) (hout _ _ _)
    · rfl
  · rfl

/-! ## The invariant -/

structure ControlInv (s : ControlDb W) : Prop where
  sound : s.Sound (controlCalls W)
  /-- What was read before an update still holds, or its version has gone. -/
  standing : ∀ w t version now, s.place w = some (.transitionUpdate t version now) →
    Reads t version s.tables
  writing : ∀ x, s.writing = some x → ∀ t version now, x.since = .transitionUpdate t version now →
    Reads t version s.tables

section Step

variable {s s' : ControlDb W} {a : Act W ControlCall}

theorem Reads.act {t : Transition} {version : Nat} (h : Reads t version s.tables)
    (hs : s.Sound (controlCalls W)) (ha : s.act (controlCalls W) a = some s') :
    Reads t version s'.tables := by
  obtain ht | ⟨w, p₀, k, hc⟩ := Db.act_tables hs ha
  · rwa [ht]
  · exact h.wrote (commits_committed hc).wrote

theorem ControlInv.act (h : ControlInv s) (ha : s.act (controlCalls W) a = some s') :
    ControlInv s' where
  sound := h.sound.act ha
  standing w t version now hp := by
    obtain hq | ⟨c, hc⟩ | ⟨p, _, hp', hg⟩ := Db.act_place ha hp
    · exact (h.standing w t version now hq).act h.sound ha
    · cases hc
    · obtain ⟨rfl, hreads⟩ := goes_transitionUpdate hg
      rw [visible_outside h.sound hp' fun _ _ _ => id] at hreads
      exact hreads.act h.sound ha
  writing x hx t version now hsince := by
    obtain ⟨y, hy, _, hs⟩ | ⟨_, hp⟩ := Db.act_writing ha hx
    · exact (h.writing y hy t version now (hs.trans hsince)).act h.sound ha
    · rw [hsince] at hp
      exact (h.standing _ t version now hp).act h.sound ha

/-! ## The laws of the versions -/

/-- What a step promises. -/
structure ControlLaw (s : ControlDb W) (a : Act W ControlCall) (s' : ControlDb W) : Prop where
  /-- The row of a run changes by the one state write of a commit, and goes up by one
  version, or it does not change. -/
  versions : ∀ k, s'.tables.runControl k = s.tables.runControl k ∨
    ∃ w p₀ p row row', Db.Commits (controlCalls W) s a s' w p₀ p ∧ p₀.runKey = some k ∧
      s.tables.runControl k = some row ∧ s'.tables.runControl k = some row' ∧
      StateWrite p₀ row row' ∧ row'.stateVersion = row.stateVersion + 1
  /-- The update of a transition finds its row in an expected state, or finds none. -/
  expected : ∀ w t version now, a = .stmt w → s.place w = some (.transitionUpdate t version now) →
    s'.place w = some (.transitionRead t) →
    ∃ row, (s.visible w).runControl t.runKey = some row ∧ row.state ∈ t.expectedStates
  /-- A transition that commits has written over an expected state, and returns its row. -/
  success : ∀ w t version now p,
    Db.Commits (controlCalls W) s a s' w (.transitionUpdate t version now) p →
    ∃ row, s.tables.runControl t.runKey = some row ∧ row.state ∈ t.expectedStates ∧
      (∀ v, t.expectedVersion = some v → row.stateVersion = v) ∧
      p = .answer (.ok (some (t.apply now row))) ∧
      s'.tables.runControl t.runKey = some (t.apply now row)
  /-- Whoever returns without an error has just committed. -/
  returns : ∀ w row, s.place w ≠ some (.answer (.ok row)) →
    s'.place w = some (.answer (.ok row)) →
    ∃ p₀, Db.Commits (controlCalls W) s a s' w p₀ (.answer (.ok row))

/-- A transition of the run that expects the version returns its row. -/
def Wins (runKey : String) (version : Nat) (s : ControlDb W) (a : Act W ControlCall)
    (s' : ControlDb W) : Prop :=
  ∃ w t read now row, Db.Commits (controlCalls W) s a s' w (.transitionUpdate t read now)
    (.answer (.ok row)) ∧ t.runKey = runKey ∧ t.expectedVersion = some version

theorem control_versions (h : ControlInv s) (ha : s.act (controlCalls W) a = some s') (k : String) :
    s'.tables.runControl k = s.tables.runControl k ∨
      ∃ w p₀ p row row', Db.Commits (controlCalls W) s a s' w p₀ p ∧ p₀.runKey = some k ∧
        s.tables.runControl k = some row ∧ s'.tables.runControl k = some row' ∧
        StateWrite p₀ row row' ∧ row'.stateVersion = row.stateVersion + 1 := by
  obtain ht | ⟨w, p₀, p, hc⟩ := Db.act_tables h.sound ha
  · exact .inl (by rw [ht])
  · rcases (commits_committed hc).wrote with hsame | ⟨k', row, row', hkey, hrow, hwrite, hput⟩
    · exact .inl (by rw [hsame])
    · by_cases hk : k = k'
      · subst hk
        exact .inr ⟨w, p₀, p, row, row', hc, hkey, hrow, by rw [hput, Table.put_apply, if_pos rfl],
          hwrite, hwrite.version⟩
      · exact .inl (by rw [hput, Table.put_apply, if_neg hk])

theorem control_expected (h : ControlInv s) (ha : s.act (controlCalls W) a = some s') {w : W}
    {t : Transition} {version now : Nat}
    (hp : s.place w = some (.transitionUpdate t version now))
    (hp' : s'.place w = some (.transitionRead t)) :
    ∃ row, (s.visible w).runControl t.runKey = some row ∧ row.state ∈ t.expectedStates := by
  obtain ⟨-, row, hrow, -, hstate⟩ := h.standing w t version now hp
  rw [visible_outside h.sound hp fun _ _ _ => id]
  refine ⟨row, hrow, hstate ?_⟩
  have hvisible := visible_outside h.sound hp fun _ _ _ => id
  obtain hsame | ⟨c, hc⟩ | ⟨p, _, hplace, hg⟩ := Db.act_place ha hp'
  · rw [hp] at hsame
    cases hsame
  · cases hc
  · rw [hp] at hplace
    cases hplace
    generalize hq : ControlPlace.transitionRead t = q at hg
    cases hg with
    | write hs =>
      cases hs
      dsimp only [Store.updateControl] at hq
      rw [hvisible, hrow] at hq
      by_cases hv : row.stateVersion = version
      · exact hv
      · have hnone : (some row).filter (·.stateVersion == version) = none := by
          rw [Option.filter_some, if_neg (by simpa using hv)]
        simp only [hnone] at hq
        cases hq
    | now hs | select hs | begin hs | commit hs => cases hs

theorem control_success (h : ControlInv s) {w : W} {t : Transition} {version now : Nat}
    {p : ControlPlace}
    (hc : Db.Commits (controlCalls W) s a s' w (.transitionUpdate t version now) p) :
    ∃ row, s.tables.runControl t.runKey = some row ∧ row.state ∈ t.expectedStates ∧
      (∀ v, t.expectedVersion = some v → row.stateVersion = v) ∧
      p = .answer (.ok (some (t.apply now row))) ∧
      s'.tables.runControl t.runKey = some (t.apply now row) := by
  obtain ⟨row, hrow, hversion, hanswer, hput⟩ :=
    (commits_committed hc).transition t version now rfl
  obtain ⟨x, hx, hxe⟩ := Option.map_eq_some_iff.mp hc.opened
  obtain ⟨hexpected, row', hrow', -, hstate⟩ :=
    h.writing x hx t version now (Prod.mk.inj hxe).2
  cases hrow.symm.trans hrow'
  exact ⟨row, hrow, hstate hversion, fun v hv => by rw [hversion, hexpected v hv], hanswer,
    by rw [hput, Table.put_apply, if_pos rfl]⟩

theorem control_returns (h : ControlInv s) (ha : s.act (controlCalls W) a = some s') {w : W}
    {row : Option RunControl} (hbefore : s.place w ≠ some (.answer (.ok row)))
    (hafter : s'.place w = some (.answer (.ok row))) :
    ∃ p₀, Db.Commits (controlCalls W) s a s' w p₀ (.answer (.ok row)) := by
  obtain hsame | ⟨c, hc⟩ | ⟨p, rfl, hp, hg⟩ := Db.act_place ha hafter
  · exact absurd hsame hbefore
  · cases hc
  · generalize hq : ControlPlace.answer (.ok row) = q at hg
    cases hg with
    | commit hs =>
      rcases p with (_ | _ | _ | _) | ⟨_ | _ | _ | _, now⟩ | _ | _ | _ | _ | _ | _ | _ | _ | _ <;>
        cases id hs
      · exact h.sound.commits hp rfl hs ha
      · exact h.sound.commits hp rfl hs ha
    | now hs =>
      rcases p with (_ | _ | _ | _) | ⟨_ | _ | _ | _, now⟩ | _ | _ | _ | _ | _ | _ | _ | _ | _ <;>
        cases hs <;> try cases hq
      dsimp only at hq
      split at hq <;> cases hq
    | select hs =>
      rcases p with (_ | _ | _ | _) | ⟨_ | _ | _ | _, now⟩ | _ | _ | _ | _ | _ | _ | _ | _ | _ <;>
        cases hs <;> try cases hq
      all_goals
        dsimp only at hq
        repeat' split at hq
        all_goals cases hq
    | begin hs =>
      rcases p with (_ | _ | _ | _) | ⟨_ | _ | _ | _, now⟩ | _ | _ | _ | _ | _ | _ | _ | _ | _ <;>
        cases hs
    | write hs =>
      rcases p with (_ | _ | _ | _) | ⟨_ | _ | _ | _, now⟩ | _ | _ | _ | _ | _ | _ | _ | _ | _ <;>
        cases hs <;> try cases hq
      dsimp only at hq
      split at hq <;> cases hq

theorem controlLaw (h : ControlInv s) (ha : s.act (controlCalls W) a = some s') :
    ControlLaw s a s' where
  versions := control_versions h ha
  expected _ _ _ _ _ := control_expected h ha
  success _ _ _ _ _ := control_success h
  returns _ _ := control_returns h ha

/-- The version of a run that is there. -/
def versionOf (runKey : String) (s : ControlDb W) : Nat :=
  ((s.tables.runControl runKey).map (·.stateVersion)).getD 0

theorem versionOf_act (h : ControlInv s) (ha : s.act (controlCalls W) a = some s')
    (runKey : String) : versionOf runKey s ≤ versionOf runKey s' := by
  unfold versionOf
  rcases control_versions h ha runKey with hsame | ⟨_, _, _, row, row', -, -, hrow, hrow', -, hup⟩
  · rw [hsame]
  · simp [hrow, hrow', hup]

/-- The winner finds the version it expects, and takes the run past it. -/
theorem Wins.passes {runKey : String} {version : Nat} (h : ControlInv s)
    (hw : Wins runKey version s a s') :
    versionOf runKey s = version ∧ version < versionOf runKey s' := by
  obtain ⟨w, t, read, now, row, hc, rfl, hversion⟩ := hw
  obtain ⟨old, hold, -, hexpected, -, hnew⟩ := control_success h hc
  have hread := hexpected version hversion
  simp [versionOf, hold, hnew, hread, Transition.apply]

end Step

/-- A database with nobody at work on it. -/
def controlDb (W : Type) (s : Store) (clock : Nat) : ControlDb W where
  clock
  tables := s
  writing := none
  place _ := none

omit [DecidableEq W] in
theorem controlInv_controlDb (s : Store) (clock : Nat) : ControlInv (controlDb W s clock) where
  sound := { block := (fun _ h => nomatch h), inside := (fun _ _ h => nomatch h) }
  standing _ _ _ _ h := nomatch h
  writing _ h := nomatch h

/-- **Compare and swap.** However the statements of any calls on any runs interleave, every
state write raises the version of its run by one and nothing else does, a transition writes
over an expected state only, and one version admits one transition. -/
theorem controlCalls_swap (s : Store) (clock : Nat) (as : List (Act W ControlCall)) :
    Along (Db.act (controlCalls W)) ControlLaw (controlDb W s clock) as ∧
      ∀ runKey version,
        AtMostOnce (Db.act (controlCalls W)) (Wins runKey version) (controlDb W s clock) as :=
  ⟨along_of (I := ControlInv) (fun _ _ _ h ha => h.act ha) (fun _ _ _ h ha => controlLaw h ha)
      (controlInv_controlDb s clock),
    fun runKey version => atMostOnce_of_measure (I := ControlInv) (versionOf runKey) version
      (fun _ _ _ h ha => h.act ha) (fun _ _ _ h ha => versionOf_act h ha runKey)
      (fun _ _ _ h _ hw => hw.passes h) (controlInv_controlDb s clock)⟩

end HollysysController
