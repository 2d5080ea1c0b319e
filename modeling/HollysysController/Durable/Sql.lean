import Mathlib.Logic.Function.Basic

/-! # Workers on a transactional database

Workers run programs of statements on one database, any statement of one
between two of another. A `SELECT` outside a transaction sees the committed
tables. The first writing statement of a worker, or its `BEGIN IMMEDIATE`,
opens a transaction that keeps every other writer out until the worker commits
or leaves; a worker that leaves with an open transaction rolls it back. -/

namespace Durable

/-- The statement of a worker that stands at a place of its program, and the
place it goes to. -/
inductive Stmt (P σ : Type) where
  | now (k : Nat → P)
  | select (k : σ → P)
  | begin (k : P)
  | write (f : σ → σ × P)
  | commit (k : P)
  | leave

/-- An open transaction: the place of the statement that opened it, and the
tables as the transaction sees them. -/
structure Writing (W P σ : Type) where
  worker : W
  since : P
  tables : σ

structure Db (W P σ : Type) where
  clock : Nat
  tables : σ
  writing : Option (Writing W P σ)
  place : W → Option P

/-- Without a transaction at hand the statement leads to places outside. -/
def Stmt.Outside {P σ : Type} (inside : P → Prop) : Stmt P σ → Prop
  | .now k => ∀ n, ¬ inside (k n)
  | .select k => ∀ t, ¬ inside (k t)
  | _ => True

/-- What the workers of a kind run: where a call starts, and the statement at each
place. The places inside a transaction are told from those outside. -/
structure Protocol (W C P σ : Type) where
  entry : C → P
  stmt : W → P → Stmt P σ
  inside : P → Prop
  entry_outside : ∀ c, ¬ inside (entry c)
  outside : ∀ w p, ¬ inside p → (stmt w p).Outside inside
  commit_outside : ∀ w p k, stmt w p = .commit k → ¬ inside k

inductive Act (W C : Type) where
  | enter (w : W) (c : C)
  | stmt (w : W)
  /-- The worker is gone: an exception, a lock timeout or a crash. -/
  | fail (w : W)
  | tick (seconds : Nat)
  deriving DecidableEq, Repr

variable {W C P σ : Type} [DecidableEq W]

namespace Db

/-- The worker goes to a place. -/
def go (s : Db W P σ) (w : W) (p : P) : Db W P σ :=
  { s with place := Function.update s.place w (some p) }

/-- The worker leaves, and its open transaction is rolled back. -/
def drop (s : Db W P σ) (w : W) : Db W P σ :=
  { s with
    writing := s.writing.filter (·.worker ≠ w)
    place := Function.update s.place w none }

/-- The tables a statement of `w` sees. -/
def visible (s : Db W P σ) (w : W) : σ :=
  match s.writing with
  | some x => if x.worker = w then x.tables else s.tables
  | none => s.tables

/-- One statement of `w` at `p`, `none` when the lock of another worker keeps it out. -/
def exec (s : Db W P σ) (w : W) (p : P) : Stmt P σ → Option (Db W P σ)
  | .now k => some (s.go w (k s.clock))
  | .select k => some (s.go w (k (s.visible w)))
  | .begin k =>
    match s.writing with
    | none => some ({ s with writing := some ⟨w, p, s.tables⟩ }.go w k)
    | some _ => none
  | .write f =>
    match s.writing with
    | none => some ({ s with writing := some ⟨w, p, (f s.tables).1⟩ }.go w (f s.tables).2)
    | some x =>
      if x.worker = w then
        some ({ s with writing := some { x with tables := (f x.tables).1 } }.go w (f x.tables).2)
      else none
  | .commit k =>
    match s.writing with
    | none => some (s.go w k)
    | some x =>
      if x.worker = w then some ({ s with tables := x.tables, writing := none }.go w k)
      else some (s.go w k)
  | .leave => some (s.drop w)

/-- One step, `none` when it cannot happen. -/
def act (M : Protocol W C P σ) (s : Db W P σ) : Act W C → Option (Db W P σ)
  | .enter w c => if s.place w = none then some (s.go w (M.entry c)) else none
  | .stmt w => (s.place w).bind fun p => s.exec w p (M.stmt w p)
  | .fail w => some (s.drop w)
  | .tick seconds => some { s with clock := s.clock + seconds }

end Db

/-- The transaction that `w` opened at `p₀` on the tables `σ₀` has come to `p`, where
it sees `t`. -/
inductive Block (M : Protocol W C P σ) (w : W) (p₀ : P) (σ₀ : σ) : P → σ → Prop
  | begin {k} : M.stmt w p₀ = .begin k → Block M w p₀ σ₀ k σ₀
  | first {f} : M.stmt w p₀ = .write f → Block M w p₀ σ₀ (f σ₀).2 (f σ₀).1
  | now {p t k} (n : Nat) : Block M w p₀ σ₀ p t → M.stmt w p = .now k →
      Block M w p₀ σ₀ (k n) t
  | select {p t k} : Block M w p₀ σ₀ p t → M.stmt w p = .select k → Block M w p₀ σ₀ (k t) t
  | write {p t f} : Block M w p₀ σ₀ p t → M.stmt w p = .write f →
      Block M w p₀ σ₀ (f t).2 (f t).1

namespace Db

variable {M : Protocol W C P σ} {s s' : Db W P σ}

/-- The open transaction is a block of its worker on the committed tables, and
nobody else is inside one. -/
structure Sound (M : Protocol W C P σ) (s : Db W P σ) : Prop where
  block : ∀ x, s.writing = some x → ¬ M.inside x.since ∧ ∃ p, s.place x.worker = some p ∧
    Block M x.worker x.since s.tables p x.tables
  inside : ∀ w p, s.place w = some p → M.inside p → s.writing.map (·.worker) = some w

section Places

variable (s : Db W P σ) (w v : W) (p : P)

@[simp] theorem go_clock : (s.go w p).clock = s.clock := rfl
@[simp] theorem go_tables : (s.go w p).tables = s.tables := rfl
@[simp] theorem go_writing : (s.go w p).writing = s.writing := rfl
@[simp] theorem go_place : (s.go w p).place = Function.update s.place w (some p) := rfl
@[simp] theorem drop_clock : (s.drop w).clock = s.clock := rfl
@[simp] theorem drop_tables : (s.drop w).tables = s.tables := rfl
@[simp] theorem drop_place : (s.drop w).place = Function.update s.place w none := rfl

end Places

theorem Sound.drop (h : s.Sound M) (w : W) : (s.drop w).Sound M where
  block x hx := by
    simp only [Db.drop, Option.filter_eq_some_iff, decide_eq_true_eq] at hx
    obtain ⟨hsince, q, hq, hb⟩ := h.block x hx.1
    exact ⟨hsince, q, by simpa [Function.update_of_ne hx.2] using hq, hb⟩
  inside v p hp hin := by
    rw [drop_place, Function.update_apply] at hp
    split at hp
    · cases hp
    · next hv =>
      obtain ⟨x, hx, hxv⟩ := Option.map_eq_some_iff.mp (h.inside v p hp hin)
      have hkept : (s.drop w).writing = some x := by
        simp only [Db.drop, hx, Option.filter_some, hxv, hv, ne_eq, not_false_eq_true, decide_true,
          if_true]
      rw [hkept, Option.map_some, hxv]

/-- A worker that goes on, inside its transaction or beside that of another. -/
theorem Sound.goes {w : W} {p k : P} (h : s.Sound M) (hp : s.place w = some p)
    (hwriting : s'.writing = s.writing) (htables : s'.tables = s.tables)
    (hplace : s'.place = Function.update s.place w (some k))
    (hblock : ∀ x, s.writing = some x → x.worker = w → Block M w x.since s.tables p x.tables →
      Block M w x.since s.tables k x.tables)
    (hout : ¬ M.inside p → ¬ M.inside k) : s'.Sound M where
  block x hx := by
    rw [hwriting] at hx
    rw [hplace, htables]
    obtain ⟨hsince, q, hq, hb⟩ := h.block x hx
    refine ⟨hsince, ?_⟩
    by_cases hw : x.worker = w
    · subst hw
      cases hp.symm.trans hq
      exact ⟨k, by simp, hblock x hx rfl hb⟩
    · exact ⟨q, by simpa [Function.update_of_ne hw] using hq, hb⟩
  inside v q hq hin := by
    rw [hplace, Function.update_apply] at hq
    rw [hwriting]
    split at hq
    · next hv =>
      cases hq
      subst hv
      exact h.inside v p hp (Classical.not_not.mp fun hn => hout hn hin)
    · exact h.inside v q hq hin

/-- A worker whose statement opens a transaction, or goes on in its own. -/
theorem Sound.writes {w : W} {k : P} {x : Writing W P σ} (h : s.Sound M)
    (hfree : ∀ y, s.writing = some y → y.worker = w) (hx : x.worker = w)
    (hsince : ¬ M.inside x.since) (hb : Block M w x.since s.tables k x.tables) :
    (({ s with writing := some x } : Db W P σ).go w k).Sound M where
  block y hy := by
    cases hy
    subst hx
    exact ⟨hsince, k, by simp, hb⟩
  inside v q hq hin := by
    rw [go_place, Function.update_apply] at hq
    split at hq
    · next hv => simp [hx, hv]
    · obtain ⟨y, hy, hyv⟩ := Option.map_eq_some_iff.mp (h.inside v q hq hin)
      simp [hx, ← hfree y hy, hyv]

theorem Sound.exec {w : W} {p : P} (h : s.Sound M) (hp : s.place w = some p)
    (he : s.exec w p (M.stmt w p) = some s') : s'.Sound M := by
  -- a statement outside a transaction stands at a place outside
  have hfree : s.writing = none → ¬ M.inside p := by
    intro hn hin
    have := h.inside w p hp hin
    rw [hn] at this
    cases this
  have hout := M.outside w p
  cases hs : M.stmt w p with
  | now k =>
    rw [hs] at he hout
    cases he
    exact h.goes hp rfl rfl rfl (fun x _ _ hb => .now _ hb hs) fun hn => hout hn _
  | select k =>
    rw [hs] at he hout
    cases he
    refine h.goes hp rfl rfl rfl (fun x hx hw hb => ?_) fun hn => hout hn _
    have hv : s.visible w = x.tables := by simp [visible, hx, hw]
    rw [hv]
    exact .select hb hs
  | begin k =>
    rw [hs] at he
    simp only [Db.exec] at he
    split at he
    · next hn =>
      cases he
      exact h.writes (fun y hy => by simp [hn] at hy) rfl (hfree hn) (.begin hs)
    · cases he
  | write f =>
    rw [hs] at he
    simp only [Db.exec] at he
    split at he
    · next hn =>
      cases he
      exact h.writes (fun y hy => by simp [hn] at hy) rfl (hfree hn) (.first hs)
    · next x hx =>
      split at he
      · next hw =>
        cases he
        obtain ⟨hsince, q, hq, hb⟩ := h.block x hx
        subst hw
        cases hp.symm.trans hq
        refine h.writes (fun y hy => ?_) rfl hsince (.write hb hs)
        cases hx.symm.trans hy
        rfl
      · cases he
  | commit k =>
    rw [hs] at he
    simp only [Db.exec] at he
    have hk := M.commit_outside w p k hs
    split at he
    · next hn =>
      cases he
      exact h.goes hp rfl rfl rfl (fun x hx => by simp [hn] at hx) fun _ => hk
    · next x hx =>
      split at he
      · next hw =>
        cases he
        refine ⟨fun y hy => (nomatch hy), fun v q hq hin => ?_⟩
        rw [go_place, Function.update_apply] at hq
        split at hq
        · cases hq
          exact absurd hin hk
        · next hv =>
          have hxv := h.inside v q hq hin
          rw [hx] at hxv
          exact absurd (Option.some.inj hxv ▸ hw : v = w) hv
      · next hw =>
        cases he
        refine h.goes hp rfl rfl rfl (fun y hy hyw => ?_) fun _ => hk
        cases hx.symm.trans hy
        exact absurd hyw hw
  | leave =>
    rw [hs] at he
    cases he
    exact h.drop w

theorem Sound.act {a : Act W C} (h : s.Sound M) (ha : s.act M a = some s') : s'.Sound M := by
  cases a with
  | enter w c =>
    simp only [Db.act] at ha
    split at ha
    · next hw =>
      cases ha
      constructor
      · intro x hx
        obtain ⟨hsince, q, hq, hb⟩ := h.block x hx
        refine ⟨hsince, q, ?_, hb⟩
        have hne : x.worker ≠ w := by
          rintro rfl
          rw [hw] at hq
          cases hq
        simpa [Function.update_of_ne hne] using hq
      · intro v q hq hin
        rw [go_place, Function.update_apply] at hq
        split at hq
        · cases hq
          exact absurd hin (M.entry_outside c)
        · exact h.inside v q hq hin
    · cases ha
  | stmt w =>
    obtain ⟨p, hp, he⟩ := Option.bind_eq_some_iff.mp ha
    exact h.exec hp he
  | fail w =>
    cases ha
    exact h.drop w
  | tick seconds =>
    cases ha
    exact ⟨h.block, h.inside⟩

/-! ## The committed tables change at commits only -/

/-- The step commits the transaction that `w` opened at `p₀`, and `w` goes to `k`. -/
structure Commits (M : Protocol W C P σ) (s : Db W P σ) (a : Act W C) (s' : Db W P σ)
    (w : W) (p₀ k : P) : Prop where
  act : a = .stmt w
  opened : s.writing.map (fun x => (x.worker, x.since)) = some (w, p₀)
  outside : ¬ M.inside p₀
  block : ∃ p, M.stmt w p = .commit k ∧ Block M w p₀ s.tables p s'.tables
  place : s'.place = Function.update s.place w (some k)
  closed : s'.writing = none
  clock : s'.clock = s.clock

/-- A worker that commits inside a transaction commits its own. -/
theorem Sound.commits {w : W} {p k : P} (h : s.Sound M) (hp : s.place w = some p)
    (hin : M.inside p) (hs : M.stmt w p = .commit k) (ha : s.act M (.stmt w) = some s') :
    ∃ p₀, Commits M s (.stmt w) s' w p₀ k := by
  obtain ⟨x, hx, hw⟩ := Option.map_eq_some_iff.mp (h.inside w p hp hin)
  subst hw
  obtain ⟨hsince, q, hq, hb⟩ := h.block x hx
  cases hp.symm.trans hq
  simp only [Db.act, hp, Option.bind_some, hs, Db.exec, hx, if_true, Option.some.injEq] at ha
  subst ha
  exact ⟨x.since, rfl, by rw [hx]; rfl, hsince, ⟨p, hs, hb⟩, rfl, rfl, rfl⟩

theorem act_tables {a : Act W C} (h : s.Sound M) (ha : s.act M a = some s') :
    s'.tables = s.tables ∨ ∃ w p₀ k, Commits M s a s' w p₀ k := by
  cases a with
  | enter w c =>
    simp only [Db.act] at ha
    split at ha <;> cases ha
    exact .inl rfl
  | fail w =>
    cases ha
    exact .inl rfl
  | tick seconds =>
    cases ha
    exact .inl rfl
  | stmt w =>
    obtain ⟨p, hp, he⟩ := Option.bind_eq_some_iff.mp ha
    cases hs : M.stmt w p with
    | commit k =>
      rw [hs] at he
      simp only [Db.exec] at he
      split at he
      · cases he
        exact .inl rfl
      · next x hx =>
        split at he
        · next hw =>
          cases he
          subst hw
          obtain ⟨hsince, q, hq, hb⟩ := h.block x hx
          cases hp.symm.trans hq
          exact .inr ⟨x.worker, x.since, k, rfl, by rw [hx]; rfl, hsince, ⟨p, hs, hb⟩,
            rfl, rfl, rfl⟩
        · cases he
          exact .inl rfl
    | begin k =>
      rw [hs] at he
      simp only [Db.exec] at he
      split at he <;> cases he
      exact .inl rfl
    | write f =>
      rw [hs] at he
      simp only [Db.exec] at he
      split at he
      · cases he
        exact .inl rfl
      · split at he <;> cases he
        exact .inl rfl
    | now k => rw [hs] at he; cases he; exact .inl rfl
    | select k => rw [hs] at he; cases he; exact .inl rfl
    | leave => rw [hs] at he; cases he; exact .inl rfl

end Db

/-! ## Where a step leads -/

namespace Db

variable {M : Protocol W C P σ} {s s' : Db W P σ} {a : Act W C}

/-- The places a statement of `w` at `p` can lead to. -/
inductive Goes (M : Protocol W C P σ) (s : Db W P σ) (w : W) (p : P) : P → Prop
  | now {k} : M.stmt w p = .now k → Goes M s w p (k s.clock)
  | select {k} : M.stmt w p = .select k → Goes M s w p (k (s.visible w))
  | begin {k} : M.stmt w p = .begin k → Goes M s w p k
  | write {f} : M.stmt w p = .write f → Goes M s w p (f (s.visible w)).2
  | commit {k} : M.stmt w p = .commit k → Goes M s w p k

theorem exec_place {w v : W} {p q : P}
    (he : s.exec w p (M.stmt w p) = some s') (hq : s'.place v = some q) :
    v ≠ w ∧ s.place v = some q ∨ v = w ∧ Goes M s w p q := by
  have key : ∀ {k}, s'.place = Function.update s.place w (some k) → Goes M s w p k →
      v ≠ w ∧ s.place v = some q ∨ v = w ∧ Goes M s w p q := by
    intro k hk hg
    rw [hk, Function.update_apply] at hq
    split at hq
    · cases hq
      exact .inr ⟨‹_›, hg⟩
    · exact .inl ⟨‹_›, hq⟩
  cases hs : M.stmt w p with
  | now k =>
    rw [hs] at he
    cases he
    exact key rfl (.now hs)
  | select k =>
    rw [hs] at he
    cases he
    exact key rfl (.select hs)
  | begin k =>
    rw [hs] at he
    simp only [Db.exec] at he
    split at he <;> cases he
    exact key rfl (.begin hs)
  | write f =>
    rw [hs] at he
    simp only [Db.exec] at he
    split at he
    · next hn =>
      cases he
      have hv : s.visible w = s.tables := by simp [visible, hn]
      exact key rfl (hv ▸ .write hs)
    · next x hx =>
      split at he <;> cases he
      have hv : s.visible w = x.tables := by simp [visible, *]
      exact key rfl (hv ▸ .write hs)
  | commit k =>
    rw [hs] at he
    simp only [Db.exec] at he
    split at he
    · cases he
      exact key rfl (.commit hs)
    · split at he <;> cases he <;> exact key rfl (.commit hs)
  | leave =>
    rw [hs] at he
    cases he
    rw [drop_place, Function.update_apply] at hq
    split at hq
    · cases hq
    · exact .inl ⟨‹_›, hq⟩

/-- A worker stays where it is, starts a call or goes on from its place. -/
theorem act_place {v : W} {q : P} (ha : s.act M a = some s') (hq : s'.place v = some q) :
    s.place v = some q ∨ (∃ c, q = M.entry c) ∨
      ∃ p, a = .stmt v ∧ s.place v = some p ∧ Goes M s v p q := by
  cases a with
  | enter w c =>
    simp only [Db.act] at ha
    split at ha <;> cases ha
    rw [go_place, Function.update_apply] at hq
    split at hq
    · cases hq
      exact .inr (.inl ⟨c, rfl⟩)
    · exact .inl hq
  | stmt w =>
    obtain ⟨p, hp, he⟩ := Option.bind_eq_some_iff.mp ha
    obtain ⟨_, hv⟩ | ⟨rfl, hg⟩ := exec_place he hq
    · exact .inl hv
    · exact .inr (.inr ⟨p, rfl, hp, hg⟩)
  | fail w =>
    cases ha
    rw [drop_place, Function.update_apply] at hq
    split at hq
    · cases hq
    · exact .inl hq
  | tick seconds =>
    cases ha
    exact .inl hq

theorem exec_writing {w : W} {p : P} {x : Writing W P σ} {stmt : Stmt P σ}
    (he : s.exec w p stmt = some s') (hx : s'.writing = some x) :
    (∃ y, s.writing = some y ∧ y.worker = x.worker ∧ y.since = x.since) ∨
      s.writing = none ∧ x.worker = w ∧ x.since = p := by
  cases stmt with
  | now k => cases he; exact .inl ⟨x, hx, rfl, rfl⟩
  | select k => cases he; exact .inl ⟨x, hx, rfl, rfl⟩
  | begin k =>
    simp only [Db.exec] at he
    split at he <;> cases he
    cases hx
    exact .inr ⟨‹_›, rfl, rfl⟩
  | write f =>
    simp only [Db.exec] at he
    split at he
    · cases he
      cases hx
      exact .inr ⟨‹_›, rfl, rfl⟩
    · next y hy =>
      split at he <;> cases he
      cases hx
      exact .inl ⟨y, hy, rfl, rfl⟩
  | commit k =>
    simp only [Db.exec] at he
    split at he
    · cases he
      exact .inl ⟨x, hx, rfl, rfl⟩
    · split at he <;> cases he
      · cases hx
      · exact .inl ⟨x, hx, rfl, rfl⟩
  | leave =>
    cases he
    exact .inl ⟨x, (Option.filter_eq_some_iff.mp hx).1, rfl, rfl⟩

/-- A transaction is carried on, or opened by the statement its worker stood at. -/
theorem act_writing {x : Writing W P σ} (ha : s.act M a = some s') (hx : s'.writing = some x) :
    (∃ y, s.writing = some y ∧ y.worker = x.worker ∧ y.since = x.since) ∨
      s.writing = none ∧ s.place x.worker = some x.since := by
  cases a with
  | enter w c =>
    simp only [Db.act] at ha
    split at ha <;> cases ha
    exact .inl ⟨x, hx, rfl, rfl⟩
  | stmt w =>
    obtain ⟨p, hp, he⟩ := Option.bind_eq_some_iff.mp ha
    obtain h | ⟨hn, rfl, rfl⟩ := exec_writing he hx
    · exact .inl h
    · exact .inr ⟨hn, hp⟩
  | fail w =>
    cases ha
    exact .inl ⟨x, (Option.filter_eq_some_iff.mp hx).1, rfl, rfl⟩
  | tick seconds =>
    cases ha
    exact .inl ⟨x, hx, rfl, rfl⟩

theorem act_clock (ha : s.act M a = some s') :
    s'.clock = s.clock ∨ ∃ n, a = .tick n ∧ s'.clock = s.clock + n := by
  cases a with
  | enter w c =>
    simp only [Db.act] at ha
    split at ha <;> cases ha
    exact .inl rfl
  | stmt w =>
    obtain ⟨p, _, he⟩ := Option.bind_eq_some_iff.mp ha
    refine .inl ?_
    cases hs : M.stmt w p <;> rw [hs] at he <;> simp only [Db.exec] at he <;>
      repeat' split at he
    all_goals cases he <;> rfl
  | fail w =>
    cases ha
    exact .inl rfl
  | tick seconds =>
    cases ha
    exact .inr ⟨seconds, rfl, rfl⟩

theorem act_clock_le (ha : s.act M a = some s') : s.clock ≤ s'.clock := by
  obtain h | ⟨n, _, h⟩ := act_clock ha <;> omega

end Db

end Durable
