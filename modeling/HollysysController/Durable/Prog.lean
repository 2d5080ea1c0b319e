import Mathlib.Logic.Relation

/-! # Programs over atomic operations

A program is a tree of atomic operations. What an operation does to the state
is said once, by a `Machine`; what may befall it is said by a `Setting`: the
other actors may move before it, it may fail before or after it took effect,
and the process may stop. A stop is not an error: no handler sees it. -/

namespace Durable

/-- A program over the operations `Op`. An operation answers with a value of
`Ret o` or with an error, and the program goes on from either. -/
inductive Prog (Op : Type) (Ret : Op → Type) (ε α : Type) where
  | pure (a : α)
  | raise (e : ε)
  | perform (o : Op) (k : Except ε (Ret o) → Prog Op Ret ε α)

namespace Prog

variable {Op : Type} {Ret : Op → Type} {ε α β γ : Type}

def bind : Prog Op Ret ε α → (α → Prog Op Ret ε β) → Prog Op Ret ε β
  | .pure a, f => f a
  | .raise e, _ => .raise e
  | .perform o k, f => .perform o fun r => (k r).bind f

/-- Turn the error `p` ends with into an answer, as a handler does. -/
def attempt : Prog Op Ret ε α → Prog Op Ret ε (Except ε α)
  | .pure a => .pure (.ok a)
  | .raise e => .pure (.error e)
  | .perform o k => .perform o fun r => (k r).attempt

/-- One operation, its error raised. -/
def op (o : Op) : Prog Op Ret ε (Ret o) :=
  .perform o fun
    | .ok a => .pure a
    | .error e => .raise e

instance : Monad (Prog Op Ret ε) where
  pure := .pure
  bind := bind

@[simp] theorem pure_def (a : α) : (Pure.pure a : Prog Op Ret ε α) = .pure a := rfl

@[simp] theorem bind_def (p : Prog Op Ret ε α) (f : α → Prog Op Ret ε β) :
    p >>= f = p.bind f := rfl

@[simp] theorem map_def (f : α → β) (p : Prog Op Ret ε α) :
    f <$> p = p.bind fun a => .pure (f a) := rfl

@[simp] theorem pure_bind (a : α) (f : α → Prog Op Ret ε β) :
    (Prog.pure a : Prog Op Ret ε α).bind f = f a := rfl

@[simp] theorem raise_bind (e : ε) (f : α → Prog Op Ret ε β) :
    (Prog.raise e : Prog Op Ret ε α).bind f = .raise e := rfl

@[simp] theorem attempt_pure (a : α) :
    (Prog.pure a : Prog Op Ret ε α).attempt = .pure (.ok a) := rfl

@[simp] theorem attempt_raise (e : ε) :
    (Prog.raise e : Prog Op Ret ε α).attempt = .pure (.error e) := rfl

theorem bind_assoc (p : Prog Op Ret ε α) (f : α → Prog Op Ret ε β)
    (g : β → Prog Op Ret ε γ) : (p.bind f).bind g = p.bind fun a => (f a).bind g := by
  induction p with
  | pure a => rfl
  | raise e => rfl
  | perform o k ih =>
    simp only [bind]
    exact congrArg _ (funext ih)

/-! ## The operations of a program -/

/-- Every operation the program can perform satisfies `φ`. -/
def Uses (φ : Op → Prop) : Prog Op Ret ε α → Prop
  | .pure _ => True
  | .raise _ => True
  | .perform o k => φ o ∧ ∀ r, (k r).Uses φ

variable {φ : Op → Prop}

@[simp] theorem uses_pure (a : α) : (Prog.pure a : Prog Op Ret ε α).Uses φ := trivial

@[simp] theorem uses_raise (e : ε) : (Prog.raise e : Prog Op Ret ε α).Uses φ := trivial

theorem uses_op {o : Op} (h : φ o) : (op o : Prog Op Ret ε (Ret o)).Uses φ :=
  ⟨h, fun r => by cases r <;> trivial⟩

theorem uses_all : ∀ p : Prog Op Ret ε α, p.Uses fun _ => True
  | .pure _ => trivial
  | .raise _ => trivial
  | .perform _ k => ⟨trivial, fun r => uses_all (k r)⟩

theorem Uses.bind {p : Prog Op Ret ε α} {f : α → Prog Op Ret ε β} (hp : p.Uses φ)
    (hf : ∀ a, (f a).Uses φ) : (p.bind f).Uses φ := by
  induction p with
  | pure a => exact hf a
  | raise e => trivial
  | perform o k ih => exact ⟨hp.1, fun r => ih r (hp.2 r)⟩

theorem Uses.attempt {p : Prog Op Ret ε α} (hp : p.Uses φ) : p.attempt.Uses φ := by
  induction p with
  | pure a => trivial
  | raise e => trivial
  | perform o k ih => exact ⟨hp.1, fun r => ih r (hp.2 r)⟩

/-! ## The answers of a program -/

/-- Every answer the program can return satisfies `P`. -/
def Answers (P : α → Prop) : Prog Op Ret ε α → Prop
  | .pure a => P a
  | .raise _ => True
  | .perform _ k => ∀ r, (k r).Answers P

theorem Answers.bind {P : β → Prop} {p : Prog Op Ret ε α} {f : α → Prog Op Ret ε β}
    (hf : ∀ a, (f a).Answers P) : (p.bind f).Answers P := by
  induction p with
  | pure a => exact hf a
  | raise e => trivial
  | perform o k ih => exact fun r => ih r

/-- What a handler gets from a program that returns. -/
theorem Answers.attempt {P : α → Prop} {p : Prog Op Ret ε α} (hp : p.Answers P) :
    p.attempt.Answers fun r => ∀ a, r = .ok a → P a := by
  induction p with
  | pure a =>
    intro b hb
    cases hb
    exact hp
  | raise e => exact nofun
  | perform o k ih => exact fun r => ih r (hp r)

/-- What follows a program may be looked at for its answers only. -/
theorem bind_congr_answers {P : α → Prop} {p : Prog Op Ret ε α} {f g : α → Prog Op Ret ε β}
    (hp : p.Answers P) (hfg : ∀ a, P a → f a = g a) : p.bind f = p.bind g := by
  induction p with
  | pure a => exact hfg a hp
  | raise e => rfl
  | perform o k ih =>
    simp only [bind]
    exact congrArg _ (funext fun r => ih r (hp r))

end Prog

/-- How a program ends. `stopped` is the process dying at an operation. -/
inductive Outcome (ε α : Type) where
  | returned (a : α)
  | raised (e : ε)
  | stopped
  deriving DecidableEq, Repr

/-- What befalls one operation. -/
inductive Fault (ε : Type) where
  | none
  | failBefore (e : ε)
  | failAfter (e : ε)
  | stopBefore
  | stopAfter
  deriving DecidableEq, Repr

/-- The effect of each operation on the state. -/
structure Machine (Op : Type) (Ret : Op → Type) (ε σ : Type) where
  exec : (o : Op) → σ → Except ε (Ret o) × σ

namespace Machine

variable {Op : Type} {Ret : Op → Type} {ε σ : Type}

/-- The answer the program gets, `none` when the process stops, and the state. -/
def meet (M : Machine Op Ret ε σ) (o : Op) (f : Fault ε) (s : σ) :
    Option (Except ε (Ret o)) × σ :=
  match f with
  | .none => (some (M.exec o s).1, (M.exec o s).2)
  | .failBefore e => (some (.error e), s)
  | .failAfter e => (some (.error e), (M.exec o s).2)
  | .stopBefore => (Option.none, s)
  | .stopAfter => (Option.none, (M.exec o s).2)

/-- A fault either leaves the state alone or lets the operation take effect. -/
theorem meet_state (M : Machine Op Ret ε σ) (o : Op) (f : Fault ε) (s : σ) :
    (M.meet o f s).2 = s ∨ (M.meet o f s).2 = (M.exec o s).2 := by
  cases f <;> simp [meet]

end Machine

/-- The moves the other actors may make before an operation, and the faults an
operation may meet in a state. -/
structure Setting (Op ε σ : Type) where
  others : σ → σ → Prop
  faults : σ → Op → Fault ε → Prop

/-- Nobody else moves, and anything may fail or stop. -/
def Setting.alone (Op ε σ : Type) : Setting Op ε σ where
  others s s' := s' = s
  faults _ _ _ := True

/-- Nobody else moves and nothing fails. -/
def Setting.quiet (Op ε σ : Type) : Setting Op ε σ where
  others s s' := s' = s
  faults _ _ f := f = .none

end Durable
