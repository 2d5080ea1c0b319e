import HollysysController.Durable.Run

/-! # Judgements that follow the structure of programs

A judgement closed under sequencing and handlers holds of a program as soon as
it holds of the operations it is made of. A second judgement may sit on top
that is closed under sequencing only, for programs that break an invariant and
restore it before they end. -/

namespace Durable

variable {Op : Type} {Ret : Op → Type} {ε σ : Type}

/-- Closed under sequencing and handlers. -/
structure Closed (K : ∀ {α : Type}, Prog Op Ret ε α → Prop) : Prop where
  pure : ∀ {α : Type} (a : α), K (.pure a : Prog Op Ret ε α)
  raise : ∀ {α : Type} (e : ε), K (.raise e : Prog Op Ret ε α)
  bind : ∀ {α β : Type} {p : Prog Op Ret ε α} {f : α → Prog Op Ret ε β},
    K p → (∀ a, K (f a)) → K (p.bind f)
  attempt : ∀ {α : Type} {p : Prog Op Ret ε α}, K p → K p.attempt

theorem Closed.forM {K : ∀ {α : Type}, Prog Op Ret ε α → Prop} (h : Closed K) {β : Type}
    {f : β → Prog Op Ret ε Unit} (hf : ∀ b, K (f b)) (l : List β) : K (l.forM f) := by
  induction l with
  | nil => exact h.pure _
  | cons b l ih => exact h.bind (hf b) fun _ => ih

/-- A first part that is left out on a condition. -/
theorem Closed.guarded {K : ∀ {α : Type}, Prog Op Ret ε α → Prop} (h : Closed K) {β : Type}
    {c : Prop} [Decidable c] {p : Prog Op Ret ε Unit} {q : Prog Op Ret ε β} (hp : K p)
    (hq : K q) : K (if c then p.bind fun _ => q else q) := by
  split
  · exact h.bind hp fun _ => hq
  · exact hq

/-- `S` is weaker than `K` and closed under sequencing. -/
structure Layered (K S : ∀ {α : Type}, Prog Op Ret ε α → Prop) : Prop extends Closed K where
  weaken : ∀ {α : Type} {p : Prog Op Ret ε α}, K p → S p
  sequence : ∀ {α β : Type} {p : Prog Op Ret ε α} {f : α → Prog Op Ret ε β},
    S p → (∀ a, S (f a)) → S (p.bind f)

/-- A program that `S` judges may begin a sequence whose rest `K` judges. -/
def Leads (K S : ∀ {α : Type}, Prog Op Ret ε α → Prop) : Prop :=
  ∀ {α β : Type} {p : Prog Op Ret ε α} {f : α → Prog Op Ret ε β},
    S p → (∀ a, K (f a)) → S (p.bind f)

theorem Closed.layered {K : ∀ {α : Type}, Prog Op Ret ε α → Prop} (h : Closed K) :
    Layered K K :=
  { h with weaken := id, sequence := h.bind }

/-- The part after a program is judged for the answers the program can give. -/
theorem Closed.bind_answers {K : ∀ {α : Type}, Prog Op Ret ε α → Prop} (h : Closed K)
    {α β : Type} {P : α → Prop} {p : Prog Op Ret ε α} {f : α → Prog Op Ret ε β} (e : ε)
    (hp : K p) (hanswers : p.Answers P) (hf : ∀ a, P a → K (f a)) : K (p.bind f) := by
  classical
  rw [Prog.bind_congr_answers (g := fun a => if P a then f a else .raise e) hanswers
    fun a ha => (if_pos ha).symm]
  refine h.bind hp fun a => ?_
  split
  · next ha => exact hf a ha
  · exact h.raise e

theorem closed_uses (φ : Op → Prop) :
    Closed (fun {α} (p : Prog Op Ret ε α) => p.Uses φ) where
  pure _ := trivial
  raise _ := trivial
  bind := Prog.Uses.bind
  attempt := Prog.Uses.attempt

/-- The undisturbed run of `p` keeps `I`. -/
theorem closed_eval (M : Machine Op Ret ε σ) (I : σ → Prop) :
    Closed (fun {α} (p : Prog Op Ret ε α) => ∀ s, I s → I (M.eval p s).2) where
  pure _ _ hs := hs
  raise _ _ hs := hs
  bind hp hf s hs := M.eval_bind_keeps (hp s hs) hf
  attempt hp s hs := by
    rw [M.eval_attempt_state]
    exact hp s hs

/-- `p` reads the same in `s` and in `t`, and changes neither. -/
def Machine.ReadsAlike (M : Machine Op Ret ε σ) (s t : σ) {α : Type} (p : Prog Op Ret ε α) :
    Prop :=
  ∃ r, M.eval p s = (r, s) ∧ M.eval p t = (r, t)

theorem readsAlike_op {M : Machine Op Ret ε σ} {s t : σ} {o : Op}
    (hanswer : (M.exec o s).1 = (M.exec o t).1) (hs : (M.exec o s).2 = s)
    (ht : (M.exec o t).2 = t) : M.ReadsAlike s t (Prog.op o : Prog Op Ret ε (Ret o)) := by
  refine ⟨(M.eval (Prog.op o) s).1, ?_, ?_⟩
  · exact Prod.ext rfl ((M.eval_op_state o s).trans hs)
  · refine Prod.ext ?_ ((M.eval_op_state o t).trans ht)
    rw [M.eval_op, M.eval_op]
    rcases hx : M.exec o s with ⟨r, s'⟩
    rcases hy : M.exec o t with ⟨r', t'⟩
    obtain rfl : r = r' := by simpa [hx, hy] using hanswer
    cases r <;> rfl

theorem closed_readsAlike (M : Machine Op Ret ε σ) (s t : σ) :
    Closed (fun {α} (p : Prog Op Ret ε α) => M.ReadsAlike s t p) where
  pure a := ⟨.returned a, rfl, rfl⟩
  raise e := ⟨.raised e, rfl, rfl⟩
  bind hp hf := by
    obtain ⟨r, hs, ht⟩ := hp
    cases r with
    | returned a =>
      obtain ⟨r, hs', ht'⟩ := hf a
      exact ⟨r, (M.eval_bind_of hs).trans hs', (M.eval_bind_of ht).trans ht'⟩
    | raised e => exact ⟨.raised e, M.eval_bind_raised hs, M.eval_bind_raised ht⟩
    | stopped => exact ⟨.stopped, by rw [M.eval_bind, hs], by rw [M.eval_bind, ht]⟩
  attempt hp := by
    obtain ⟨r, hs, ht⟩ := hp
    cases r with
    | returned a => exact ⟨.returned (.ok a), by rw [M.eval_attempt, hs], by rw [M.eval_attempt, ht]⟩
    | raised e =>
      exact ⟨.returned (.error e), by rw [M.eval_attempt, hs], by rw [M.eval_attempt, ht]⟩
    | stopped => exact ⟨.stopped, by rw [M.eval_attempt, hs], by rw [M.eval_attempt, ht]⟩

/-- What one state answers, the other answers. -/
theorem Machine.ReadsAlike.eval_iff {M : Machine Op Ret ε σ} {s t : σ} {α : Type}
    {p : Prog Op Ret ε α} (h : M.ReadsAlike s t p) (r : Outcome ε α) :
    M.eval p s = (r, s) ↔ M.eval p t = (r, t) := by
  obtain ⟨r', hs, ht⟩ := h
  rw [hs, ht]
  simp

/-- Every run of `p` from a state with `I` ends in a state with `I`. -/
def Keeps (M : Machine Op Ret ε σ) (E : Setting Op ε σ) (I : σ → Prop) {α : Type}
    (p : Prog Op Ret ε α) : Prop :=
  ∀ s, I s → wp M E p (fun _ s' => I s') s

variable {M : Machine Op Ret ε σ} {E : Setting Op ε σ} {I : σ → Prop}

theorem closed_keeps : Closed (fun {α} (p : Prog Op Ret ε α) => Keeps M E I p) where
  pure _ _ hs := hs
  raise _ _ hs := hs
  bind hp hf s hs := by
    rw [wp_bind]
    refine wp_mono (fun r s' h => ?_) (hp s hs)
    cases r with
    | returned a => exact hf a s' h
    | raised e => exact h
    | stopped => exact h
  attempt hp s hs := by
    rw [wp_attempt]
    refine wp_mono (fun r s' h => ?_) (hp s hs)
    cases r <;> exact h

/-- The moves of the others and the operation keep `I`. -/
theorem keeps_op {o : Op} (hothers : ∀ s s', I s → E.others s s' → I s')
    (hop : ∀ s, I s → I (M.exec o s).2) :
    Keeps M E I (Prog.op o : Prog Op Ret ε (Ret o)) := by
  intro s hs s₁ f ho _
  have h₁ := hothers s s₁ hs ho
  have h₂ : I (M.meet o f s₁).2 := by
    rcases M.meet_state o f s₁ with h | h <;> rw [h]
    · exact h₁
    · exact hop s₁ h₁
  rcases hm : M.meet o f s₁ with ⟨a, s₂⟩
  rw [hm] at h₂
  cases a with
  | none => exact h₂
  | some a => cases a <;> exact h₂

/-- What is kept, and the state in which an operation was answered. -/
theorem keeps_answer {o : Op} (hothers : ∀ s s', I s → E.others s s' → I s')
    (hop : ∀ s, I s → I (M.exec o s).2) {s : σ} (hs : I s) :
    wp M E (Prog.op o : Prog Op Ret ε (Ret o)) (fun r s' => I s' ∧
      ∀ a, r = .returned a → ∃ s₁, I s₁ ∧ M.exec o s₁ = (.ok a, s')) s := by
  intro s₁ f ho _
  have h₁ := hothers s s₁ hs ho
  have h₂ : I (M.meet o f s₁).2 := by
    rcases M.meet_state o f s₁ with h | h <;> rw [h]
    · exact h₁
    · exact hop s₁ h₁
  cases f with
  | none =>
    simp only [Machine.meet] at h₂ ⊢
    rcases hx : M.exec o s₁ with ⟨r, s₂⟩
    rw [hx] at h₂
    cases r with
    | ok a =>
      refine ⟨h₂, fun b hb => ?_⟩
      cases hb
      exact ⟨s₁, h₁, hx⟩
    | error e => exact ⟨h₂, fun _ hb => by cases hb⟩
  | failBefore e => exact ⟨h₂, fun _ hb => by cases hb⟩
  | failAfter e => exact ⟨h₂, fun _ hb => by cases hb⟩
  | stopBefore => exact ⟨h₂, fun _ hb => by cases hb⟩
  | stopAfter => exact ⟨h₂, fun _ hb => by cases hb⟩

/-- Two kept properties are kept together. -/
theorem Keeps.and {J : σ → Prop} {α : Type} {p : Prog Op Ret ε α} (hI : Keeps M E I p)
    (hJ : Keeps M E J p) : Keeps M E (fun s => I s ∧ J s) p := by
  intro s hs
  refine wp_of_runs fun r s' hr => ⟨hr.sound (hI s hs.1), hr.sound (hJ s hs.2)⟩

end Durable
