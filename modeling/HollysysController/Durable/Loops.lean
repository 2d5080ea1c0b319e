import HollysysController.Durable.Run

/-! # Failures of composed programs

`Contained M E p s`: no run of `p` from `s` ends with an error. A sequence is
contained when its parts are, a handler contains what it settles, and a loop is
contained when its body is, wherever the loop comes to an element. -/

namespace Durable

variable {Op : Type} {Ret : Op → Type} {ε σ α β : Type}

/-! ## Runs of composed programs -/

section Composed

variable {M : Machine Op Ret ε σ} {E : Setting Op ε σ}

/-- A run of a sequence is a run of its first part, and of the second after an answer. -/
theorem runs_bind {p : Prog Op Ret ε α} {f : α → Prog Op Ret ε β} {s s' : σ}
    {r : Outcome ε β} : Runs M E (p.bind f) s r s' ↔
      (∃ a s₁, Runs M E p s (.returned a) s₁ ∧ Runs M E (f a) s₁ r s') ∨
      (∃ e, Runs M E p s (.raised e) s' ∧ r = .raised e) ∨
      (Runs M E p s .stopped s' ∧ r = .stopped) := by
  constructor
  · intro h
    induction p generalizing s with
    | pure a => exact .inl ⟨a, s, .pure, h⟩
    | raise e =>
      cases h
      exact .inr (.inl ⟨e, .raise, rfl⟩)
    | perform o k ih =>
      cases h with
      | answered ho hf hm hk =>
        rcases ih _ hk with ⟨a, s₁, hp, hr⟩ | ⟨e, hp, hr⟩ | ⟨hp, hr⟩
        · exact .inl ⟨a, s₁, .answered ho hf hm hp, hr⟩
        · exact .inr (.inl ⟨e, .answered ho hf hm hp, hr⟩)
        · exact .inr (.inr ⟨.answered ho hf hm hp, hr⟩)
      | stopped ho hf hm => exact .inr (.inr ⟨.stopped ho hf hm, rfl⟩)
  · rintro (⟨a, s₁, hp, hr⟩ | ⟨e, hp, rfl⟩ | ⟨hp, rfl⟩)
    · generalize hq : Outcome.returned a = q at hp
      induction hp with
      | pure =>
        cases hq
        exact hr
      | raise => cases hq
      | answered ho hf hm _ ih => exact .answered ho hf hm (ih hr hq)
      | stopped => cases hq
    · generalize hq : Outcome.raised e = q at hp
      induction hp with
      | pure => cases hq
      | raise =>
        cases hq
        exact .raise
      | answered ho hf hm _ ih => exact .answered ho hf hm (ih hq)
      | stopped => cases hq
    · generalize hq : Outcome.stopped = q at hp
      induction hp with
      | pure => cases hq
      | raise => cases hq
      | answered ho hf hm _ ih => exact .answered ho hf hm (ih hq)
      | stopped ho hf hm => exact .stopped ho hf hm

theorem runs_bind_returned {p : Prog Op Ret ε α} {f : α → Prog Op Ret ε β} {s s' : σ} {b : β} :
    Runs M E (p.bind f) s (.returned b) s' ↔
      ∃ a s₁, Runs M E p s (.returned a) s₁ ∧ Runs M E (f a) s₁ (.returned b) s' := by
  rw [runs_bind]
  simp

/-- Continuations that agree on what the first part can answer have the same runs. -/
theorem runs_bind_congr {p : Prog Op Ret ε α} {f g : α → Prog Op Ret ε β} {s s' : σ}
    {r : Outcome ε β} (hfg : ∀ a s₁, Runs M E p s (.returned a) s₁ → f a = g a)
    (h : Runs M E (p.bind f) s r s') : Runs M E (p.bind g) s r s' := by
  rcases runs_bind.mp h with ⟨a, s₁, hp, hr⟩ | hr | hr
  · exact runs_bind.mpr (.inl ⟨a, s₁, hp, hfg a s₁ hp ▸ hr⟩)
  · exact runs_bind.mpr (.inr (.inl hr))
  · exact runs_bind.mpr (.inr (.inr hr))

/-- One operation that meets no fault. -/
theorem wp_op_calm {o : Op} {Q : Outcome ε (Ret o) → σ → Prop} {s : σ}
    (hcalm : ∀ s₁ f, E.faults s₁ o f → f = .none)
    (hanswer : ∀ s₁, E.others s s₁ → match M.exec o s₁ with
      | (.ok a, s₂) => Q (.returned a) s₂
      | (.error e, s₂) => Q (.raised e) s₂) : wp M E (Prog.op o) Q s := by
  intro s₁ f ho hf
  obtain rfl := hcalm s₁ f hf
  have h := hanswer s₁ ho
  rcases hx : M.exec o s₁ with ⟨r, s₂⟩
  rw [hx] at h
  simp only [Machine.meet, hx]
  cases r <;> exact h

/-- A handler meets the answer or the error of a run. -/
theorem runs_attempt {p : Prog Op Ret ε α} {s s' : σ} {r : Except ε α} :
    Runs M E p.attempt s (.returned r) s' ↔
      match r with
      | .ok a => Runs M E p s (.returned a) s'
      | .error e => Runs M E p s (.raised e) s' := by
  constructor
  · intro h
    induction p generalizing s with
    | pure a =>
      cases h
      exact .pure
    | raise e =>
      cases h
      exact .raise
    | perform o k ih =>
      cases h with
      | answered ho hf hm hk =>
        have hr := ih _ hk
        cases r with
        | ok a => exact .answered ho hf hm hr
        | error e => exact .answered ho hf hm hr
  · cases r with
    | ok a =>
      intro (h : Runs M E p s (.returned a) s')
      generalize hq : Outcome.returned a = q at h
      induction h with
      | pure =>
        cases hq
        exact .pure
      | raise => cases hq
      | answered ho hf hm _ ih => exact .answered ho hf hm (ih hq)
      | stopped => cases hq
    | error e =>
      intro (h : Runs M E p s (.raised e) s')
      generalize hq : Outcome.raised e = q at h
      induction h with
      | pure => cases hq
      | raise =>
        cases hq
        exact .pure
      | answered ho hf hm _ ih => exact .answered ho hf hm (ih hq)
      | stopped => cases hq

theorem attempt_never_raises {p : Prog Op Ret ε α} {s s' : σ} {e : ε} :
    ¬ Runs M E p.attempt s (.raised e) s' := by
  intro h
  induction p generalizing s with
  | pure a => cases h
  | raise e => cases h
  | perform o k ih =>
    cases h with
    | answered _ _ _ hk => exact ih _ hk

/-- An operation that meets no fault answers as the machine says. -/
theorem runs_op {o : Op} {s s₁ : σ} {a : Ret o} (ho : E.others s s₁) (hf : E.faults s₁ o .none)
    (ha : (M.exec o s₁).1 = .ok a) :
    Runs M E (Prog.op o) s (.returned a) (M.exec o s₁).2 := by
  refine .answered ho hf rfl ?_
  rw [ha]
  exact .pure

/-- Where nothing stops the process, a program ends with an answer or an error. -/
theorem runs_unstopped (hE : ∀ s o f, E.faults s o f → f ≠ .stopBefore ∧ f ≠ .stopAfter)
    {p : Prog Op Ret ε α} {s s' : σ} : ¬ Runs M E p s .stopped s' := by
  intro h
  generalize hq : Outcome.stopped = q at h
  induction h with
  | pure => cases hq
  | raise => cases hq
  | answered _ _ _ _ ih => exact ih hq
  | @stopped _ _ _ s₁ f _ _ hf hm =>
    obtain ⟨hbefore, hafter⟩ := hE _ _ _ hf
    cases f with
    | none => cases hm
    | failBefore e => cases hm
    | failAfter e => cases hm
    | stopBefore => exact hbefore rfl
    | stopAfter => exact hafter rfl

end Composed

/-! ## Containment -/

/-- No run of the program ends with an error. -/
def Contained (M : Machine Op Ret ε σ) (E : Setting Op ε σ) (p : Prog Op Ret ε α) (s : σ) :
    Prop :=
  ∀ e s', ¬ Runs M E p s (.raised e) s'

/-- Run a program and settle the error it ends with. -/
def guarded (p : Prog Op Ret ε α) (settle : ε → Prog Op Ret ε Unit) : Prog Op Ret ε Unit := do
  match ← p.attempt with
  | .ok _ => pure ()
  | .error e => settle e

/-- The loop takes every element, one after the other, and ends each. -/
inductive Worked (M : Machine Op Ret ε σ) (E : Setting Op ε σ) (f : β → Prog Op Ret ε Unit) :
    List β → σ → σ → Prop
  | nil {s} : Worked M E f [] s s
  | cons {b l s s₁ s'} : Runs M E (f b) s (.returned ()) s₁ → Worked M E f l s₁ s' →
      Worked M E f (b :: l) s s'

/-- The loop comes to the element, with those before it ended. -/
def Meets (M : Machine Op Ret ε σ) (E : Setting Op ε σ) (f : β → Prog Op Ret ε Unit)
    (l : List β) (s : σ) (b : β) (s₁ : σ) : Prop :=
  ∃ done rest, l = done ++ b :: rest ∧ Worked M E f done s s₁

variable {M : Machine Op Ret ε σ} {E : Setting Op ε σ}

@[simp] theorem contained_pure {a : α} {s : σ} :
    Contained M E (.pure a : Prog Op Ret ε α) s := by
  intro e s' h
  cases h

@[simp] theorem not_contained_raise {e : ε} {s : σ} :
    ¬ Contained M E (.raise e : Prog Op Ret ε α) s :=
  fun h => h e s .raise

theorem contained_bind {p : Prog Op Ret ε α} {f : α → Prog Op Ret ε β} {s : σ} :
    Contained M E (p.bind f) s ↔ Contained M E p s ∧
      ∀ a s₁, Runs M E p s (.returned a) s₁ → Contained M E (f a) s₁ := by
  constructor
  · intro h
    exact ⟨fun e s' hp => h e s' (runs_bind.mpr (.inr (.inl ⟨e, hp, rfl⟩))),
      fun a s₁ hp e s' hf => h e s' (runs_bind.mpr (.inl ⟨a, s₁, hp, hf⟩))⟩
  · rintro ⟨hp, hf⟩ e s' h
    rcases runs_bind.mp h with ⟨a, s₁, ha, hr⟩ | ⟨e', he, hr⟩ | ⟨-, hr⟩
    · exact hf a s₁ ha e s' hr
    · exact hp e' s' he
    · cases hr

/-- A guard is contained when the settling of each error is. -/
theorem contained_guarded {p : Prog Op Ret ε α} {settle : ε → Prog Op Ret ε Unit} {s : σ} :
    Contained M E (guarded p settle) s ↔
      ∀ e s₁, Runs M E p s (.raised e) s₁ → Contained M E (settle e) s₁ := by
  refine contained_bind.trans ⟨fun h e s₁ he => h.2 (.error e) s₁ (runs_attempt.mpr he),
    fun h => ⟨fun e s' => attempt_never_raises, fun r s₁ hr => ?_⟩⟩
  cases r with
  | ok a => exact contained_pure
  | error e => exact h e s₁ (runs_attempt.mp hr)

/-- A loop that ends has taken every element. -/
theorem runs_forM {f : β → Prog Op Ret ε Unit} {l : List β} {s s' : σ} :
    Runs M E (l.forM f) s (.returned ()) s' ↔ Worked M E f l s s' := by
  induction l generalizing s with
  | nil =>
    constructor <;> intro h <;> cases h
    · exact .nil
    · exact .pure
  | cons b l ih =>
    refine runs_bind_returned.trans ⟨?_, fun h => ?_⟩
    · rintro ⟨⟨⟩, s₁, hb, hl⟩
      exact .cons hb (ih.mp hl)
    · cases h with
      | cons hb hl => exact ⟨(), _, hb, ih.mpr hl⟩

theorem Meets.head {f : β → Prog Op Ret ε Unit} {b : β} {l : List β} {s : σ} :
    Meets M E f (b :: l) s b s :=
  ⟨[], l, rfl, .nil⟩

theorem meets_cons {f : β → Prog Op Ret ε Unit} {b c : β} {l : List β} {s s₁ : σ} :
    Meets M E f (b :: l) s c s₁ ↔ (c = b ∧ s₁ = s) ∨
      ∃ s₂, Runs M E (f b) s (.returned ()) s₂ ∧ Meets M E f l s₂ c s₁ := by
  constructor
  · rintro ⟨done, rest, hl, hdone⟩
    cases hdone with
    | nil =>
      cases hl
      exact .inl ⟨rfl, rfl⟩
    | cons hb hrest =>
      cases hl
      exact .inr ⟨_, hb, _, _, rfl, hrest⟩
  · rintro (⟨rfl, rfl⟩ | ⟨s₂, hb, done, rest, rfl, hdone⟩)
    · exact .head
    · exact ⟨b :: done, rest, rfl, .cons hb hdone⟩

/-- **A loop is contained when its body is, wherever the loop comes to an element.** -/
theorem contained_forM {f : β → Prog Op Ret ε Unit} {l : List β} {s : σ} :
    Contained M E (l.forM f) s ↔ ∀ b s₁, Meets M E f l s b s₁ → Contained M E (f b) s₁ := by
  induction l generalizing s with
  | nil =>
    refine ⟨fun _ b s₁ h => ?_, fun _ => contained_pure⟩
    obtain ⟨done, rest, hl, -⟩ := h
    cases done <;> cases hl
  | cons b l ih =>
    refine contained_bind.trans ⟨?_, fun h => ⟨h b s .head, fun _ s₁ hb => ih.mpr ?_⟩⟩
    · rintro ⟨hb, hl⟩ c s₁ hmeets
      rcases meets_cons.mp hmeets with ⟨rfl, rfl⟩ | ⟨s₂, hrun, hrest⟩
      · exact hb
      · exact ih.mp (hl () s₂ hrun) c s₁ hrest
    · exact fun c s₂ hmeets => h c s₂ (meets_cons.mpr (.inr ⟨s₁, hb, hmeets⟩))

/-- What follows a loop meets the states in which the loop ends. -/
theorem contained_forM_bind {f : β → Prog Op Ret ε Unit} {g : Unit → Prog Op Ret ε α} {l : List β}
    {s : σ} : Contained M E ((l.forM f).bind g) s ↔
      (∀ b s₁, Meets M E f l s b s₁ → Contained M E (f b) s₁) ∧
        ∀ s₁, Worked M E f l s s₁ → Contained M E (g ()) s₁ := by
  rw [contained_bind, contained_forM]
  exact and_congr_right fun _ =>
    ⟨fun h s₁ hl => h () s₁ (runs_forM.mpr hl), fun h _ s₁ hl => h s₁ (runs_forM.mp hl)⟩

/-- An operation that meets no fault is contained when it answers. -/
theorem contained_op {o : Op} {s : σ} (hE : ∀ s₁ f, E.faults s₁ o f → f = .none)
    (hok : ∀ s₁, E.others s s₁ → ∃ a, (M.exec o s₁).1 = .ok a) :
    Contained M E (Prog.op o : Prog Op Ret ε (Ret o)) s := by
  intro e s' h
  cases h with
  | answered ho hf hm hk =>
    cases hE _ _ hf
    obtain ⟨a, ha⟩ := hok _ ho
    simp only [Machine.meet, ha, Prod.mk.injEq, Option.some.injEq] at hm
    obtain ⟨rfl, rfl⟩ := hm
    cases hk

end Durable
