/-! # Runs of a step function

A system moves by actions, some of which cannot happen in some states. A law
says what a single step does; `Along` says that every step of a run obeys it. -/

namespace Durable

variable {σ A : Type}

/-- The state after the actions, `none` when one of them cannot happen. -/
def steps (step : σ → A → Option σ) : σ → List A → Option σ
  | s, [] => some s
  | s, a :: as => (step s a).bind fun s' => steps step s' as

theorem steps_append (step : σ → A → Option σ) (as bs : List A) (s : σ) :
    steps step s (as ++ bs) = (steps step s as).bind fun s' => steps step s' bs := by
  induction as generalizing s with
  | nil => rfl
  | cons a as ih =>
    rw [List.cons_append, steps, steps, Option.bind_assoc]
    exact congrArg _ (funext fun s' => ih s')

/-- Some actions lead from the one state to the other. -/
def Reaches (step : σ → A → Option σ) (s s' : σ) : Prop :=
  ∃ as, steps step s as = some s'

theorem Reaches.refl (step : σ → A → Option σ) (s : σ) : Reaches step s s := ⟨[], rfl⟩

theorem Reaches.single {step : σ → A → Option σ} {s s' : σ} {a : A} (h : step s a = some s') :
    Reaches step s s' :=
  ⟨[a], by rw [steps, h]; rfl⟩

theorem Reaches.trans {step : σ → A → Option σ} {s s' s'' : σ} (h : Reaches step s s')
    (h' : Reaches step s' s'') : Reaches step s s'' := by
  obtain ⟨as, has⟩ := h
  obtain ⟨bs, hbs⟩ := h'
  exact ⟨as ++ bs, by rw [steps_append, has]; exact hbs⟩

/-- Every step of the run obeys `Q`. -/
def Along (step : σ → A → Option σ) (Q : σ → A → σ → Prop) : σ → List A → Prop
  | _, [] => True
  | s, a :: as => ∀ s', step s a = some s' → Q s a s' ∧ Along step Q s' as

variable {step : σ → A → Option σ} {I : σ → Prop} {Q R : σ → A → σ → Prop}

/-- A run is checked step by step. -/
instance Along.decidable [∀ s a s', Decidable (Q s a s')] :
    (s : σ) → (as : List A) → Decidable (Along step Q s as)
  | _, [] => isTrue trivial
  | s, a :: as =>
    match h : step s a with
    | none => isTrue fun s' h' => by rw [h] at h'; cases h'
    | some s₁ =>
      have := Along.decidable s₁ as
      decidable_of_iff (Q s a s₁ ∧ Along step Q s₁ as)
        ⟨fun hq s' h' => by rw [h] at h'; cases h'; exact hq, fun hq => hq s₁ h⟩

/-- An invariant that the steps under `Q` keep turns a law of single steps into one
of runs. -/
theorem Along.imp {as : List A} {s : σ} (h : Along step Q s as)
    (hI : ∀ s a s', I s → step s a = some s' → Q s a s' → I s')
    (hQR : ∀ s a s', I s → step s a = some s' → Q s a s' → R s a s') (hs : I s) :
    Along step R s as := by
  induction as generalizing s with
  | nil => trivial
  | cons a as ih =>
    intro s' ha
    obtain ⟨hq, hrest⟩ := h s' ha
    exact ⟨hQR s a s' hs ha hq, ih hrest (hI s a s' hs ha hq)⟩

theorem along_iff (hI : ∀ s a s', I s → step s a = some s' → I s')
    (hQR : ∀ s a s', I s → step s a = some s' → (Q s a s' ↔ R s a s'))
    {as : List A} {s : σ} (hs : I s) : Along step Q s as ↔ Along step R s as :=
  ⟨fun h => h.imp (fun s a s' h ha _ => hI s a s' h ha)
      (fun s a s' h ha => (hQR s a s' h ha).mp) hs,
    fun h => h.imp (fun s a s' h ha _ => hI s a s' h ha)
      (fun s a s' h ha => (hQR s a s' h ha).mpr) hs⟩

/-- The last step of a run obeys what every step does. -/
theorem Along.last {as : List A} {a : A} {s t t' : σ} (h : Along step Q s (as ++ [a]))
    (hr : steps step s as = some t) (ha : step t a = some t') : Q t a t' := by
  induction as generalizing s with
  | nil =>
    cases hr
    exact (h t' ha).1
  | cons b as ih =>
    obtain ⟨s₁, hb, hr⟩ := Option.bind_eq_some_iff.mp hr
    exact ih (h s₁ hb).2 hr

/-- What holds after every step holds at the end. -/
theorem Along.final {P : σ → Prop} {as : List A} {s t : σ}
    (h : Along step (fun _ _ s' => P s') s as) (hs : P s) (ht : steps step s as = some t) : P t := by
  induction as generalizing s with
  | nil =>
    cases ht
    exact hs
  | cons a as ih =>
    obtain ⟨s₁, ha, ht⟩ := Option.bind_eq_some_iff.mp ht
    obtain ⟨hp, hrest⟩ := h s₁ ha
    exact ih hrest hp ht

/-- A law of single steps is one of runs when an invariant that all steps keep implies it. -/
theorem along_of {as : List A} {s : σ} (hI : ∀ s a s', I s → step s a = some s' → I s')
    (hR : ∀ s a s', I s → step s a = some s' → R s a s') (hs : I s) : Along step R s as := by
  induction as generalizing s with
  | nil => trivial
  | cons a as ih => exact fun s' ha => ⟨hR s a s' hs ha, ih (hI s a s' hs ha)⟩

/-- At most one step of the run obeys `Q`. -/
def AtMostOnce (step : σ → A → Option σ) (Q : σ → A → σ → Prop) : σ → List A → Prop
  | _, [] => True
  | s, a :: as => ∀ s', step s a = some s' →
      (Q s a s' → Along step (fun t b t' => ¬ Q t b t') s' as) ∧ AtMostOnce step Q s' as

/-- A measure that never falls passes `n` once, so what passes it happens once. -/
theorem atMostOnce_of_measure (m : σ → Nat) (n : Nat)
    (hI : ∀ s a s', I s → step s a = some s' → I s')
    (hmono : ∀ s a s', I s → step s a = some s' → m s ≤ m s')
    (hQ : ∀ s a s', I s → step s a = some s' → Q s a s' → m s = n ∧ n < m s')
    {as : List A} {s : σ} (hs : I s) : AtMostOnce step Q s as := by
  induction as generalizing s with
  | nil => trivial
  | cons a as ih =>
    intro s' ha
    have hs' := hI s a s' hs ha
    refine ⟨fun hq => ?_, ih hs'⟩
    have hpassed := (hQ s a s' hs ha hq).2
    refine along_of (I := fun t => I t ∧ n < m t) (fun t b t' ht hb => ?_)
      (fun t b t' ht hb hq' => ?_) ⟨hs', hpassed⟩
    · have := hmono t b t' ht.1 hb
      exact ⟨hI t b t' ht.1 hb, by omega⟩
    · have := (hQ t b t' ht.1 hb hq').1
      omega

end Durable
