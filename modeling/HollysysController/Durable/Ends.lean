import HollysysController.Durable.Run

/-! # Triples with an error condition

`Ends M E p Q R s`: a run of `p` from `s` that ends with an answer ends as `Q` says, and one that
ends with an error ends as `R` says. The rules are for settings in which an operation fails
before its effect or not at all. -/

namespace Durable

variable {Op : Type} {Ret : Op → Type} {ε σ α β : Type}
variable {M : Machine Op Ret ε σ} {E : Setting Op ε σ}

/-- An outcome with an answer as `Q` says, or with an error as `R` says. -/
def Outcome.EndsAs (Q : α → σ → Prop) (R : ε → σ → Prop) : Outcome ε α → σ → Prop
  | .returned a, s => Q a s
  | .raised e, s => R e s
  | .stopped, _ => True

def Ends (M : Machine Op Ret ε σ) (E : Setting Op ε σ) (p : Prog Op Ret ε α)
    (Q : α → σ → Prop) (R : ε → σ → Prop) (s : σ) : Prop :=
  wp M E p (Outcome.EndsAs Q R) s

/-- The only fault is to fail before the effect. -/
def Setting.FailsEarly (E : Setting Op ε σ) : Prop :=
  ∀ s o f, E.faults s o f → f = .none ∨ ∃ e, f = .failBefore e

namespace Ends

variable {p : Prog Op Ret ε α} {f : α → Prog Op Ret ε β} {Q Q' : α → σ → Prop}
  {R R' : ε → σ → Prop} {s s' : σ}

theorem pure {a : α} (h : Q a s) : Ends M E (.pure a) Q R s := h

theorem raise {e : ε} (h : R e s) : Ends M E (.raise e : Prog Op Ret ε α) Q R s := h

/-- Nothing is said of either end. -/
theorem any (p : Prog Op Ret ε α) (s : σ) : Ends M E p (fun _ _ => True) (fun _ _ => True) s :=
  wp_of_runs fun r _ _ => by cases r <;> trivial

theorem mono (h : Ends M E p Q R s) (hQ : ∀ a s', Q a s' → Q' a s')
    (hR : ∀ e s', R e s' → R' e s') : Ends M E p Q' R' s := by
  refine wp_mono (fun r s' hr => ?_) h
  cases r with
  | returned a => exact hQ a s' hr
  | raised e => exact hR e s' hr
  | stopped => trivial

theorem returned {a : α} (h : Ends M E p Q R s) (hr : Runs M E p s (.returned a) s') : Q a s' :=
  hr.sound h

theorem raised {e : ε} (h : Ends M E p Q R s) (hr : Runs M E p s (.raised e) s') : R e s' :=
  hr.sound h

theorem and (h : Ends M E p Q R s) (h' : Ends M E p Q' R' s) :
    Ends M E p (fun a s' => Q a s' ∧ Q' a s') (fun e s' => R e s' ∧ R' e s') s := by
  refine wp_of_runs fun r s' hr => ?_
  have hl := hr.sound h
  have hr' := hr.sound h'
  cases r with
  | returned a => exact ⟨hl, hr'⟩
  | raised e => exact ⟨hl, hr'⟩
  | stopped => trivial

/-- What each of a family of triples says, said at once. -/
theorem all {ι : Sort*} {Q : ι → α → σ → Prop} {R : ι → ε → σ → Prop}
    (h : ∀ x, Ends M E p (Q x) (R x) s) :
    Ends M E p (fun a s' => ∀ x, Q x a s') (fun e s' => ∀ x, R x e s') s := by
  refine wp_of_runs fun r s' hr => ?_
  cases r with
  | returned a => exact fun x => (h x).returned hr
  | raised e => exact fun x => (h x).raised hr
  | stopped => trivial

theorem bind {T : α → σ → Prop} {Q : β → σ → Prop} (hp : Ends M E p T R s)
    (hf : ∀ a s₁, T a s₁ → Ends M E (f a) Q R s₁) : Ends M E (p.bind f) Q R s := by
  rw [Ends, wp_bind]
  refine wp_mono (fun r s₁ h => ?_) hp
  cases r with
  | returned a => exact hf a s₁ h
  | raised e => exact h
  | stopped => trivial

/-- A handler meets the answer or the error. -/
theorem attempt {T : α → σ → Prop} {U : ε → σ → Prop} {f : Except ε α → Prog Op Ret ε β}
    {Q : β → σ → Prop} (hp : Ends M E p T U s)
    (hok : ∀ a s₁, T a s₁ → Ends M E (f (.ok a)) Q R s₁)
    (herror : ∀ e s₁, U e s₁ → Ends M E (f (.error e)) Q R s₁) :
    Ends M E (p.attempt.bind f) Q R s := by
  rw [Ends, wp_bind, wp_attempt]
  refine wp_mono (fun r s₁ h => ?_) hp
  cases r with
  | returned a => exact hok a s₁ h
  | raised e => exact herror e s₁ h
  | stopped => trivial

/-- One operation, from an assertion that the moves of the others keep. -/
theorem op {o : Op} {P : σ → Prop} {Q : Ret o → σ → Prop} (hE : E.FailsEarly)
    (hP : ∀ s₁, E.others s s₁ → P s₁)
    (hfail : ∀ s₁ e, P s₁ → E.faults s₁ o (.failBefore e) → R e s₁)
    (hok : ∀ s₁ a s₂, P s₁ → M.exec o s₁ = (.ok a, s₂) → Q a s₂)
    (herror : ∀ s₁ e s₂, P s₁ → M.exec o s₁ = (.error e, s₂) → R e s₂) :
    Ends M E (Prog.op o) Q R s := by
  intro s₁ fault ho hfault
  have h₁ := hP s₁ ho
  rcases hE s₁ o fault hfault with rfl | ⟨e, rfl⟩
  · rcases hx : M.exec o s₁ with ⟨r, s₂⟩
    simp only [Machine.meet, hx]
    cases r with
    | ok a => exact hok s₁ a s₂ h₁ hx
    | error e => exact herror s₁ e s₂ h₁ hx
  · exact hfail s₁ e h₁ hfault

/-- What the moves of the others and the operations of the program keep, the run keeps. -/
theorem keeping {I : σ → Prop} {φ : Op → Prop} (hothers : ∀ s s', I s → E.others s s' → I s')
    (hop : ∀ o s, φ o → I s → I (M.exec o s).2) (hp : p.Uses φ) (hs : I s) :
    Ends M E p (fun _ s' => I s') (fun _ s' => I s') s := by
  refine wp_mono (fun r s' h => ?_) (wp_invariant hothers hop hp hs)
  cases r with
  | returned a => exact h
  | raised e => exact h
  | stopped => trivial

/-! ## Loops -/

/-- A loop that gathers, with an invariant of the elements to come and of what is gathered. -/
theorem foldlM {f : β → α → Prog Op Ret ε β} {I : List α → β → σ → Prop}
    (hstep : ∀ a l b s, I (a :: l) b s → Ends M E (f b a) (fun b' s' => I l b' s') R s)
    {l : List α} {b : β} (h : I l b s) :
    Ends M E (l.foldlM f b) (fun b' s' => I [] b' s') R s := by
  induction l generalizing b s with
  | nil => exact h
  | cons a l ih =>
    rw [List.foldlM_cons]
    exact (hstep a l b s h).bind fun b' s' h' => ih h'

/-- A loop for its effects, with an invariant of the elements to come. -/
theorem forM {f : α → Prog Op Ret ε Unit} {I : List α → σ → Prop}
    (hstep : ∀ a l s, I (a :: l) s → Ends M E (f a) (fun _ s' => I l s') R s)
    {l : List α} (h : I l s) : Ends M E (l.forM f) (fun _ s' => I [] s') R s := by
  induction l generalizing s with
  | nil => exact h
  | cons a l ih => exact (hstep a l s h).bind fun _ s' h' => ih h'

end Ends

theorem Prog.Uses.mono {φ ψ : Op → Prop} {p : Prog Op Ret ε α} (h : p.Uses φ)
    (hφ : ∀ o, φ o → ψ o) : p.Uses ψ := by
  induction p with
  | pure a => trivial
  | raise e => trivial
  | perform o k ih => exact ⟨hφ o h.1, fun r => ih r (h.2 r)⟩

/-- Each part of a loop uses what the loop uses. -/
theorem Prog.Uses.foldlM {φ : Op → Prop} {f : β → α → Prog Op Ret ε β}
    (hf : ∀ b a, (f b a).Uses φ) (l : List α) (b : β) : (l.foldlM f b).Uses φ := by
  induction l generalizing b with
  | nil => trivial
  | cons a l ih =>
    rw [List.foldlM_cons]
    exact (hf b a).bind ih

end Durable
