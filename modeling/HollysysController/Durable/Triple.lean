import HollysysController.Durable.Closure

/-! # Triples with a crash condition

`Ensures M E I p Q s`: however a run of `p` from `s` ends, `I` holds there, and
when it ends with an answer, `Q` holds of the answer as well. -/

namespace Durable

variable {Op : Type} {Ret : Op → Type} {ε σ α β : Type}
variable {M : Machine Op Ret ε σ} {E : Setting Op ε σ} {I : σ → Prop}

def Ensures (M : Machine Op Ret ε σ) (E : Setting Op ε σ) (I : σ → Prop)
    (p : Prog Op Ret ε α) (Q : α → σ → Prop) (s : σ) : Prop :=
  wp M E p (fun r s' => I s' ∧ ∀ a, r = .returned a → Q a s') s

namespace Ensures

variable {p : Prog Op Ret ε α} {f : α → Prog Op Ret ε β} {Q Q' : α → σ → Prop} {s s' : σ}

theorem pure {a : α} (hI : I s) (hQ : Q a s) : Ensures M E I (.pure a) Q s :=
  ⟨hI, fun _ h => by cases h; exact hQ⟩

theorem raise {e : ε} (hI : I s) : Ensures M E I (.raise e : Prog Op Ret ε α) Q s :=
  ⟨hI, fun _ h => by cases h⟩

theorem mono (h : Ensures M E I p Q s) (hQ : ∀ a s', I s' → Q a s' → Q' a s') :
    Ensures M E I p Q' s :=
  wp_mono (fun _ s' hp => ⟨hp.1, fun a ha => hQ a s' hp.1 (hp.2 a ha)⟩) h

/-- A run of `p` shows what `p` ensures. -/
theorem runs {r : Outcome ε α} (h : Ensures M E I p Q s) (hr : Runs M E p s r s') :
    I s' ∧ ∀ a, r = .returned a → Q a s' :=
  hr.sound h

theorem bind {Q : β → σ → Prop} {R : α → σ → Prop} (hp : Ensures M E I p R s)
    (hf : ∀ a s₁, I s₁ → R a s₁ → Ensures M E I (f a) Q s₁) :
    Ensures M E I (p.bind f) Q s := by
  rw [Ensures, wp_bind]
  refine wp_mono (fun r s₁ h => ?_) hp
  cases r with
  | returned a => exact hf a s₁ h.1 (h.2 a rfl)
  | raised e => exact ⟨h.1, by simp⟩
  | stopped => exact ⟨h.1, by simp⟩

/-- A handler meets the answer of `p`, or an error in a state with `I`. -/
theorem attempt (hp : Ensures M E I p Q s) :
    Ensures M E I p.attempt (fun r s' => ∀ a, r = .ok a → Q a s') s := by
  rw [Ensures, wp_attempt]
  refine wp_mono (fun r s₁ h => ?_) hp
  cases r with
  | returned a =>
    refine ⟨h.1, fun b hb => ?_⟩
    cases hb
    intro a' ha'
    cases ha'
    exact h.2 a rfl
  | raised e =>
    refine ⟨h.1, fun b hb => ?_⟩
    cases hb
    intro a ha
    cases ha
  | stopped => exact ⟨h.1, by simp⟩

/-- One operation, when the moves of the others and its effect keep `I`. -/
theorem op {o : Op} {Q : Ret o → σ → Prop}
    (hbefore : ∀ s₁, E.others s s₁ → I s₁)
    (hafter : ∀ s₁, E.others s s₁ → I (M.exec o s₁).2)
    (hanswer : ∀ s₁ a s₂, E.others s s₁ → M.exec o s₁ = (.ok a, s₂) → Q a s₂) :
    Ensures M E I (Prog.op o) Q s := by
  refine wp_op ?_ ?_ ?_
  · exact fun s₁ ho => ⟨⟨hbefore s₁ ho, by simp⟩, fun e _ => ⟨hbefore s₁ ho, by simp⟩⟩
  · exact fun s₁ ho => ⟨⟨hafter s₁ ho, by simp⟩, fun e _ => ⟨hafter s₁ ho, by simp⟩⟩
  · intro s₁ ho
    have hI := hafter s₁ ho
    have hQ := hanswer s₁
    rcases hx : M.exec o s₁ with ⟨r, s₂⟩
    rw [hx] at hI hQ
    cases r with
    | ok a => exact ⟨hI, fun _ h => by cases h; exact hQ a s₂ ho rfl⟩
    | error e => exact ⟨hI, by simp⟩

end Ensures

/-- Wherever `I` holds, a run of `p` keeps it, and its answer is as `A` says. -/
def Answers (M : Machine Op Ret ε σ) (E : Setting Op ε σ) (I : σ → Prop)
    (p : Prog Op Ret ε α) (A : α → Prop) : Prop :=
  ∀ s, I s → Ensures M E I p (fun a _ => A a) s

namespace Answers

variable {p : Prog Op Ret ε α} {f : α → Prog Op Ret ε β} {A A' : α → Prop} {B : β → Prop}

theorem pure {a : α} (ha : A a) : Answers M E I (.pure a) A := fun _ hs => .pure hs ha

theorem raise {e : ε} : Answers M E I (.raise e : Prog Op Ret ε α) A := fun _ hs => .raise hs

theorem mono (h : Answers M E I p A) (hA : ∀ a, A a → A' a) : Answers M E I p A' :=
  fun s hs => (h s hs).mono fun a _ _ ha => hA a ha

theorem bind (hp : Answers M E I p A) (hf : ∀ a, A a → Answers M E I (f a) B) :
    Answers M E I (p.bind f) B :=
  fun s hs => (hp s hs).bind fun a s₁ h₁ ha => hf a ha s₁ h₁

theorem attempt (hp : Answers M E I p A) :
    Answers M E I p.attempt (fun r => ∀ a, r = .ok a → A a) :=
  fun s hs => (hp s hs).attempt

theorem of_keeps (h : Keeps M E I p) : Answers M E I p fun _ => True :=
  fun s hs => wp_mono (fun _ _ hI => ⟨hI, fun _ _ => trivial⟩) (h s hs)

theorem keeps (h : Answers M E I p A) : Keeps M E I p :=
  fun s hs => wp_mono (fun _ _ hI => hI.1) (h s hs)

end Answers

/-- What is kept is ensured. -/
theorem Keeps.ensures {p : Prog Op Ret ε α} {J : σ → Prop} {s : σ} (h : Keeps M E J p)
    (hs : J s) (hI : ∀ s', J s' → I s') : Ensures M E I p (fun _ s' => J s') s :=
  wp_mono (fun _ s' hJ => ⟨hI s' hJ, fun _ _ => hJ⟩) (h s hs)

end Durable
