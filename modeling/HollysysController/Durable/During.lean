import HollysysController.Durable.Trace
import HollysysController.Durable.Triple

/-! # What a run went through

Between two moments of a run lie moves of the others and operations. A program
that answered between them did so in a part of the run, and the answer stays
part of it however the run goes on. -/

namespace Durable

variable {Op : Type} {Ret : Op → Type} {ε σ α β N : Type}

/-- A move of the others, or the effect of an operation. -/
def Moves (M : Machine Op Ret ε σ) (E : Setting Op ε σ) (s s' : σ) : Prop :=
  E.others s s' ∨ ∃ o, s' = (M.exec o s).2

/-- Moves lead from the one state to the other. -/
def Evolves (M : Machine Op Ret ε σ) (E : Setting Op ε σ) : σ → σ → Prop :=
  Relation.ReflTransGen (Moves M E)

/-- Between `s₀` and `s`, the program answered `a`. -/
def During (M : Machine Op Ret ε σ) (E : Setting Op ε σ) (s₀ s : σ) (p : Prog Op Ret ε α)
    (a : α) : Prop :=
  ∃ t t', Evolves M E s₀ t ∧ Runs M E p t (.returned a) t' ∧ Evolves M E t' s

variable {M : Machine Op Ret ε σ} {E : Setting Op ε σ}

theorem Evolves.others {s s' t : σ} (h : Evolves M E s s') (ho : E.others s' t) :
    Evolves M E s t :=
  h.tail (.inl ho)

theorem Evolves.exec {s s' : σ} (h : Evolves M E s s') (o : Op) :
    Evolves M E s (M.exec o s').2 :=
  h.tail (.inr ⟨o, rfl⟩)

theorem Evolves.meet {s s' t : σ} {o : Op} {f : Fault ε} {a : Option (Except ε (Ret o))}
    (h : Evolves M E s s') (hm : M.meet o f s' = (a, t)) : Evolves M E s t := by
  have hstate := M.meet_state o f s'
  rw [hm] at hstate
  rcases hstate with rfl | rfl
  · exact h
  · exact h.exec o

/-- A run leads from its first state to its last. -/
theorem Runs.evolves {p : Prog Op Ret ε α} {s s' : σ} {r : Outcome ε α}
    (h : Runs M E p s r s') : Evolves M E s s' := by
  induction h with
  | pure => exact .refl
  | raise => exact .refl
  | answered ho _ hm _ ih => exact ((Evolves.others .refl ho).meet hm).trans ih
  | stopped ho _ hm => exact (Evolves.others .refl ho).meet hm

theorem Runs.during {p : Prog Op Ret ε α} {s₀ s s' : σ} {a : α}
    (h : Runs M E p s (.returned a) s') (hs : Evolves M E s₀ s) : During M E s₀ s' p a :=
  ⟨s, s', hs, h, .refl⟩

theorem During.mono {p : Prog Op Ret ε α} {s₀ s s' : σ} {a : α} (h : During M E s₀ s p a)
    (hs : Evolves M E s s') : During M E s₀ s' p a := by
  obtain ⟨t, t', ht, hrun, ht'⟩ := h
  exact ⟨t, t', ht, hrun, ht'.trans hs⟩

/-- The second part of a sequence may use that the first one answered. -/
theorem Ensures.bind_run {I : σ → Prop} {p : Prog Op Ret ε α} {f : α → Prog Op Ret ε β}
    {Q : β → σ → Prop} {R : α → σ → Prop} {s : σ} (hp : Ensures M E I p R s)
    (hf : ∀ a s₁, Runs M E p s (.returned a) s₁ → I s₁ → R a s₁ → Ensures M E I (f a) Q s₁) :
    Ensures M E I (p.bind f) Q s := by
  refine .bind (R := fun a s₁ => R a s₁ ∧ Runs M E p s (.returned a) s₁)
    (wp_of_runs fun r s₁ hr => ?_) fun a s₁ hI hR => hf a s₁ hR.2 hI hR.1
  obtain ⟨hI, hR⟩ := hp.runs hr
  refine ⟨hI, fun a ha => ?_⟩
  subst ha
  exact ⟨hR a rfl, hr⟩

/-- Notes are never taken back. -/
theorem Evolves.notes {note : (o : Op) → Ret o → Option N} {s s' : σ × List N}
    (h : Evolves (M.noted note) (E.noted N) s s') : s.2 <+: s'.2 := by
  induction h with
  | refl => exact List.prefix_refl _
  | tail _ hmove ih =>
    rcases hmove with ho | ⟨o, rfl⟩
    · rw [ho.2]
      exact ih
    · refine ih.trans ?_
      obtain ⟨notes, hx⟩ := exec_noted M note o _
      rw [hx]
      exact List.prefix_append _ _

end Durable
