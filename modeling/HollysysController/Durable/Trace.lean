import HollysysController.Durable.Run

/-! # Traced runs

A machine that notes what its operations answer, or which of the operations it
watches have taken effect. The notes change nothing: the runs of the noting
machine are the runs of the machine. -/

namespace Durable

variable {Op : Type} {Ret : Op → Type} {ε σ α N : Type}

/-- `M`, with a note of each answer that is worth one, in their order. -/
def Machine.noted (M : Machine Op Ret ε σ) (note : (o : Op) → Ret o → Option N) :
    Machine Op Ret ε (σ × List N) where
  exec o s := match M.exec o s.1 with
    | (.ok a, s') => (.ok a, s', s.2 ++ (note o a).toList)
    | (.error e, s') => (.error e, s', s.2)

/-- The setting of the noting machine: nobody else writes into the notes. -/
def Setting.noted (N : Type) (E : Setting Op ε σ) : Setting Op ε (σ × List N) where
  others s s' := E.others s.1 s'.1 ∧ s'.2 = s.2
  faults s := E.faults s.1

/-- `M`, with the watched operations that took effect, in their order. -/
def Machine.traced (M : Machine Op Ret ε σ) (watch : Op → Bool) :
    Machine Op Ret ε (σ × List Op) where
  exec o s := match M.exec o s.1 with
    | (.ok a, s') => (.ok a, s', if watch o then s.2 ++ [o] else s.2)
    | (.error e, s') => (.error e, s', s.2)

/-- The setting of the traced machine: nobody writes into the notes. -/
def Setting.traced (E : Setting Op ε σ) : Setting Op ε (σ × List Op) where
  others s s' := E.others s.1 s'.1 ∧ s'.2 = s.2
  faults s := E.faults s.1

variable {M : Machine Op Ret ε σ} {E : Setting Op ε σ} {watch : Op → Bool}
variable {note : (o : Op) → Ret o → Option N}

/-- What happens to the state does not depend on the notes. -/
theorem exec_noted (M : Machine Op Ret ε σ) (note : (o : Op) → Ret o → Option N) (o : Op)
    (s : σ × List N) :
    ∃ notes, (M.noted note).exec o s =
      ((M.exec o s.1).1, (M.exec o s.1).2, s.2 ++ notes) := by
  simp only [Machine.noted]
  rcases M.exec o s.1 with ⟨r, s'⟩
  cases r
  · exact ⟨[], by simp⟩
  · exact ⟨_, rfl⟩

/-- An answer, and the note it is worth. -/
theorem noted_ok {o : Op} {s s' : σ × List N} {a : Ret o}
    (h : (M.noted note).exec o s = (.ok a, s')) :
    M.exec o s.1 = (.ok a, s'.1) ∧ s'.2 = s.2 ++ (note o a).toList := by
  simp only [Machine.noted] at h
  rcases hx : M.exec o s.1 with ⟨r, t⟩
  rw [hx] at h
  cases r <;> cases h
  exact ⟨rfl, rfl⟩

theorem meet_noted (M : Machine Op Ret ε σ) (note : (o : Op) → Ret o → Option N) (o : Op)
    (f : Fault ε) (s : σ × List N) :
    ∃ notes, (M.noted note).meet o f s =
      ((M.meet o f s.1).1, (M.meet o f s.1).2, s.2 ++ notes) := by
  obtain ⟨notes, h⟩ := exec_noted M note o s
  cases f with
  | none => exact ⟨notes, by simp [Machine.meet, h]⟩
  | failBefore e => exact ⟨[], by simp [Machine.meet]⟩
  | failAfter e => exact ⟨notes, by simp [Machine.meet, h]⟩
  | stopBefore => exact ⟨[], by simp [Machine.meet]⟩
  | stopAfter => exact ⟨notes, by simp [Machine.meet, h]⟩

/-- **The notes are only notes.** A run of the noting machine is one of the machine. -/
theorem Runs.unnoted {p : Prog Op Ret ε α} {s s' : σ × List N} {r : Outcome ε α}
    (h : Runs (M.noted note) (E.noted N) p s r s') : Runs M E p s.1 r s'.1 := by
  induction h with
  | pure => exact .pure
  | raise => exact .raise
  | @answered o k s s₁ f a s₂ r s' ho hf hm _ ih =>
    obtain ⟨notes, hx⟩ := meet_noted M note o f s₁
    have hm' := hm.symm.trans hx
    simp only [Prod.mk.injEq] at hm'
    exact .answered ho.1 hf (Prod.ext hm'.1.symm (congrArg Prod.fst hm'.2).symm) ih
  | @stopped o k s s₁ f s₂ ho hf hm =>
    obtain ⟨notes, hx⟩ := meet_noted M note o f s₁
    have hm' := hm.symm.trans hx
    simp only [Prod.mk.injEq] at hm'
    exact .stopped ho.1 hf (Prod.ext hm'.1.symm (congrArg Prod.fst hm'.2).symm)

/-- Every run of the machine can be noted. -/
theorem Runs.noted {p : Prog Op Ret ε α} {s s' : σ} {r : Outcome ε α}
    (h : Runs M E p s r s') (notes : List N) :
    ∃ notes', Runs (M.noted note) (E.noted N) p (s, notes) r (s', notes') := by
  induction h generalizing notes with
  | pure => exact ⟨_, .pure⟩
  | raise => exact ⟨_, .raise⟩
  | @answered o k s s₁ f a s₂ r s' ho hf hm _ ih =>
    obtain ⟨more, hx⟩ := meet_noted M note o f (s₁, notes)
    rw [hm] at hx
    obtain ⟨notes', hk⟩ := ih (notes ++ more)
    have ho' : (E.noted N).others (s, notes) (s₁, notes) := ⟨ho, rfl⟩
    exact ⟨notes', .answered ho' hf hx hk⟩
  | @stopped o k s s₁ f s₂ ho hf hm =>
    obtain ⟨more, hx⟩ := meet_noted M note o f (s₁, notes)
    rw [hm] at hx
    have ho' : (E.noted N).others (s, notes) (s₁, notes) := ⟨ho, rfl⟩
    exact ⟨_, .stopped ho' hf hx⟩

/-- The watched operations are one kind of notes. -/
theorem traced_eq_noted (M : Machine Op Ret ε σ) (watch : Op → Bool) :
    M.traced watch = M.noted fun o _ => if watch o then some o else none := by
  unfold Machine.traced Machine.noted
  congr
  funext o s
  rcases M.exec o s.1 with ⟨r, s'⟩
  cases r with
  | error e => rfl
  | ok a => cases hw : watch o <;> simp [hw]

/-- An operation that is not watched leaves the notes alone. -/
theorem exec_unwatched {o : Op} (ho : watch o = false) (s : σ × List Op) :
    ((M.traced watch).exec o s).2 = ((M.exec o s.1).2, s.2) := by
  simp only [Machine.traced]
  rcases M.exec o s.1 with ⟨r, s'⟩
  cases r <;> simp [ho]

theorem exec_traced (M : Machine Op Ret ε σ) (watch : Op → Bool) (o : Op) (s : σ × List Op) :
    ∃ done, (M.traced watch).exec o s = ((M.exec o s.1).1, (M.exec o s.1).2, done) := by
  rw [traced_eq_noted]
  obtain ⟨notes, h⟩ := exec_noted M (fun o _ => if watch o then some o else none) o s
  exact ⟨_, h⟩

/-- A run of the traced machine is one of the machine. -/
theorem Runs.untraced {p : Prog Op Ret ε α} {s s' : σ × List Op} {r : Outcome ε α}
    (h : Runs (M.traced watch) E.traced p s r s') : Runs M E p s.1 r s'.1 := by
  rw [traced_eq_noted] at h
  exact Runs.unnoted h

/-- Every run of the machine is traced by some notes. -/
theorem Runs.traced {p : Prog Op Ret ε α} {s s' : σ} {r : Outcome ε α}
    (h : Runs M E p s r s') (done : List Op) :
    ∃ done', Runs (M.traced watch) E.traced p (s, done) r (s', done') := by
  rw [traced_eq_noted]
  exact h.noted done

end Durable
