import HollysysController.Durable.Prog

/-! # Runs of a program

`eval` is the undisturbed run and `replay` a run that meets a given script of
faults; both are computable. `Runs` collects every run a `Setting` allows, and
`wp` is the rule set for proving a property of all of them. -/

namespace Durable

variable {Op : Type} {Ret : Op → Type} {ε σ α β : Type}

namespace Machine

/-- The undisturbed run. -/
def eval (M : Machine Op Ret ε σ) : Prog Op Ret ε α → σ → Outcome ε α × σ
  | .pure a, s => (.returned a, s)
  | .raise e, s => (.raised e, s)
  | .perform o k, s => M.eval (k (M.exec o s).1) (M.exec o s).2

/-- The run that meets the faults of a script, one an operation, and none once
the script is used up. -/
def replay (M : Machine Op Ret ε σ) :
    Prog Op Ret ε α → List (Fault ε) → σ → Outcome ε α × σ
  | .pure a, _, s => (.returned a, s)
  | .raise e, _, s => (.raised e, s)
  | .perform o k, fs, s =>
    match M.meet o (fs.headD .none) s with
    | (some a, s₁) => M.replay (k a) fs.tail s₁
    | (none, s₁) => (.stopped, s₁)

/-- The run in which the others make the moves of a script, one before each operation, and
none once the script is used up. -/
def interleaved (M : Machine Op Ret ε σ) :
    Prog Op Ret ε α → List (σ → σ) → σ → Outcome ε α × σ
  | .pure a, _, s => (.returned a, s)
  | .raise e, _, s => (.raised e, s)
  | .perform o k, ms, s =>
    M.interleaved (k (M.exec o (ms.headD id s)).1) ms.tail (M.exec o (ms.headD id s)).2

variable (M : Machine Op Ret ε σ)

@[simp] theorem eval_pure (a : α) (s : σ) :
    M.eval (.pure a) s = (.returned a, s) := rfl

@[simp] theorem eval_raise (e : ε) (s : σ) :
    M.eval (.raise e : Prog Op Ret ε α) s = (.raised e, s) := rfl

theorem eval_bind (p : Prog Op Ret ε α) (f : α → Prog Op Ret ε β) (s : σ) :
    M.eval (p.bind f) s =
      match M.eval p s with
      | (.returned a, s') => M.eval (f a) s'
      | (.raised e, s') => (.raised e, s')
      | (.stopped, s') => (.stopped, s') := by
  induction p generalizing s with
  | pure a => rfl
  | raise e => rfl
  | perform o k ih => exact ih _ _

theorem eval_attempt (p : Prog Op Ret ε α) (s : σ) :
    M.eval p.attempt s =
      match M.eval p s with
      | (.returned a, s') => (.returned (.ok a), s')
      | (.raised e, s') => (.returned (.error e), s')
      | (.stopped, s') => (.stopped, s') := by
  induction p generalizing s with
  | pure a => rfl
  | raise e => rfl
  | perform o k ih => exact ih _ _

theorem eval_op (o : Op) (s : σ) :
    M.eval (Prog.op o) s =
      match M.exec o s with
      | (.ok a, s') => (.returned a, s')
      | (.error e, s') => (.raised e, s') := by
  rcases h : M.exec o s with ⟨r, s'⟩
  cases r <;> simp [Prog.op, eval, h]

/-- After an answer the sequence goes on with it. -/
theorem eval_bind_of {p : Prog Op Ret ε α} {f : α → Prog Op Ret ε β} {s s' : σ} {a : α}
    (h : M.eval p s = (.returned a, s')) : M.eval (p.bind f) s = M.eval (f a) s' := by
  rw [eval_bind, h]

theorem eval_bind_raised {p : Prog Op Ret ε α} {f : α → Prog Op Ret ε β} {s s' : σ} {e : ε}
    (h : M.eval p s = (.raised e, s')) : M.eval (p.bind f) s = (.raised e, s') := by
  rw [eval_bind, h]

/-- What holds after the first part, and is kept by the second, holds after both. -/
theorem eval_bind_keeps {I : σ → Prop} {p : Prog Op Ret ε α} {f : α → Prog Op Ret ε β} {s : σ}
    (hp : I (M.eval p s).2) (hf : ∀ a s', I s' → I (M.eval (f a) s').2) :
    I (M.eval (p.bind f) s).2 := by
  rw [eval_bind]
  rcases hx : M.eval p s with ⟨r, s'⟩
  rw [hx] at hp
  cases r with
  | returned a => exact hf a s' hp
  | raised e => exact hp
  | stopped => exact hp

theorem eval_attempt_state (p : Prog Op Ret ε α) (s : σ) :
    (M.eval p.attempt s).2 = (M.eval p s).2 := by
  rw [eval_attempt]
  rcases M.eval p s with ⟨r, s'⟩
  cases r <;> rfl

/-- A sequence answers when both of its parts do. -/
theorem eval_bind_returned {p : Prog Op Ret ε α} {f : α → Prog Op Ret ε β} {s s' : σ} {b : β} :
    M.eval (p.bind f) s = (.returned b, s') ↔
      ∃ a s₁, M.eval p s = (.returned a, s₁) ∧ M.eval (f a) s₁ = (.returned b, s') := by
  rw [eval_bind]
  rcases hx : M.eval p s with ⟨r, s₁⟩
  cases r with
  | returned a =>
    constructor
    · exact fun h => ⟨a, s₁, rfl, h⟩
    · rintro ⟨_, _, h, hf⟩
      cases h
      exact hf
  | raised e => simp
  | stopped => simp

theorem eval_attempt_ok {p : Prog Op Ret ε α} {s s' : σ} {a : α} :
    M.eval p.attempt s = (.returned (.ok a), s') ↔ M.eval p s = (.returned a, s') := by
  rw [eval_attempt]
  rcases M.eval p s with ⟨r, s₁⟩
  cases r <;> simp

theorem eval_op_state (o : Op) (s : σ) : (M.eval (Prog.op o) s).2 = (M.exec o s).2 := by
  rw [eval_op]
  rcases M.exec o s with ⟨r, s'⟩
  cases r <;> rfl

/-- An undisturbed program never stops half-way. -/
theorem eval_ne_stopped (p : Prog Op Ret ε α) (s : σ) : (M.eval p s).1 ≠ .stopped := by
  induction p generalizing s with
  | pure a => simp
  | raise e => simp
  | perform o k ih => exact ih _ _

/-- A program of reads answers alike in two states whose reads are alike. -/
theorem eval_reads {R : σ → σ → Prop} {φ : Op → Prop}
    (hread : ∀ o s t, φ o → R s t →
      (M.exec o s).2 = s ∧ (M.exec o t).2 = t ∧ (M.exec o s).1 = (M.exec o t).1)
    {p : Prog Op Ret ε α} (hp : p.Uses φ) {s t : σ} (hst : R s t) :
    ∃ r, M.eval p s = (r, s) ∧ M.eval p t = (r, t) := by
  induction p with
  | pure a => exact ⟨_, rfl, rfl⟩
  | raise e => exact ⟨_, rfl, rfl⟩
  | perform o k ih =>
    obtain ⟨hs, ht, ha⟩ := hread o s t hp.1 hst
    simp only [eval, hs, ht, ← ha]
    exact ih _ (hp.2 _)

theorem replay_nil (p : Prog Op Ret ε α) (s : σ) : M.replay p [] s = M.eval p s := by
  induction p generalizing s with
  | pure a => rfl
  | raise e => rfl
  | perform o k ih => exact ih _ _

end Machine

/-- `Runs M E p s r s'`: under `E`, a run of `p` from `s` can end with `r` in `s'`. -/
inductive Runs (M : Machine Op Ret ε σ) (E : Setting Op ε σ) :
    Prog Op Ret ε α → σ → Outcome ε α → σ → Prop
  | pure {a s} : Runs M E (.pure a) s (.returned a) s
  | raise {e s} : Runs M E (.raise e) s (.raised e) s
  | answered {o k s s₁ f a s₂ r s'} :
      E.others s s₁ → E.faults s₁ o f → M.meet o f s₁ = (some a, s₂) →
      Runs M E (k a) s₂ r s' → Runs M E (.perform o k) s r s'
  | stopped {o k s s₁ f s₂} :
      E.others s s₁ → E.faults s₁ o f → M.meet o f s₁ = (none, s₂) →
      Runs M E (.perform o k) s .stopped s₂

/-- Every run of `p` from `s` that `E` allows ends as `Q` says. -/
def wp (M : Machine Op Ret ε σ) (E : Setting Op ε σ) :
    Prog Op Ret ε α → (Outcome ε α → σ → Prop) → σ → Prop
  | .pure a, Q, s => Q (.returned a) s
  | .raise e, Q, s => Q (.raised e) s
  | .perform o k, Q, s => ∀ s₁ f, E.others s s₁ → E.faults s₁ o f →
      match M.meet o f s₁ with
      | (some a, s₂) => wp M E (k a) Q s₂
      | (none, s₂) => Q .stopped s₂

variable {M : Machine Op Ret ε σ} {E : Setting Op ε σ}

theorem Runs.sound {p : Prog Op Ret ε α} {s s' : σ} {r : Outcome ε α}
    {Q : Outcome ε α → σ → Prop} (h : Runs M E p s r s') (hp : wp M E p Q s) : Q r s' := by
  induction h with
  | pure => exact hp
  | raise => exact hp
  | answered ho hf hm _ ih =>
    have hk := hp _ _ ho hf
    rw [hm] at hk
    exact ih hk
  | stopped ho hf hm =>
    have hk := hp _ _ ho hf
    rw [hm] at hk
    exact hk

/-- `wp` asks for nothing that the runs do not show. -/
theorem wp_of_runs {p : Prog Op Ret ε α} {s : σ} {Q : Outcome ε α → σ → Prop}
    (h : ∀ r s', Runs M E p s r s' → Q r s') : wp M E p Q s := by
  induction p generalizing s with
  | pure a => exact h _ _ .pure
  | raise e => exact h _ _ .raise
  | perform o k ih =>
    intro s₁ f ho hf
    rcases hm : M.meet o f s₁ with ⟨a, s₂⟩
    cases a with
    | none => exact h _ _ (.stopped ho hf hm)
    | some a => exact ih a fun r s' hr => h r s' (.answered ho hf hm hr)

/-- A scripted run is a run, when the setting allows the faults of the script. -/
theorem replay_runs_within {φ : Fault ε → Prop} (hs : ∀ s, E.others s s) (hnone : φ .none)
    (hf : ∀ s o f, φ f → E.faults s o f) (p : Prog Op Ret ε α) {fs : List (Fault ε)}
    (hfs : ∀ f ∈ fs, φ f) (s : σ) :
    Runs M E p s (M.replay p fs s).1 (M.replay p fs s).2 := by
  induction p generalizing fs s with
  | pure a => exact .pure
  | raise e => exact .raise
  | perform o k ih =>
    have hhead : φ (fs.headD .none) := by
      cases fs with
      | nil => exact hnone
      | cons f fs => exact hfs f (by simp)
    rcases hm : M.meet o (fs.headD .none) s with ⟨a, s₂⟩
    cases a with
    | none =>
      simp only [Machine.replay, hm]
      exact .stopped (hs s) (hf _ _ _ hhead) hm
    | some a =>
      simp only [Machine.replay, hm]
      exact .answered (hs s) (hf _ _ _ hhead) hm
        (ih a (fun f hmem => hfs f (List.mem_of_mem_tail hmem)) _)

/-- Each fault of the script is one that its operation may meet. -/
def Machine.permitted (M : Machine Op Ret ε σ) (may : Op → Fault ε → Bool) :
    Prog Op Ret ε α → List (Fault ε) → σ → Bool
  | .pure _, _, _ => true
  | .raise _, _, _ => true
  | .perform o k, fs, s =>
    may o (fs.headD .none) &&
      (match M.meet o (fs.headD .none) s with
        | (some a, s₁) => M.permitted may (k a) fs.tail s₁
        | (none, _) => true)

/-- A scripted run is a run, when each fault of the script may befall its operation. -/
theorem replay_runs_permitted {may : Op → Fault ε → Bool} (hs : ∀ s, E.others s s)
    (hf : ∀ s o f, may o f = true → E.faults s o f) {p : Prog Op Ret ε α} {fs : List (Fault ε)}
    {s : σ} (h : M.permitted may p fs s = true) :
    Runs M E p s (M.replay p fs s).1 (M.replay p fs s).2 := by
  induction p generalizing fs s with
  | pure a => exact .pure
  | raise e => exact .raise
  | perform o k ih =>
    simp only [Machine.permitted, Bool.and_eq_true] at h
    obtain ⟨hhead, hrest⟩ := h
    rcases hm : M.meet o (fs.headD .none) s with ⟨a, s₂⟩
    rw [hm] at hrest
    cases a with
    | none =>
      simp only [Machine.replay, hm]
      exact .stopped (hs s) (hf _ _ _ hhead) hm
    | some a =>
      simp only [Machine.replay, hm]
      exact .answered (hs s) (hf _ _ _ hhead) hm (ih a hrest)

/-- Any script is a run of a setting in which anything may fail. -/
theorem replay_runs (hs : ∀ s, E.others s s) (hf : ∀ s o f, E.faults s o f)
    (p : Prog Op Ret ε α) (fs : List (Fault ε)) (s : σ) :
    Runs M E p s (M.replay p fs s).1 (M.replay p fs s).2 :=
  replay_runs_within (φ := fun _ => True) hs trivial (fun s o f _ => hf s o f) p
    (fun _ _ => trivial) s

/-- The undisturbed run is a run, when nobody has to move or fail. -/
theorem eval_runs (hs : ∀ s, E.others s s) (hf : ∀ s o, E.faults s o .none)
    (p : Prog Op Ret ε α) (s : σ) : Runs M E p s (M.eval p s).1 (M.eval p s).2 := by
  induction p generalizing s with
  | pure a => exact .pure
  | raise e => exact .raise
  | perform o k ih => exact .answered (hs s) (hf s o) rfl (ih _ _)

/-- A scripted interleaving is a run, when the setting allows each move of the script. -/
theorem interleaved_runs (hs : ∀ s, E.others s s) (hf : ∀ s o, E.faults s o .none)
    (p : Prog Op Ret ε α) (ms : List (σ → σ)) (hm : ∀ m ∈ ms, ∀ s, E.others s (m s)) (s : σ) :
    Runs M E p s (M.interleaved p ms s).1 (M.interleaved p ms s).2 := by
  induction p generalizing ms s with
  | pure a => exact .pure
  | raise e => exact .raise
  | perform o k ih =>
    cases ms with
    | nil => exact .answered (hs s) (hf s o) rfl (ih _ [] hm _)
    | cons m ms =>
      exact .answered (hm m List.mem_cons_self s) (hf _ o) rfl
        (ih _ ms (fun m' h => hm m' (List.mem_cons_of_mem _ h)) _)

/-- Each state in which the undisturbed run performs an operation passes the check. -/
def Machine.checked (M : Machine Op Ret ε σ) (check : σ → Bool) : Prog Op Ret ε α → σ → Bool
  | .pure _, _ => true
  | .raise _, _ => true
  | .perform o k, s => check s && M.checked check (k (M.exec o s).1) (M.exec o s).2

/-- The undisturbed run is a run when nobody has to move or fail in a checked state. The
invariant carries what the check cannot decide. -/
theorem checked_runs {I : σ → Prop} {check : σ → Bool} (hI : ∀ o s, I s → I (M.exec o s).2)
    (hs : ∀ s, I s → check s = true → E.others s s) (hf : ∀ s o, E.faults s o .none)
    {p : Prog Op Ret ε α} {s : σ} (h : M.checked check p s = true) (hi : I s) :
    Runs M E p s (M.eval p s).1 (M.eval p s).2 := by
  induction p generalizing s with
  | pure a => exact .pure
  | raise e => exact .raise
  | perform o k ih =>
    simp only [Machine.checked, Bool.and_eq_true] at h
    exact .answered (hs s hi h.1) (hf s o) rfl (ih _ h.2 (hI o s hi))

/-- In the quiet setting the only run is `eval`. -/
theorem runs_quiet {p : Prog Op Ret ε α} {s s' : σ} {r : Outcome ε α}
    (h : Runs M (Setting.quiet Op ε σ) p s r s') : M.eval p s = (r, s') := by
  induction h with
  | pure => rfl
  | raise => rfl
  | answered ho hf hm _ ih =>
    cases ho
    cases hf
    simp only [Machine.meet, Prod.mk.injEq, Option.some.injEq] at hm
    obtain ⟨rfl, rfl⟩ := hm
    exact ih
  | stopped ho hf hm =>
    cases hf
    simp [Machine.meet] at hm

/-- A run that starts with an operation ends there, before or after its effect,
or goes on with its answer. -/
theorem Runs.first {o : Op} {f : Ret o → Prog Op Ret ε β} {s s' : σ} {r : Outcome ε β}
    (h : Runs M E ((Prog.op o).bind f) s r s') :
    ∃ s₁, E.others s s₁ ∧ (s' = s₁ ∨ s' = (M.exec o s₁).2 ∨
      ∃ a, (M.exec o s₁).1 = .ok a ∧ Runs M E (f a) (M.exec o s₁).2 r s') := by
  cases h with
  | @answered _ _ _ s₁ fault a s₂ _ _ ho hf hm hk =>
    refine ⟨s₁, ho, ?_⟩
    cases fault <;> simp only [Machine.meet, Prod.mk.injEq, Option.some.injEq, reduceCtorEq,
      false_and] at hm
    · obtain ⟨rfl, rfl⟩ := hm
      rcases hx : (M.exec o s₁).1 with e | a
      · rw [hx] at hk
        cases hk
        exact .inr (.inl rfl)
      · rw [hx] at hk
        exact .inr (.inr ⟨a, rfl, hk⟩)
    · obtain ⟨rfl, rfl⟩ := hm
      cases hk
      exact .inl rfl
    · obtain ⟨rfl, rfl⟩ := hm
      cases hk
      exact .inr (.inl rfl)
  | @stopped _ _ _ s₁ fault s₂ ho hf hm =>
    refine ⟨s₁, ho, ?_⟩
    cases fault <;> simp only [Machine.meet, Prod.mk.injEq, reduceCtorEq, false_and,
      true_and] at hm
    · exact .inl hm.symm
    · exact .inr (.inl hm.symm)

/-! ## Rules -/

/-- A run returns one of the answers of the program. -/
theorem Runs.answers {P : α → Prop} {p : Prog Op Ret ε α} {s s' : σ} {a : α}
    (h : Runs M E p s (.returned a) s') (hp : p.Answers P) : P a := by
  generalize hr : Outcome.returned a = r at h
  induction h with
  | pure =>
    cases hr
    exact hp
  | raise => cases hr
  | answered _ _ _ _ ih => exact ih (hp _) hr
  | stopped => cases hr

/-- A run of one program after another begins with a run of the first. -/
theorem Runs.bound {p : Prog Op Ret ε α} {f : α → Prog Op Ret ε β} {s s' : σ} {b : β}
    (h : Runs M E (p.bind f) s (.returned b) s') :
    ∃ a s₁, Runs M E p s (.returned a) s₁ ∧ Runs M E (f a) s₁ (.returned b) s' := by
  induction p generalizing s with
  | pure a => exact ⟨a, s, .pure, h⟩
  | raise e => cases h
  | perform o k ih =>
    cases h with
    | answered ho hf hm hk =>
      obtain ⟨a, s₁, hp, hrest⟩ := ih _ hk
      exact ⟨a, s₁, .answered ho hf hm hp, hrest⟩

theorem wp_mono {p : Prog Op Ret ε α} {Q Q' : Outcome ε α → σ → Prop} {s : σ}
    (h : ∀ r s', Q r s' → Q' r s') (hp : wp M E p Q s) : wp M E p Q' s :=
  wp_of_runs fun r s' hr => h r s' (hr.sound hp)

theorem wp_bind {p : Prog Op Ret ε α} {f : α → Prog Op Ret ε β}
    {Q : Outcome ε β → σ → Prop} {s : σ} :
    wp M E (p.bind f) Q s ↔
      wp M E p (fun r s' => match r with
        | .returned a => wp M E (f a) Q s'
        | .raised e => Q (.raised e) s'
        | .stopped => Q .stopped s') s := by
  induction p generalizing s with
  | pure a => rfl
  | raise e => rfl
  | perform o k ih =>
    constructor <;> intro h s₁ f ho hf <;> specialize h s₁ f ho hf <;>
      rcases hm : M.meet o f s₁ with ⟨a, s₂⟩ <;> cases a <;> simp only [hm] at h ⊢
    · exact h
    · exact (ih _).mp h
    · exact h
    · exact (ih _).mpr h

theorem wp_attempt {p : Prog Op Ret ε α} {Q : Outcome ε (Except ε α) → σ → Prop} {s : σ} :
    wp M E p.attempt Q s ↔
      wp M E p (fun r s' => match r with
        | .returned a => Q (.returned (.ok a)) s'
        | .raised e => Q (.returned (.error e)) s'
        | .stopped => Q .stopped s') s := by
  induction p generalizing s with
  | pure a => rfl
  | raise e => rfl
  | perform o k ih =>
    constructor <;> intro h s₁ f ho hf <;> specialize h s₁ f ho hf <;>
      rcases hm : M.meet o f s₁ with ⟨a, s₂⟩ <;> cases a <;> simp only [hm] at h ⊢
    · exact h
    · exact (ih _).mp h
    · exact h
    · exact (ih _).mpr h

/-- One operation: it may fail or stop before its effect, or after it. -/
theorem wp_op {o : Op} {Q : Outcome ε (Ret o) → σ → Prop} {s : σ}
    (hbefore : ∀ s₁, E.others s s₁ → Q .stopped s₁ ∧
      ∀ e, E.faults s₁ o (.failBefore e) → Q (.raised e) s₁)
    (hafter : ∀ s₁, E.others s s₁ → Q .stopped (M.exec o s₁).2 ∧
      ∀ e, E.faults s₁ o (.failAfter e) → Q (.raised e) (M.exec o s₁).2)
    (hanswer : ∀ s₁, E.others s s₁ → match M.exec o s₁ with
      | (.ok a, s₂) => Q (.returned a) s₂
      | (.error e, s₂) => Q (.raised e) s₂) : wp M E (Prog.op o) Q s := by
  intro s₁ f ho hf
  cases f with
  | none =>
    have h := hanswer s₁ ho
    rcases hx : M.exec o s₁ with ⟨r, s₂⟩
    rw [hx] at h
    simp only [Machine.meet, hx]
    cases r <;> exact h
  | failBefore e => exact (hbefore s₁ ho).2 e hf
  | failAfter e => exact (hafter s₁ ho).2 e hf
  | stopBefore => exact (hbefore s₁ ho).1
  | stopAfter => exact (hafter s₁ ho).1

/-- A property that the moves of the others keep, and every operation of the
program, holds however and wherever the program ends. -/
theorem wp_invariant {I : σ → Prop} {φ : Op → Prop}
    (hothers : ∀ s s', I s → E.others s s' → I s')
    (hop : ∀ o s, φ o → I s → I (M.exec o s).2) {p : Prog Op Ret ε α} (hp : p.Uses φ)
    {s : σ} (hs : I s) : wp M E p (fun _ s' => I s') s := by
  induction p generalizing s with
  | pure a => exact hs
  | raise e => exact hs
  | perform o k ih =>
    intro s₁ f ho hf
    have h₁ := hothers _ _ hs ho
    have h₂ : I (M.meet o f s₁).2 := by
      rcases M.meet_state o f s₁ with h | h <;> rw [h]
      · exact h₁
      · exact hop o _ hp.1 h₁
    rcases hm : M.meet o f s₁ with ⟨a, s₂⟩
    rw [hm] at h₂
    cases a with
    | none => exact h₂
    | some a => exact ih a (hp.2 a) h₂

end Durable
