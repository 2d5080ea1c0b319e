import HollysysController.Durable.Closure

/-! # Paths of a program

What a program issues depends on the answers it gets. A path is one way through
the program up to some moment: the operations it issues, with any answers at all.
A guard says after which events an operation may be issued; a program that heeds
it does so on every path, whatever the world around it does. -/

namespace Durable

variable {Op : Type} {Ret : Op → Type} {ε σ α β : Type}

/-- An operation that was issued, and its answer. -/
structure Event (Op : Type) (Ret : Op → Type) (ε : Type) where
  op : Op
  answer : Except ε (Ret op)

/-- The events of the program up to some moment. The last operation may have been issued
without an answer so far. -/
inductive Path : Prog Op Ret ε α → List (Event Op Ret ε) → Option Op → Prop
  | here {p : Prog Op Ret ε α} : Path p [] none
  | issued {o : Op} {k : Except ε (Ret o) → Prog Op Ret ε α} : Path (.perform o k) [] (some o)
  | answered {o : Op} {k : Except ε (Ret o) → Prog Op Ret ε α} {answer : Except ε (Ret o)}
      {es : List (Event Op Ret ε)} {next : Option Op} (h : Path (k answer) es next) :
      Path (.perform o k) (⟨o, answer⟩ :: es) next

/-- After the events `h`, the program issues each operation under its guard, and ends with
`Q` of its outcome and all events. -/
def Heeds (φ : List (Event Op Ret ε) → Op → Prop) :
    Prog Op Ret ε α → (Except ε α → List (Event Op Ret ε) → Prop) → List (Event Op Ret ε) → Prop
  | .pure a, Q, h => Q (.ok a) h
  | .raise e, Q, h => Q (.error e) h
  | .perform o k, Q, h => φ h o ∧ ∀ answer, Heeds φ (k answer) Q (h ++ [⟨o, answer⟩])

variable {φ : List (Event Op Ret ε) → Op → Prop} {h : List (Event Op Ret ε)}

/-- **What a heeding program issues was allowed.** -/
theorem Heeds.path {p : Prog Op Ret ε α} {Q : Except ε α → List (Event Op Ret ε) → Prop}
    {es : List (Event Op Ret ε)} {o : Op} (hp : Heeds φ p Q h) (hpath : Path p es (some o)) :
    φ (h ++ es) o := by
  generalize hnext : some o = next at hpath
  induction hpath generalizing h with
  | here => cases hnext
  | issued =>
    cases hnext
    rw [List.append_nil]
    exact hp.1
  | @answered o k answer es next _ ih =>
    have := ih (hp.2 answer) hnext
    rwa [List.append_assoc] at this

theorem Heeds.mono {p : Prog Op Ret ε α} {Q Q' : Except ε α → List (Event Op Ret ε) → Prop}
    (hp : Heeds φ p Q h) (hQ : ∀ r h', Q r h' → Q' r h') : Heeds φ p Q' h := by
  induction p generalizing h with
  | pure a => exact hQ _ _ hp
  | raise e => exact hQ _ _ hp
  | perform o k ih => exact ⟨hp.1, fun answer => ih answer (hp.2 answer)⟩

theorem heeds_bind {p : Prog Op Ret ε α} {f : α → Prog Op Ret ε β}
    {Q : Except ε β → List (Event Op Ret ε) → Prop} :
    Heeds φ (p.bind f) Q h ↔
      Heeds φ p (fun r h' => match r with
        | .ok a => Heeds φ (f a) Q h'
        | .error e => Q (.error e) h') h := by
  induction p generalizing h with
  | pure a => rfl
  | raise e => rfl
  | perform o k ih => exact and_congr_right fun _ => forall_congr' fun answer => ih answer

theorem heeds_attempt {p : Prog Op Ret ε α}
    {Q : Except ε (Except ε α) → List (Event Op Ret ε) → Prop} :
    Heeds φ p.attempt Q h ↔ Heeds φ p (fun r h' => Q (.ok r) h') h := by
  induction p generalizing h with
  | pure a => rfl
  | raise e => rfl
  | perform o k ih => exact and_congr_right fun _ => forall_congr' fun answer => ih answer

/-- A single operation. -/
theorem heeds_op {o : Op} {Q : Except ε (Ret o) → List (Event Op Ret ε) → Prop} (ho : φ h o)
    (hQ : ∀ answer, Q answer (h ++ [⟨o, answer⟩])) :
    Heeds φ (Prog.op o : Prog Op Ret ε (Ret o)) Q h :=
  ⟨ho, fun answer => by cases answer <;> exact hQ _⟩

/-- After some events a heeding program may be followed by programs that heed the guard after
any events. -/
theorem leads_heeds (φ : List (Event Op Ret ε) → Op → Prop) (h : List (Event Op Ret ε)) :
    Leads (fun {α} (p : Prog Op Ret ε α) => ∀ h, Heeds φ p (fun _ _ => True) h)
      (fun {α} (p : Prog Op Ret ε α) => Heeds φ p (fun _ _ => True) h) :=
  fun hp hf => heeds_bind.mpr (hp.mono fun r h' _ => by
    cases r with
    | ok a => exact hf a h'
    | error e => trivial)

/-- To heed a guard after any events is closed under sequencing and handlers. -/
theorem closed_heeds :
    Closed (fun {α} (p : Prog Op Ret ε α) => ∀ h, Heeds φ p (fun _ _ => True) h) where
  pure _ _ := trivial
  raise _ _ := trivial
  bind hp hf h := leads_heeds φ h (hp h) hf
  attempt hp h := heeds_attempt.mpr ((hp h).mono fun _ _ _ => trivial)

/-- An operation, and what follows its answer. -/
theorem heeds_op_bind {o : Op} {f : Ret o → Prog Op Ret ε β}
    {Q : Except ε β → List (Event Op Ret ε) → Prop} (ho : φ h o)
    (hok : ∀ a, Heeds φ (f a) Q (h ++ [⟨o, .ok a⟩]))
    (herror : ∀ e, Q (.error e) (h ++ [⟨o, .error e⟩])) :
    Heeds φ ((Prog.op o : Prog Op Ret ε (Ret o)).bind f) Q h := by
  refine heeds_bind.mpr (heeds_op ho fun answer => ?_)
  cases answer with
  | ok a => exact hok a
  | error e => exact herror e

/-- A program that uses only some operations, each always allowed, adds only their events. -/
theorem Prog.Uses.heeds {ψ : Op → Prop} {p : Prog Op Ret ε α} (hp : p.Uses ψ)
    (hψ : ∀ h o, ψ o → φ h o) :
    Heeds φ p (fun _ h' => ∃ es, h' = h ++ es ∧ ∀ e ∈ es, ψ e.op) h := by
  suffices ∀ done, (∀ e ∈ done, ψ e.op) →
      Heeds φ p (fun _ h' => ∃ es, h' = h ++ es ∧ ∀ e ∈ es, ψ e.op) (h ++ done) by
    simpa using this [] nofun
  induction p with
  | pure a => exact fun done hdone => ⟨done, rfl, hdone⟩
  | raise e => exact fun done hdone => ⟨done, rfl, hdone⟩
  | perform o k ih =>
    intro done hdone
    refine ⟨hψ _ _ hp.1, fun answer => ?_⟩
    rw [List.append_assoc]
    refine ih answer (hp.2 answer) _ fun e he => ?_
    rcases List.mem_append.mp he with he | he
    · exact hdone e he
    · rw [List.mem_singleton.mp he]
      exact hp.1

end Durable
