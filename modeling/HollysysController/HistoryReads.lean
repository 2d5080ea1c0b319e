import HollysysController.Durable.Triple
import HollysysController.Traversal

/-! # What a history was read from

Each item of a history is a ledger card with the task Hermes had for it, so what
holds of the cards and of the tasks when they are read holds of the items. -/

namespace HollysysController

open Durable

variable {σ : Type} {M : Machine Op Op.Ret ControllerError σ} {E : Setting Op ControllerError σ}
variable {I : σ → Prop} {P : TaskRecord → Prop} {C : ManagedCard → Prop}

theorem fromExcept_answers {α : Type} (r : Except ControllerError α) :
    Answers M E I (fromExcept r) (r = .ok ·) := by
  cases r with
  | error e => exact .raise
  | ok a => exact .pure rfl

theorem fromText_answers {α : Type} (r : Except String α) :
    Answers M E I (fromText r) (r = .ok ·) := by
  cases r with
  | error e => exact .raise
  | ok a => exact .pure rfl

/-- `caught`, of a program with a postcondition. -/
theorem ensures_caught {α : Type} {p : Service α} {Q : α → σ → Prop} {s : σ}
    (h : Ensures M E I p Q s) :
    Ensures M E I (caught p) (fun r s' => ∀ a, r = .ok a → Q a s') s := by
  refine .bind (.attempt h) fun r s₁ hs₁ hr => ?_
  cases r with
  | ok a => exact .pure hs₁ fun b hb => by cases hb; exact hr a rfl
  | error e =>
    dsimp only
    split
    · exact .pure hs₁ fun b hb => by cases hb
    · exact .raise hs₁

theorem caught_answers {α : Type} {p : Service α} {A : α → Prop} (h : Answers M E I p A) :
    Answers M E I (caught p) (fun r => ∀ a, r = .ok a → A a) :=
  fun s hs => ensures_caught (h s hs)

theorem readItems_answers
    (htask : ∀ board id, Answers M E I (hermes (.task board id)) (fun r => ∀ t, r = some t → P t))
    (cards : List ManagedCard) : Answers M E I (readItems cards) (fun items =>
      items.map (·.managed) = cards ∧ ∀ i ∈ items, P i.task) := by
  induction cards with
  | nil => exact .pure ⟨rfl, by simp⟩
  | cons c cs ih =>
    refine (htask c.board c.cardId).bind fun task htask => ?_
    cases task with
    | none => exact .raise
    | some task =>
      refine ih.bind fun items hitems => .pure ⟨by rw [List.map_cons, hitems.1], fun i hi => ?_⟩
      rcases List.mem_cons.mp hi with rfl | hi
      · exact htask task rfl
      · exact hitems.2 i hi

/-- **Reading a history.** -/
theorem history_answers {runKey : String}
    (hcards : Answers M E I (store (.cardsForRun runKey))
      (fun cards => ∀ c ∈ cards, c.runKey = runKey ∧ C c))
    (htask : ∀ board id, Answers M E I (hermes (.task board id))
      (fun r => ∀ t, r = some t → P t)) :
    Answers M E I (history runKey) (fun read => read.2.runKey = runKey ∧
      verifyHistory runKey read.1 = .ok read.2 ∧ ∀ i ∈ read.1, C i.managed ∧ P i.task) := by
  refine hcards.bind fun cards hcards => ?_
  split
  · exact .raise
  · refine (readItems_answers htask cards).bind fun items hitems =>
      (fromExcept_answers _).bind fun run hrun => .pure ?_
    have hmanaged : ∀ i ∈ items, i.managed ∈ cards := fun i hi => by
      rw [← hitems.1]
      exact List.mem_map_of_mem hi
    obtain ⟨root, hroot, -, hkey⟩ := verifyHistory_root hrun
    refine ⟨?_, hrun, fun i hi => ⟨(hcards _ (hmanaged i hi)).2, hitems.2 i hi⟩⟩
    rw [← hkey]
    exact (hcards _ (hmanaged root hroot)).1

end HollysysController
