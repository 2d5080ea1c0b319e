import HollysysController.Store

/-! # Delivery bindings

A delivery is the MR identity `(project_id, mr_iid)` that a run is bound to.
GitLab numbers the MRs of each project on its own, but the column `mr_iid` of
`delivery_bindings` is unique by itself: a run is refused an MR whose number
another project's run already has. -/

namespace HollysysController

/-- One call on the run and binding tables. -/
inductive BindingCall where
  | saveRun (run : RunRecord)
  | bindDelivery (runKey : String) (binding : DeliveryBinding)
  deriving DecidableEq, Repr

def BindingCall.txn : BindingCall → Txn Unit
  | .saveRun run => HollysysController.saveRun run
  | .bindDelivery runKey binding => HollysysController.bindDelivery runKey binding

/-- The store after a sequence of calls; a call that raises rolls back. -/
def afterCalls : List BindingCall → Store → Store
  | [], s => s
  | c :: cs, s => afterCalls cs (c.txn.commit s).2

/-- `(project_id, mr_iid)` of a run's binding. -/
def Store.mrIdentity (s : Store) (runKey : String) (b : DeliveryBinding) : Option (Nat × Nat) :=
  (s.runRecord runKey).map fun run => (run.project.projectId, b.mrIid)

/-- Run `r` is bound to the MR `identity`. -/
def Store.BoundTo (s : Store) (r : String) (identity : Nat × Nat) : Prop :=
  ∃ b, s.deliveryBinding r = some b ∧ s.mrIdentity r b = some identity

/-- What a call `bind_delivery(runKey, b)` in `s` owes. -/
structure BindingLaw (s : Store) (runKey : String) (b : DeliveryBinding) : Prop where
  /-- A known run that has no other binding gets an MR no other run is bound to. -/
  succeeds : ∀ identity, s.mrIdentity runKey b = some identity →
    (∀ own, s.deliveryBinding runKey = some own → own = b) →
    (∀ r, r ≠ runKey → ¬ s.BoundTo r identity) →
    ((bindDelivery runKey b).commit s).1 = .ok ()
  /-- A binding once made never changes. -/
  keeps : ∀ r own, s.deliveryBinding r = some own →
    ((bindDelivery runKey b).commit s).2.deliveryBinding r = some own
  /-- Binding the same MR again writes nothing, and the same record is accepted. -/
  rebinds : ∀ own, s.deliveryBinding runKey = some own → own.mrIid = b.mrIid →
    ((bindDelivery runKey b).commit s).2 = s ∧
      (own = b → ((bindDelivery runKey b).commit s).1 = .ok ())
  /-- No two runs are bound to one MR. -/
  distinct : ∀ r r' identity,
    ((bindDelivery runKey b).commit s).2.BoundTo r identity →
    ((bindDelivery runKey b).commit s).2.BoundTo r' identity → r = r'

/-- Every `bind_delivery` of the sequence, in the store it meets, keeps the law. -/
def BindingLaws (calls : List BindingCall) : Prop :=
  ∀ pre runKey b post, calls = pre ++ BindingCall.bindDelivery runKey b :: post →
    BindingLaw (afterCalls pre {}) runKey b

/-- The call asks for an MR number that is bound to a run of another project,
for a run that has no binding yet. -/
def CrossProject (s : Store) (runKey : String) (b : DeliveryBinding) : Prop :=
  s.deliveryBinding runKey = none ∧
    ∃ run r other own, s.runRecord runKey = some run ∧ s.runRecord r = some other ∧
      s.deliveryBinding r = some own ∧ own.mrIid = b.mrIid ∧
      other.project.projectId ≠ run.project.projectId

/-! ## The invariant of the binding table -/

/-- Every bound run is known, and neither a run nor an MR number is there twice. -/
structure BindingsOk (s : Store) : Prop where
  known : ∀ p ∈ s.deliveryBindings, (s.runRecord p.1).isSome
  keys : (s.deliveryBindings.map (·.1)).Nodup
  numbers : (s.deliveryBindings.map (·.2.mrIid)).Nodup

theorem bindingsOk_empty : BindingsOk {} where
  known _ h := by simp at h
  keys := by simp
  numbers := by simp

theorem mem_of_deliveryBinding {s : Store} {r : String} {b : DeliveryBinding}
    (h : s.deliveryBinding r = some b) : (r, b) ∈ s.deliveryBindings := by
  simp only [Store.deliveryBinding, Option.map_eq_some_iff] at h
  obtain ⟨⟨r', b'⟩, hf, rfl⟩ := h
  have hr := List.find?_some hf
  simp only [beq_iff_eq] at hr
  exact hr ▸ List.mem_of_find?_eq_some hf

namespace BindingsOk

variable {s : Store} (h : BindingsOk s)
include h

theorem deliveryBinding_eq {r : String} {b : DeliveryBinding}
    (hm : (r, b) ∈ s.deliveryBindings) : s.deliveryBinding r = some b := by
  rcases hb : s.deliveryBinding r with _ | b'
  · simp only [Store.deliveryBinding, Option.map_eq_none_iff, List.find?_eq_none] at hb
    exact absurd (beq_self_eq_true r) (hb _ hm)
  · have := List.inj_on_of_nodup_map h.keys (mem_of_deliveryBinding hb) hm rfl
    simp_all

/-- MR numbers tell the bound runs apart. -/
theorem run_of_number {r r' : String} {b b' : DeliveryBinding}
    (hb : s.deliveryBinding r = some b) (hb' : s.deliveryBinding r' = some b')
    (hn : b.mrIid = b'.mrIid) : r = r' :=
  congrArg (·.1) (List.inj_on_of_nodup_map h.numbers (mem_of_deliveryBinding hb)
    (mem_of_deliveryBinding hb') hn)

end BindingsOk

/-- The store with one more binding. -/
def Store.withBinding (s : Store) (runKey : String) (b : DeliveryBinding) : Store :=
  { s with deliveryBindings := s.deliveryBindings ++ [(runKey, b)] }

/-- What a call does, and why it is refused when it is. -/
theorem bindDelivery_cases (s : Store) (runKey : String) (b : DeliveryBinding) :
    (s.deliveryBinding runKey = some b ∧ (s.runRecord runKey).isSome ∧
      (bindDelivery runKey b).commit s = (.ok (), s)) ∨
    ((s.runRecord runKey = none ∨ (∃ own, s.deliveryBinding runKey = some own ∧ own ≠ b) ∨
        (s.deliveryBinding runKey = none ∧ ∃ p ∈ s.deliveryBindings, p.2.mrIid = b.mrIid)) ∧
      ∃ e, (bindDelivery runKey b).commit s = (.error e, s)) ∨
    ((s.runRecord runKey).isSome ∧ s.deliveryBinding runKey = none ∧
      (∀ p ∈ s.deliveryBindings, p.2.mrIid ≠ b.mrIid) ∧
      (bindDelivery runKey b).commit s = (.ok (), s.withBinding runKey b)) := by
  simp only [bindDelivery, Txn.commit]
  rcases hrun : s.runRecord runKey with _ | run
  · exact .inr (.inl ⟨.inl rfl, _, rfl⟩)
  rcases hb : s.deliveryBinding runKey with _ | own
  · by_cases hany : s.deliveryBindings.any (·.2.mrIid == b.mrIid)
    · obtain ⟨p, hp, he⟩ := List.any_eq_true.mp hany
      exact .inr (.inl ⟨.inr (.inr ⟨rfl, p, hp, by simpa using he⟩), databaseError, by simp [hany]⟩)
    · refine .inr (.inr ⟨rfl, rfl, fun p hp he => hany ?_, by simp [hany, Store.withBinding]⟩)
      exact List.any_eq_true.mpr ⟨p, hp, by simp [he]⟩
  · by_cases heq : own = b
    · exact .inl ⟨by rw [heq], rfl, by simp [heq]⟩
    · exact .inr (.inl ⟨.inr (.inl ⟨own, rfl, heq⟩),
        .fatal s!"delivery_binding_conflict:{runKey}", by simp [heq]⟩)

theorem BindingsOk.withBinding {s : Store} (h : BindingsOk s) {runKey : String}
    {b : DeliveryBinding} (hrun : (s.runRecord runKey).isSome)
    (hnone : s.deliveryBinding runKey = none)
    (hfree : ∀ p ∈ s.deliveryBindings, p.2.mrIid ≠ b.mrIid) :
    BindingsOk (s.withBinding runKey b) := by
  have hkey : ∀ p ∈ s.deliveryBindings, p.1 ≠ runKey := by
    intro p hp he
    have := h.deliveryBinding_eq (r := p.1) (b := p.2) hp
    rw [he, hnone] at this
    cases this
  constructor
  · intro p hp
    simp only [Store.withBinding, List.mem_append, List.mem_singleton] at hp
    rcases hp with hp | rfl
    · exact h.known p hp
    · exact hrun
  · simpa [Store.withBinding, List.nodup_append, h.keys] using fun r b' hm => hkey _ hm
  · simpa [Store.withBinding, List.nodup_append, h.numbers] using
      fun n r (b' : DeliveryBinding) hm (he : b'.mrIid = n) => he ▸ hfree _ hm

theorem BindingsOk.bindDelivery {s : Store} (h : BindingsOk s) (runKey : String)
    (b : DeliveryBinding) : BindingsOk ((bindDelivery runKey b).commit s).2 := by
  rcases bindDelivery_cases s runKey b with ⟨-, -, hr⟩ | ⟨-, e, hr⟩ | ⟨hrun, hnone, hfree, hr⟩
  · rwa [hr]
  · rwa [hr]
  · rw [hr]
    exact h.withBinding hrun hnone hfree

/-- Saving a run touches no binding and no record that is there. -/
theorem saveRun_keeps (run : RunRecord) (s : Store) :
    ((saveRun run).commit s).2.deliveryBindings = s.deliveryBindings ∧
      ∀ r, (s.runRecord r).isSome → (((saveRun run).commit s).2.runRecord r).isSome := by
  simp only [saveRun, Txn.commit]
  rcases hrun : s.runRecord run.runKey with _ | persisted
  · by_cases hany : s.runs.any (·.runGeneration == run.runGeneration)
    · simp [hany]
    · refine ⟨by simp [hany], fun r hr => ?_⟩
      obtain ⟨other, ho⟩ := Option.isSome_iff_exists.mp hr
      simp only [Store.runRecord] at ho
      simp [hany, Store.runRecord, ho]
  · by_cases heq : persisted = run <;> simp [heq]

theorem BindingsOk.saveRun {s : Store} (h : BindingsOk s) (run : RunRecord) :
    BindingsOk ((saveRun run).commit s).2 := by
  obtain ⟨hb, hr⟩ := saveRun_keeps run s
  refine ⟨?_, ?_, ?_⟩
  · rw [hb]
    exact fun p hp => hr _ (h.known p hp)
  · rw [hb]
    exact h.keys
  · rw [hb]
    exact h.numbers

theorem BindingsOk.afterCalls {s : Store} (h : BindingsOk s) (calls : List BindingCall) :
    BindingsOk (afterCalls calls s) := by
  induction calls generalizing s with
  | nil => exact h
  | cons c cs ih =>
    cases c with
    | saveRun run => exact ih (h.saveRun run)
    | bindDelivery runKey b => exact ih (h.bindDelivery runKey b)

/-! ## The law of one call -/

theorem Store.mrIdentity_eq {s : Store} {r : String} {b : DeliveryBinding} {identity : Nat × Nat} :
    s.mrIdentity r b = some identity ↔
      ∃ run, s.runRecord r = some run ∧ run.project.projectId = identity.1 ∧
        b.mrIid = identity.2 := by
  simp [Store.mrIdentity, Option.map_eq_some_iff, Prod.ext_iff]

/-- Two runs bound to one MR are one run. -/
theorem BindingsOk.distinct {s : Store} (h : BindingsOk s) {r r' : String} {identity : Nat × Nat}
    (hr : s.BoundTo r identity) (hr' : s.BoundTo r' identity) : r = r' := by
  obtain ⟨b, hb, hi⟩ := hr
  obtain ⟨b', hb', hi'⟩ := hr'
  obtain ⟨-, -, -, hn⟩ := Store.mrIdentity_eq.mp hi
  obtain ⟨-, -, -, hn'⟩ := Store.mrIdentity_eq.mp hi'
  exact h.run_of_number hb hb' (hn.trans hn'.symm)

/-- The parts of the law that need no condition. -/
theorem BindingsOk.law {s : Store} (h : BindingsOk s) (runKey : String) (b : DeliveryBinding)
    (hs : ∀ identity, s.mrIdentity runKey b = some identity →
      (∀ own, s.deliveryBinding runKey = some own → own = b) →
      (∀ r, r ≠ runKey → ¬ s.BoundTo r identity) →
      ((HollysysController.bindDelivery runKey b).commit s).1 = .ok ()) :
    BindingLaw s runKey b := by
  have hkeep := h.bindDelivery runKey b
  refine ⟨hs, ?_, ?_, fun r r' identity hr hr' => hkeep.distinct hr hr'⟩
  · intro r own hown
    apply hkeep.deliveryBinding_eq
    have hm := mem_of_deliveryBinding hown
    rcases bindDelivery_cases s runKey b with ⟨-, -, hr⟩ | ⟨-, e, hr⟩ | ⟨-, -, -, hr⟩ <;> rw [hr]
    · exact hm
    · exact hm
    · exact List.mem_append_left _ hm
  · intro own hown hiid
    rcases bindDelivery_cases s runKey b with ⟨-, -, hr⟩ | ⟨hwhy, e, hr⟩ | ⟨-, hnone, -⟩
    · simp [hr]
    · refine ⟨by rw [hr], fun he => ?_⟩
      rcases hwhy with hrun | ⟨own', hown', hne⟩ | ⟨hnone, -⟩
      · simpa [hrun] using h.known _ (mem_of_deliveryBinding hown)
      · exact absurd ((Option.some.inj (hown'.symm.trans hown)).trans he) hne
      · cases hnone.symm.trans hown
    · cases hnone.symm.trans hown

/-- In a store with a sound binding table a call keeps the law exactly when it
does not cross projects. -/
theorem bindingLaw_iff {s : Store} (h : BindingsOk s) (runKey : String) (b : DeliveryBinding) :
    BindingLaw s runKey b ↔ ¬ CrossProject s runKey b := by
  constructor
  · rintro law ⟨hnone, run, r, other, own, hrun, hother, hown, hiid, hproj⟩
    have hok := law.succeeds (run.project.projectId, b.mrIid)
      (Store.mrIdentity_eq.mpr ⟨run, hrun, rfl, rfl⟩) (by simp [hnone]) ?_
    · rcases bindDelivery_cases s runKey b with ⟨hb, -⟩ | ⟨-, e, hr⟩ | ⟨-, -, hfree, -⟩
      · cases hnone.symm.trans hb
      · simp [hr] at hok
      · exact hfree _ (mem_of_deliveryBinding hown) hiid
    · rintro r' - ⟨own', hown', hid⟩
      obtain ⟨other', hother', hp, hi⟩ := Store.mrIdentity_eq.mp hid
      -- MR numbers are unique in the table, so the run bound to this one is `r`.
      obtain rfl : r' = r := h.run_of_number hown' hown (hi.trans hiid.symm)
      obtain rfl : other' = other := Option.some.inj (hother'.symm.trans hother)
      exact hproj hp
  · intro hcross
    refine h.law runKey b fun identity hid hown hothers => ?_
    obtain ⟨run, hrun, hproj, hiid⟩ := Store.mrIdentity_eq.mp hid
    rcases bindDelivery_cases s runKey b with ⟨-, -, hr⟩ | ⟨hwhy, -⟩ | ⟨-, -, -, hr⟩
    · rw [hr]
    · exfalso
      rcases hwhy with hrun' | ⟨own, hb, hne⟩ | ⟨hnone, ⟨r, own⟩, hm, hn⟩
      · cases hrun'.symm.trans hrun
      · exact hne (hown own hb)
      · have hb := h.deliveryBinding_eq hm
        obtain ⟨other, hother⟩ := Option.isSome_iff_exists.mp (h.known _ hm)
        have hne : r ≠ runKey := fun e => by cases (e ▸ hb).symm.trans hnone
        -- The number is taken by a run of the same project, which is ruled out.
        by_cases hp : other.project.projectId = run.project.projectId
        · exact hothers r hne ⟨own, hb, Store.mrIdentity_eq.mpr
            ⟨other, hother, hp.trans hproj, hn.trans hiid⟩⟩
        · exact hcross ⟨hnone, run, r, other, own, hrun, hother, hb, hn, hp⟩
    · rw [hr]

/-- A run of the project `projectId`. -/
def sampleRun (runKey generation : String) (projectId : Nat) : RunRecord where
  runKey
  sourceKey := "source-a"
  runGeneration := generation
  startedAt := 0
  project := { projectId, projectPath := "team/app" }
  source := { prdPath := "docs/prds/a.md", prdCommitSha := "c1", prdBlobSha := "b1",
              prdMrUrl := "https://gitlab/team/app/-/merge_requests/1" }
  artifactRoot := "docs/prds/a"
  workspace := { board := "app", checkout := "/co", worktree := "/wt", branch := "delivery-a",
                 targetBranch := "main", repositoryBaseSha := "base" }
  origin := { messageId := "om_1", chatId := "oc_1", initiatorOpenId := "ou_1" }

def sampleBinding (mrIid : Nat) : DeliveryBinding where
  mrIid
  mrUrl := "https://gitlab/team/app/-/merge_requests/7"
  creator := "controller"
  createdAt := 5
  initialHeadSha := "h0"
  claimNoteId := 9

/-- MR 7 of project 1 and MR 7 of project 2. -/
def crossProjectCalls : List BindingCall :=
  [.saveRun (sampleRun "run-a" "ga" 1), .saveRun (sampleRun "run-b" "gb" 2),
   .bindDelivery "run-a" (sampleBinding 7), .bindDelivery "run-b" (sampleBinding 7)]

end HollysysController
