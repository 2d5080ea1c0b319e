import HollysysController.Durable.Loops
import HollysysController.Graph.Saturation
import HollysysController.WorkerSupervisor

/-! # Descendants

The Supervisor walks a process tree over a snapshot that it took one process at a time. The
parent links of a snapshot need not form a tree: a parent may be gone, and a pid that was given
out again may close a cycle. What is selected is exactly what the links reach. -/

namespace HollysysController.WorkerSupervisor

open Durable

/-- A dictionary: one process under a pid. -/
def Keyed (ps : List ProcessIdentity) : Prop := (ps.map (·.pid)).Nodup

/-- The processes that were read alive, by their pids. -/
structure Snapshot where
  processes : List ProcessIdentity
  keyed : Keyed processes

namespace Snapshot

/-- A process of the snapshot names the first pid as its parent and has the second. -/
def Child (snapshot : Snapshot) (parent pid : Nat) : Prop :=
  ∃ p ∈ snapshot.processes, p.parentPid = parent ∧ p.pid = pid

/-- The parent links in the order of the snapshot. -/
def links (snapshot : Snapshot) : List (Nat × Nat) :=
  snapshot.processes.map fun p => (p.parentPid, p.pid)

theorem mem_links {snapshot : Snapshot} {parent pid : Nat} :
    (parent, pid) ∈ snapshot.links ↔ snapshot.Child parent pid := by
  simp [links, Child]

theorem reached_iff {snapshot : Snapshot} {roots : List Nat} {pid : Nat} :
    Graph.Reached snapshot.links roots pid ↔
      ∃ r ∈ roots, Relation.ReflTransGen snapshot.Child r pid := by
  simp only [Graph.Reached, mem_links]

theorem find?_iff (snapshot : Snapshot) {pid : Nat} {p : ProcessIdentity} :
    snapshot.processes.find? (fun p => p.pid = pid) = some p ↔
      p ∈ snapshot.processes ∧ p.pid = pid := by
  refine ⟨fun h => ⟨List.mem_of_find?_eq_some h, by simpa using List.find?_some h⟩, ?_⟩
  rintro ⟨hp, rfl⟩
  cases hfind : snapshot.processes.find? fun q => q.pid = p.pid with
  | none =>
    have hne := List.find?_eq_none.mp hfind p hp
    simp at hne
  | some q =>
    have hpid : q.pid = p.pid := by simpa using List.find?_some hfind
    exact congrArg some
      (List.inj_on_of_nodup_map snapshot.keyed (List.mem_of_find?_eq_some hfind) hp hpid)

end Snapshot

/-! ## The loop -/

theorem visits_links (processes : List ProcessIdentity) (s : List Nat × Bool) :
    ((processes.map fun p => (p.parentPid, p.pid)).foldl Graph.visitEdge s).1 =
      select processes s.1 := by
  unfold select
  induction processes generalizing s with
  | nil => rfl
  | cons p processes ih =>
    rw [List.map_cons, List.foldl_cons, List.foldl_cons, ih]
    congr 1
    unfold Graph.visitEdge
    split <;> rfl

/-- A pass of the loop with its flag. -/
theorem pass_links (snapshot : Snapshot) (selected : List Nat) :
    Graph.pass snapshot.links selected =
      (select snapshot.processes selected,
        decide (select snapshot.processes selected ≠ selected)) := by
  have hfst : (Graph.pass snapshot.links selected).1 = select snapshot.processes selected :=
    visits_links snapshot.processes (selected, false)
  rcases hpass : Graph.pass snapshot.links selected with ⟨next, changed⟩
  rw [hpass] at hfst
  obtain rfl : next = select snapshot.processes selected := hfst
  cases changed with
  | false =>
    have hsame := (Graph.pass_quiet hpass).1
    simp [← hsame]
  | true =>
    have hless := Graph.unselected_pass hpass
    have hne : select snapshot.processes selected ≠ selected := by
      intro hsame
      rw [hsame] at hless
      exact Nat.lt_irrefl _ hless
    simp [hne]

theorem selectAll_saturate (snapshot : Snapshot) (n : Nat) (selected : List Nat) :
    selectAll snapshot.processes n selected = Graph.saturate snapshot.links n selected := by
  induction n generalizing selected with
  | zero => rfl
  | succ n ih =>
    rw [selectAll, Graph.saturate, pass_links]
    split
    · next hsame => simp [hsame]
    · next hne => simp [hne, ih]

/-- The passes that are allowed are enough. -/
theorem selectAll_saturates (snapshot : Snapshot) (roots : List Nat) :
    Graph.Saturates snapshot.links roots
      (selectAll snapshot.processes (snapshot.processes.length + 1) roots) := by
  rw [selectAll_saturate]
  refine Graph.saturate_saturates (Nat.lt_succ_of_le ?_)
  calc (Graph.unselected snapshot.links roots).card
      ≤ (snapshot.links.map Prod.snd).toFinset.card := Finset.card_le_card Finset.sdiff_subset
    _ ≤ (snapshot.links.map Prod.snd).length := List.toFinset_card_le _
    _ = snapshot.processes.length := by simp [Snapshot.links]

/-! ## The answer -/

/-- `{pid: processes[pid] for pid in selected if pid in processes}`. -/
def Snapshot.pick (snapshot : Snapshot) (cfg : Config) (selected : List Nat) :
    List ProcessIdentity :=
  (cfg.sets.order selected).filterMap fun pid => snapshot.processes.find? fun p => p.pid = pid

/-- The processes are those of the snapshot that the parent links reach from the roots: the roots
that are there, and all and only their transitive children. -/
structure Descend (snapshot : Snapshot) (roots : List Nat) (ps : List ProcessIdentity) : Prop where
  mem_iff : ∀ p, p ∈ ps ↔
    p ∈ snapshot.processes ∧ ∃ r ∈ roots, Relation.ReflTransGen snapshot.Child r p.pid
  children : ∀ p ∈ snapshot.processes, p.pid ∉ roots →
    (p ∈ ps ↔ ∃ r ∈ roots, Relation.TransGen snapshot.Child r p.pid)
  keyed : roots.Nodup → Keyed ps

theorem mem_pick {snapshot : Snapshot} {cfg : Config} {selected : List Nat}
    {p : ProcessIdentity} :
    p ∈ snapshot.pick cfg selected ↔ p ∈ snapshot.processes ∧ p.pid ∈ selected := by
  simp only [Snapshot.pick, List.mem_filterMap, (cfg.sets.perm selected).mem_iff,
    snapshot.find?_iff]
  constructor
  · rintro ⟨pid, hpid, hp, rfl⟩
    exact ⟨hp, hpid⟩
  · rintro ⟨hp, hpid⟩
    exact ⟨p.pid, hpid, hp, rfl⟩

theorem pick_keyed {snapshot : Snapshot} {cfg : Config} {selected : List Nat}
    (h : selected.Nodup) : Keyed (snapshot.pick cfg selected) := by
  have hsub : ∀ pids : List Nat, ((pids.filterMap fun pid =>
      snapshot.processes.find? fun p => p.pid = pid).map (·.pid)).Sublist pids := by
    intro pids
    induction pids with
    | nil => exact .slnil
    | cons pid pids ih =>
      rw [List.filterMap_cons]
      split
      · exact ih.cons pid
      · next p hp =>
        obtain ⟨-, rfl⟩ := snapshot.find?_iff.mp hp
        exact ih.cons_cons p.pid
  exact ((cfg.sets.perm selected).nodup_iff.mpr h).sublist (hsub _)

theorem descend_pick {snapshot : Snapshot} {roots selected : List Nat} (cfg : Config)
    (h : Graph.Saturates snapshot.links roots selected) :
    Descend snapshot roots (snapshot.pick cfg selected) := by
  have hmem : ∀ p, p ∈ snapshot.pick cfg selected ↔
      p ∈ snapshot.processes ∧ ∃ r ∈ roots, Relation.ReflTransGen snapshot.Child r p.pid := by
    intro p
    rw [mem_pick, h.mem_iff, Snapshot.reached_iff]
  refine ⟨hmem, fun p hp hroot => (hmem p).trans ⟨?_, ?_⟩,
    fun hroots => pick_keyed (h.nodup hroots)⟩
  · rintro ⟨-, r, hr, hpath⟩
    rcases Relation.reflTransGen_iff_eq_or_transGen.mp hpath with heq | hpath
    · exact absurd (heq ▸ hr) hroot
    · exact ⟨r, hr, hpath⟩
  · rintro ⟨r, hr, hpath⟩
    exact ⟨hp, r, hr, hpath.to_reflTransGen⟩

/-! ## The function -/

/-- The dictionary that `_descendants` reads before its loop. -/
def readProcesses : Server (List ProcessIdentity) := do
  let pids : List Nat ← ask (.iterdir .tree)
  pids.foldlM readInto []

theorem descendants_eq (cfg : Config) (roots : List Nat) :
    descendants cfg roots =
      readProcesses.bind fun processes => .pure (selectDescendants cfg processes roots) :=
  (Prog.bind_assoc _ _ _).symm

theorem put_keyed {l : List ProcessIdentity} (h : Keyed l) (p : ProcessIdentity) :
    Keyed (put l p) := by
  induction l with
  | nil => exact List.nodup_singleton _
  | cons q l ih =>
    rw [Keyed, List.map_cons, List.nodup_cons] at h
    unfold put
    split
    · next hpid => rwa [Keyed, List.map_cons, List.nodup_cons, ← hpid]
    · next hpid =>
      rw [Keyed, List.map_cons, List.nodup_cons]
      refine ⟨fun hmem => ?_, ih h.2⟩
      obtain ⟨x, hx, hsame⟩ := List.mem_map.mp hmem
      rcases of_mem_put hx with rfl | hx
      · exact hpid hsame.symm
      · exact h.1 (List.mem_map.mpr ⟨x, hx, hsame⟩)

/-- What is read has one process under a pid. -/
theorem readProcesses_keyed (E : Setting Op Error State) (s : State) :
    Ends machine E readProcesses (fun ps _ => Keyed ps) (fun _ _ => True) s := by
  have hempty : Keyed [] := List.nodup_nil
  refine (Ends.any _ s).bind fun pids s₁ _ => ?_
  refine Ends.foldlM (I := fun _ ps _ => Keyed ps) (fun pid pids ps s₂ h => ?_) hempty
  refine (Ends.any _ s₂).bind fun r s₃ _ => ?_
  cases r with
  | none => exact h
  | some p =>
    refine Ends.pure ?_
    split
    · exact h
    · exact put_keyed h p

/-- **`_descendants` selects exactly what the parent links reach.** Over any snapshot the loop
ends, with one result, and the processes under the selected pids are the descendants. A run of
the function over whatever it reads takes a snapshot and answers that. -/
theorem descendants_exact (cfg : Config) (roots : List Nat) :
    (∀ snapshot : Snapshot, ∃ selected,
      (∀ out, Graph.Saturates snapshot.links roots out ↔ out = selected) ∧
        Descend snapshot roots (snapshot.pick cfg selected)) ∧
      ∀ (E : Setting Op Error State) (s s' : State) (ps : List ProcessIdentity),
        Runs machine E (descendants cfg roots) s (.returned ps) s' ↔
          ∃ (snapshot : Snapshot) (selected : List Nat),
            Runs machine E readProcesses s (.returned snapshot.processes) s' ∧
              Graph.Saturates snapshot.links roots selected ∧ ps = snapshot.pick cfg selected := by
  constructor
  · intro snapshot
    have hends := selectAll_saturates snapshot roots
    exact ⟨_, fun out => ⟨fun h => h.unique hends, fun h => h ▸ hends⟩, descend_pick cfg hends⟩
  · intro E s s' ps
    rw [descendants_eq, runs_bind_returned]
    constructor
    · rintro ⟨processes, s₁, hread, hpure⟩
      cases hpure
      have hkeyed := (readProcesses_keyed E s).returned hread
      exact ⟨⟨processes, hkeyed⟩, _, hread, selectAll_saturates ⟨processes, hkeyed⟩ roots, rfl⟩
    · rintro ⟨snapshot, selected, hread, hends, rfl⟩
      refine ⟨snapshot.processes, s', hread, ?_⟩
      rw [hends.unique (selectAll_saturates snapshot roots)]
      exact .pure

end HollysysController.WorkerSupervisor
