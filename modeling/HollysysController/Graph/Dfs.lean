import Mathlib.Data.List.Chain
import Mathlib.Data.List.Perm.Subperm
import Mathlib.Logic.Relation

/-! # Three-colour depth-first search

The recursive search with a bounded call stack. Its cycle flag is exact, and the frames it
needs are those of the longest path that no earlier root has searched. -/

namespace Graph

section

variable {α : Type} {next : α → List α}

/-- The colours: nodes on the stack, and nodes that are done. -/
structure Colours (α : Type) where
  cycle : Bool := false
  visiting : List α := []
  visited : List α := []

def Edge (next : α → List α) (v w : α) : Prop := w ∈ next v

def Cyclic (next : α → List α) : Prop := ∃ v, Relation.TransGen (Edge next) v v

/-- Every node comes before those it leads to. -/
def Sorted (next : α → List α) : List α → Prop
  | [] => True
  | v :: vs => (∀ w ∈ next v, w ∈ vs) ∧ Sorted next vs

theorem Sorted.reaches {vs : List α} (h : Sorted next vs) {v w : α} (hv : v ∈ vs)
    (hvw : Relation.ReflTransGen (Edge next) v w) : w ∈ vs := by
  induction vs generalizing v with
  | nil => cases hv
  | cons u vs ih =>
    rcases List.mem_cons.mp hv with rfl | hv
    · rcases Relation.ReflTransGen.cases_head hvw with rfl | ⟨x, hx, hxw⟩
      · exact List.mem_cons_self
      · exact List.mem_cons_of_mem _ (ih h.2 (h.1 x hx) hxw)
    · exact List.mem_cons_of_mem _ (ih h.2 hv hvw)

theorem Sorted.acyclic {vs : List α} (h : Sorted next vs) :
    ∀ v ∈ vs, ¬ Relation.TransGen (Edge next) v v := by
  induction vs with
  | nil => nofun
  | cons u vs ih =>
    intro v hv hcycle
    rcases List.mem_cons.mp hv with rfl | hv
    · obtain ⟨x, hx, hxv⟩ := Relation.TransGen.head'_iff.mp hcycle
      exact ih h.2 v (h.2.reaches (h.1 x hx) hxv) hcycle
    · exact ih h.2 v hv hcycle

/-! ## Paths -/

variable {R : α → α → Prop} {path : List α}

theorem chain_reaches {v : α} (h : List.IsChain R (v :: path)) :
    ∀ u ∈ v :: path, Relation.ReflTransGen R v u := by
  induction path generalizing v with
  | nil =>
    intro u hu
    obtain rfl : u = v := by simpa using hu
    exact .refl
  | cons w path ih =>
    intro u hu
    obtain ⟨hvw, hrest⟩ := List.isChain_cons_cons.mp h
    rcases List.mem_cons.mp hu with rfl | hu
    · exact .refl
    · exact .head hvw (ih hrest u hu)

theorem rel_of_mem_zip (h : List.IsChain R path) {p : α × α} (hp : p ∈ path.zip path.tail) :
    R p.1 p.2 := by
  induction path with
  | nil => cases hp
  | cons v path ih =>
    cases path with
    | nil => cases hp
    | cons w path =>
      obtain ⟨hvw, hrest⟩ := List.isChain_cons_cons.mp h
      rcases List.mem_cons.mp hp with rfl | hp
      · exact hvw
      · exact ih hrest hp

theorem isChain_of_zip (h : ∀ p ∈ path.zip path.tail, R p.1 p.2) : List.IsChain R path := by
  induction path with
  | nil => exact .nil
  | cons v path ih =>
    cases path with
    | nil => exact .singleton v
    | cons w path =>
      exact .cons_cons (h (v, w) List.mem_cons_self)
        (ih fun p hp => h p (List.mem_cons_of_mem _ hp))

/-- On a path without cycles, nodes with the same successors are one node. -/
theorem step_unique (hacyclic : ¬ ∃ v, Relation.TransGen R v v) (h : List.IsChain R path)
    {p q : α × α} (hp : p ∈ path.zip path.tail) (hq : q ∈ path.zip path.tail)
    (hsame : ∀ w, R p.1 w ↔ R q.1 w) : p.2 = q.2 := by
  induction path with
  | nil => cases hp
  | cons v path ih =>
    cases path with
    | nil => cases hp
    | cons w path =>
      obtain ⟨hvw, hrest⟩ := List.isChain_cons_cons.mp h
      -- a later node with the successors of the first leads back to itself
      have hback : ∀ r ∈ (w :: path).zip path, R r.1 w → False := by
        intro r hr hrw
        exact hacyclic ⟨r.1, .head' hrw (chain_reaches hrest r.1 (List.of_mem_zip hr).1)⟩
      rcases List.mem_cons.mp hp with rfl | hp <;> rcases List.mem_cons.mp hq with rfl | hq
      · rfl
      · exact (hback q hq ((hsame w).mp hvw)).elim
      · exact (hback p hp ((hsame w).mpr hvw)).elim
      · exact ih hrest hp hq

/-! ## One call -/

/-- A property of the colours before and after that every call has, a row of calls has. -/
theorem fold_keeps {R : Colours α → Colours α → Prop} (hrefl : ∀ s, R s s)
    (htrans : ∀ {a b c}, R a b → R b c → R a c) {f : Colours α → α → Option (Colours α)}
    {vs : List α} (hstep : ∀ v ∈ vs, ∀ {a b}, f a v = some b → R a b) {s s' : Colours α}
    (h : vs.foldlM f s = some s') : R s s' := by
  induction vs generalizing s with
  | nil =>
    obtain rfl : s = s' := by simpa using h
    exact hrefl s
  | cons v vs ih =>
    rw [List.foldlM_cons] at h
    obtain ⟨t, ht, hrest⟩ := Option.bind_eq_some_iff.mp h
    exact htrans (hstep v (by simp) ht) (ih (fun w hw => hstep w (by simp [hw])) hrest)

/-- A row of calls that succeeds, succeeds with calls that can do more. -/
theorem fold_mono {f g : Colours α → α → Option (Colours α)}
    (hle : ∀ a v b, f a v = some b → g a v = some b) {vs : List α} {s s' : Colours α}
    (h : vs.foldlM f s = some s') : vs.foldlM g s = some s' := by
  induction vs generalizing s with
  | nil => exact h
  | cons v vs ih =>
    rw [List.foldlM_cons] at h ⊢
    obtain ⟨t, ht, hrest⟩ := Option.bind_eq_some_iff.mp h
    exact Option.bind_eq_some_iff.mpr ⟨t, hle _ _ _ ht, ih hrest⟩

/-- What a call leaves of the colours. -/
structure Grows (s s' : Colours α) : Prop where
  visiting : s'.visiting = s.visiting
  visited : ∀ v ∈ s.visited, v ∈ s'.visited
  cycle : s.cycle = true → s'.cycle = true

theorem Grows.refl (s : Colours α) : Grows s s := ⟨rfl, fun _ h => h, id⟩

theorem Grows.trans {a b c : Colours α} (h₁ : Grows a b) (h₂ : Grows b c) : Grows a c :=
  ⟨h₂.visiting.trans h₁.visiting, fun v hv => h₂.visited v (h₁.visited v hv),
    fun hc => h₂.cycle (h₁.cycle hc)⟩

variable [DecidableEq α]

/-- `none` is a full stack: every call takes one of the frames that are left. -/
def visit (next : α → List α) : Nat → Colours α → α → Option (Colours α)
  | 0, _, _ => none
  | frames + 1, s, v =>
    if v ∈ s.visiting then some { s with cycle := true }
    else if v ∈ s.visited then some s
    else do
      let s ← (next v).foldlM (visit next frames) { s with visiting := v :: s.visiting }
      some { s with visiting := s.visiting.erase v, visited := v :: s.visited }

/-- The search from each root in turn. -/
def search (next : α → List α) (frames : Nat) (roots : List α) : Option (Colours α) :=
  roots.foldlM (visit next frames) {}

theorem visit_cases {frames : Nat} {s s' : Colours α} {v : α}
    (h : visit next frames s v = some s') :
    ∃ n, frames = n + 1 ∧
      ((v ∈ s.visiting ∧ s' = { s with cycle := true }) ∨
        (v ∉ s.visiting ∧ v ∈ s.visited ∧ s' = s) ∨
        (v ∉ s.visiting ∧ v ∉ s.visited ∧
          ∃ t, (next v).foldlM (visit next n) { s with visiting := v :: s.visiting } = some t ∧
            s' = { t with visiting := t.visiting.erase v, visited := v :: t.visited })) := by
  cases frames with
  | zero => simp [visit] at h
  | succ n =>
    refine ⟨n, rfl, ?_⟩
    rw [visit] at h
    by_cases hvisiting : v ∈ s.visiting
    · simp only [hvisiting, if_true, Option.some.injEq] at h
      exact .inl ⟨hvisiting, h.symm⟩
    · by_cases hvisited : v ∈ s.visited
      · simp only [hvisiting, hvisited, if_false, if_true, Option.some.injEq] at h
        exact .inr (.inl ⟨hvisiting, hvisited, h.symm⟩)
      · simp only [hvisiting, hvisited, if_false] at h
        obtain ⟨t, ht, hs'⟩ := Option.bind_eq_some_iff.mp h
        exact .inr (.inr ⟨hvisiting, hvisited, t, ht, (Option.some.inj hs').symm⟩)

theorem visit_grows {frames : Nat} {s s' : Colours α} {v : α}
    (h : visit next frames s v = some s') : Grows s s' := by
  induction frames generalizing s s' v with
  | zero => simp [visit] at h
  | succ frames ih =>
    obtain ⟨n, hn, ⟨-, rfl⟩ | ⟨-, -, rfl⟩ | ⟨-, -, t, ht, rfl⟩⟩ := visit_cases h
    · exact ⟨rfl, fun _ h => h, fun _ => rfl⟩
    · exact .refl _
    · obtain rfl := Nat.succ.inj hn
      have hg := fold_keeps (Grows.refl) (Grows.trans) (fun _ _ _ _ hw => ih hw) ht
      refine ⟨?_, fun w hw => List.mem_cons_of_mem _ (hg.visited w hw), hg.cycle⟩
      simp [hg.visiting]

theorem fold_grows {frames : Nat} {vs : List α} {s s' : Colours α}
    (h : vs.foldlM (visit next frames) s = some s') : Grows s s' :=
  fold_keeps Grows.refl Grows.trans (fun _ _ _ _ hw => visit_grows hw) h

/-- More frames change nothing. -/
theorem visit_mono {frames more : Nat} (hle : frames ≤ more) {s s' : Colours α} {v : α}
    (h : visit next frames s v = some s') : visit next more s v = some s' := by
  induction frames generalizing s s' v more with
  | zero => simp [visit] at h
  | succ frames ih =>
    obtain ⟨m, rfl⟩ : ∃ m, more = m + 1 := ⟨more - 1, by omega⟩
    obtain ⟨n, hn, ⟨hv, rfl⟩ | ⟨hv, hd, rfl⟩ | ⟨hv, hd, t, ht, rfl⟩⟩ := visit_cases h
    · simp [visit, hv]
    · simp [visit, hv, hd]
    · obtain rfl := Nat.succ.inj hn
      have hmore := fold_mono (fun _ _ _ h => ih (by omega : frames ≤ m) h) ht
      simp [visit, hv, hd, hmore]

/-! ## The cycle flag -/

/-- Where the flag stays down, everything is done in order and the root is among it. -/
theorem visit_sorted {frames : Nat} {s s' : Colours α} {v : α}
    (h : visit next frames s v = some s') (hflag : s'.cycle = false) :
    (Sorted next s.visited → Sorted next s'.visited) ∧ v ∈ s'.visited := by
  induction frames generalizing s s' v with
  | zero => simp [visit] at h
  | succ frames ih =>
    obtain ⟨n, hn, ⟨-, rfl⟩ | ⟨-, hd, rfl⟩ | ⟨-, -, t, ht, rfl⟩⟩ := visit_cases h
    · cases hflag
    · exact ⟨id, hd⟩
    · obtain rfl := Nat.succ.inj hn
      have hfold : ∀ {vs : List α} {a b : Colours α}, vs.foldlM (visit next frames) a = some b →
          b.cycle = false →
          (Sorted next a.visited → Sorted next b.visited) ∧ ∀ w ∈ vs, w ∈ b.visited := by
        intro vs
        induction vs with
        | nil =>
          intro a b h _
          obtain rfl : a = b := by simpa using h
          exact ⟨id, by simp⟩
        | cons w vs ihv =>
          intro a b h hb
          rw [List.foldlM_cons] at h
          obtain ⟨c, hc, hrest⟩ := Option.bind_eq_some_iff.mp h
          have hgrows := fold_grows hrest
          have hcflag : c.cycle = false := by
            by_contra hne
            simp [hgrows.cycle (by simpa using hne)] at hb
          obtain ⟨hsorted, hw⟩ := ih hc hcflag
          obtain ⟨hsorted', hvs⟩ := ihv hrest hb
          refine ⟨fun ha => hsorted' (hsorted ha), ?_⟩
          intro u hu
          rcases List.mem_cons.mp hu with rfl | hu
          · exact hgrows.visited _ hw
          · exact hvs u hu
      obtain ⟨hsorted, hnext⟩ := hfold ht hflag
      exact ⟨fun hs => ⟨hnext, hsorted hs⟩, by simp⟩

/-- The nodes on the stack lead to the call, so one that is met again lies on a cycle. -/
theorem visit_cyclic {frames : Nat} {s s' : Colours α} {v : α}
    (h : visit next frames s v = some s')
    (hstack : ∀ u ∈ s.visiting, Relation.TransGen (Edge next) u v) (hflag : s'.cycle = true) :
    s.cycle = true ∨ Cyclic next := by
  induction frames generalizing s s' v with
  | zero => simp [visit] at h
  | succ frames ih =>
    obtain ⟨n, hn, ⟨hv, rfl⟩ | ⟨-, -, rfl⟩ | ⟨-, -, t, ht, rfl⟩⟩ := visit_cases h
    · exact .inr ⟨v, hstack v hv⟩
    · exact .inl hflag
    · obtain rfl := Nat.succ.inj hn
      have hfold : ∀ {vs : List α} {a b : Colours α}, (∀ w ∈ vs, w ∈ next v) →
          a.visiting = v :: s.visiting → vs.foldlM (visit next frames) a = some b →
          b.cycle = true → a.cycle = true ∨ Cyclic next := by
        intro vs
        induction vs with
        | nil =>
          intro a b _ _ h hb
          obtain rfl : a = b := by simpa using h
          exact .inl hb
        | cons w vs ihv =>
          intro a b hvs ha h hb
          rw [List.foldlM_cons] at h
          obtain ⟨c, hc, hrest⟩ := Option.bind_eq_some_iff.mp h
          have hvw : Edge next v w := hvs w (by simp)
          rcases ihv (fun u hu => hvs u (by simp [hu])) ((visit_grows hc).visiting.trans ha)
            hrest hb with hcflag | hcyclic
          · refine ih hc ?_ hcflag
            intro u hu
            rw [ha] at hu
            rcases List.mem_cons.mp hu with rfl | hu
            · exact .single hvw
            · exact (hstack u hu).tail hvw
          · exact .inr hcyclic
      exact hfold (a := { s with visiting := v :: s.visiting }) (fun _ h => h) rfl ht hflag

/-! ## Frames -/

/-- On a finite graph every stack is finite, so the search ends. -/
theorem visit_bounded {nodes : List α} (hclosed : ∀ v ∈ nodes, ∀ w ∈ next v, w ∈ nodes)
    {frames : Nat} {s : Colours α} {v : α} (hv : v ∈ nodes) (hnodup : s.visiting.Nodup)
    (hstack : ∀ u ∈ s.visiting, u ∈ nodes)
    (hframes : nodes.length + 1 ≤ frames + s.visiting.length) :
    ∃ s', visit next frames s v = some s' := by
  induction frames generalizing s v with
  | zero =>
    have hle := (List.Nodup.subperm hnodup hstack).length_le
    omega
  | succ frames ih =>
    by_cases hvisiting : v ∈ s.visiting
    · exact ⟨_, by rw [visit, if_pos hvisiting]⟩
    · by_cases hvisited : v ∈ s.visited
      · exact ⟨_, by rw [visit, if_neg hvisiting, if_pos hvisited]⟩
      · have hfold : ∀ {vs : List α} {a : Colours α}, (∀ w ∈ vs, w ∈ next v) →
            a.visiting = v :: s.visiting → ∃ b, vs.foldlM (visit next frames) a = some b := by
          intro vs
          induction vs with
          | nil => exact fun {a} _ _ => ⟨a, rfl⟩
          | cons w vs ihv =>
            intro a hvs ha
            obtain ⟨b, hb⟩ : ∃ b, visit next frames a w = some b := by
              refine ih (hclosed v hv w (hvs w (by simp))) ?_ ?_ ?_
              · rw [ha]
                exact List.nodup_cons.mpr ⟨hvisiting, hnodup⟩
              · rw [ha]
                intro u hu
                rcases List.mem_cons.mp hu with rfl | hu
                · exact hv
                · exact hstack u hu
              · rw [ha, List.length_cons]
                omega
            obtain ⟨c, hc⟩ := ihv (fun u hu => hvs u (by simp [hu]))
              ((visit_grows hb).visiting.trans ha)
            exact ⟨c, by rw [List.foldlM_cons, hb]; exact hc⟩
        obtain ⟨t, ht⟩ : ∃ t, (next v).foldlM (visit next frames)
            { s with visiting := v :: s.visiting } = some t :=
          hfold (fun _ h => h) rfl
        exact ⟨_, by rw [visit, if_neg hvisiting, if_neg hvisited, ht]; rfl⟩

/-- The frames that are left hold every path that leads through nodes not yet searched. -/
def Fits (next : α → List α) (searched : α → Prop) (frames : Nat) (v : α) : Prop :=
  ∀ path, List.IsChain (Edge next) (v :: path) →
    (∀ u ∈ (v :: path).dropLast, ¬ searched u) → path.length + 1 ≤ frames

theorem visit_fits {frames : Nat} {s : Colours α} {v : α}
    (h : Fits next (· ∈ s.visited) frames v) : ∃ s', visit next frames s v = some s' := by
  induction frames generalizing s v with
  | zero =>
    have := h [] (.singleton v) (by simp)
    omega
  | succ frames ih =>
    by_cases hvisiting : v ∈ s.visiting
    · exact ⟨_, by rw [visit, if_pos hvisiting]⟩
    · by_cases hvisited : v ∈ s.visited
      · exact ⟨_, by rw [visit, if_neg hvisiting, if_pos hvisited]⟩
      · have hfold : ∀ {vs : List α} {a : Colours α}, (∀ w ∈ vs, w ∈ next v) →
            (∀ u ∈ s.visited, u ∈ a.visited) →
            ∃ b, vs.foldlM (visit next frames) a = some b := by
          intro vs
          induction vs with
          | nil => exact fun {a} _ _ => ⟨a, rfl⟩
          | cons w vs ihv =>
            intro a hvs ha
            obtain ⟨b, hb⟩ : ∃ b, visit next frames a w = some b := by
              refine ih fun path hpath hfresh => ?_
              have hlong := h (w :: path) (.cons_cons (hvs w (by simp)) hpath) (by
                intro u hu
                rcases List.mem_cons.mp (by simpa using hu) with rfl | hu
                · exact hvisited
                · exact fun hdone => hfresh u hu (ha u hdone))
              rw [List.length_cons] at hlong
              omega
            obtain ⟨c, hc⟩ := ihv (fun u hu => hvs u (by simp [hu]))
              (fun u hu => (visit_grows hb).visited u (ha u hu))
            exact ⟨c, by rw [List.foldlM_cons, hb]; exact hc⟩
        obtain ⟨t, ht⟩ : ∃ t, (next v).foldlM (visit next frames)
            { s with visiting := v :: s.visiting } = some t :=
          hfold (fun _ h => h) (fun _ h => h)
        exact ⟨_, by rw [visit, if_neg hvisiting, if_neg hvisited, ht]; rfl⟩

/-- A path whose every edge is the first that is followed fills the stack. -/
theorem visit_overflows (hacyclic : ¬ Cyclic next) {frames : Nat} {s : Colours α} {v : α}
    {path : List α} (hpath : List.IsChain (fun a b => (next a).head? = some b) (v :: path))
    (hfresh : ∀ u ∈ (v :: path).dropLast, u ∉ s.visited)
    (hstack : ∀ u ∈ s.visiting, Relation.TransGen (Edge next) u v)
    (hlong : frames < path.length + 1) : visit next frames s v = none := by
  induction frames generalizing s v path with
  | zero => rfl
  | succ frames ih =>
    cases path with
    | nil => simp only [List.length_nil] at hlong; omega
    | cons w path =>
      obtain ⟨hhead, hrest⟩ := List.isChain_cons_cons.mp hpath
      obtain ⟨ws, hnext⟩ := List.head?_eq_some_iff.mp hhead
      have hvw : Edge next v w := by simp [Edge, hnext]
      have hvisiting : v ∉ s.visiting := fun hv => hacyclic ⟨v, hstack v hv⟩
      have hvisited : v ∉ s.visited := hfresh v (by simp)
      have hinner : visit next frames { s with visiting := v :: s.visiting } w = none := by
        refine ih hrest ?_ ?_ (by simp only [List.length_cons] at hlong; omega)
        · intro u hu
          exact hfresh u (by simp [hu])
        · intro u hu
          rcases List.mem_cons.mp hu with rfl | hu
          · exact .single hvw
          · exact (hstack u hu).tail hvw
      rw [visit, if_neg hvisiting, if_neg hvisited, hnext, List.foldlM_cons, hinner]
      rfl

/-! ## The whole search -/

theorem visit_reaches {frames : Nat} {s s' : Colours α} {v : α}
    (h : visit next frames s v = some s') :
    ∀ u ∈ s'.visited, u ∈ s.visited ∨ Relation.ReflTransGen (Edge next) v u := by
  induction frames generalizing s s' v with
  | zero => simp [visit] at h
  | succ frames ih =>
    obtain ⟨n, hn, ⟨-, rfl⟩ | ⟨-, -, rfl⟩ | ⟨-, -, t, ht, rfl⟩⟩ := visit_cases h
    · exact fun u hu => .inl hu
    · exact fun u hu => .inl hu
    · obtain rfl := Nat.succ.inj hn
      have hfold : ∀ {vs : List α} {a b : Colours α}, (∀ w ∈ vs, w ∈ next v) →
          vs.foldlM (visit next frames) a = some b →
          ∀ u ∈ b.visited, u ∈ a.visited ∨ Relation.ReflTransGen (Edge next) v u := by
        intro vs
        induction vs with
        | nil =>
          intro a b _ h u hu
          obtain rfl : a = b := by simpa using h
          exact .inl hu
        | cons w vs ihv =>
          intro a b hvs h u hu
          rw [List.foldlM_cons] at h
          obtain ⟨c, hc, hrest⟩ := Option.bind_eq_some_iff.mp h
          rcases ihv (fun x hx => hvs x (by simp [hx])) hrest u hu with hu | hu
          · rcases ih hc u hu with hu | hu
            · exact .inl hu
            · exact .inr (.head (hvs w (by simp)) hu)
          · exact .inr hu
      intro u hu
      rcases List.mem_cons.mp hu with rfl | hu
      · exact .inr .refl
      · exact hfold (a := { s with visiting := v :: s.visiting }) (fun _ h => h) ht u hu

/-- What holds between the roots that are done and those that are to come. -/
structure Between (next : α → List α) (earlier : List α) (s : Colours α) : Prop where
  idle : s.visiting = []
  cyclic : s.cycle = true → Cyclic next
  sorted : s.cycle = false → Sorted next s.visited
  done : s.cycle = false → ∀ v ∈ earlier, v ∈ s.visited
  reached : ∀ u ∈ s.visited, ∃ e ∈ earlier, Relation.ReflTransGen (Edge next) e u

omit [DecidableEq α] in
theorem Between.start : Between next [] {} :=
  ⟨rfl, nofun, fun _ => trivial, nofun, nofun⟩

theorem Between.visit {earlier : List α} {s s' : Colours α} (h : Between next earlier s)
    {frames : Nat} {v : α} (hv : visit next frames s v = some s') :
    Between next (earlier ++ [v]) s' := by
  have hgrows := visit_grows hv
  have hdown : s'.cycle = false → s.cycle = false := by
    intro hflag
    by_contra hne
    simp [hgrows.cycle (by simpa using hne)] at hflag
  refine ⟨hgrows.visiting.trans h.idle, ?_, ?_, ?_, ?_⟩
  · intro hflag
    rcases visit_cyclic hv (by simp [h.idle]) hflag with hs | hs
    · exact h.cyclic hs
    · exact hs
  · exact fun hflag => (visit_sorted hv hflag).1 (h.sorted (hdown hflag))
  · intro hflag w hw
    rcases List.mem_append.mp hw with hw | hw
    · exact hgrows.visited w (h.done (hdown hflag) w hw)
    · obtain rfl : w = v := by simpa using hw
      exact (visit_sorted hv hflag).2
  · intro u hu
    rcases visit_reaches hv u hu with hu | hu
    · obtain ⟨e, he, heu⟩ := h.reached u hu
      exact ⟨e, List.mem_append_left _ he, heu⟩
    · exact ⟨v, by simp, hu⟩

theorem Between.fold {earlier later : List α} {s s' : Colours α} (h : Between next earlier s)
    {frames : Nat} (hfold : later.foldlM (Graph.visit next frames) s = some s') :
    Between next (earlier ++ later) s' := by
  induction later generalizing earlier s with
  | nil =>
    obtain rfl : s = s' := by simpa using hfold
    simpa using h
  | cons v later ih =>
    rw [List.foldlM_cons] at hfold
    obtain ⟨t, ht, hrest⟩ := Option.bind_eq_some_iff.mp hfold
    simpa using ih (h.visit ht) hrest

/-- **The flag is up exactly on the graphs with a cycle.** -/
theorem search_cycle_iff {frames : Nat} {roots : List α} {s : Colours α}
    (hroots : ∀ v, next v ≠ [] → v ∈ roots) (h : search next frames roots = some s) :
    s.cycle = true ↔ Cyclic next := by
  have hbetween : Between next roots s := by simpa using Between.start.fold h
  refine ⟨hbetween.cyclic, fun ⟨v, hv⟩ => ?_⟩
  by_contra hflag
  have hflag : s.cycle = false := by simpa using hflag
  obtain ⟨w, hvw, -⟩ := Relation.TransGen.head'_iff.mp hv
  have hroot : v ∈ roots := hroots v (List.ne_nil_of_mem hvw)
  exact (hbetween.sorted hflag).acyclic v (hbetween.done hflag v hroot) hv

theorem search_bounded {roots : List α} (hclosed : ∀ v, ∀ w ∈ next v, w ∈ roots) {frames : Nat}
    (hframes : roots.length + 1 ≤ frames) : ∃ s, search next frames roots = some s := by
  have hfold : ∀ {later : List α} {s : Colours α}, (∀ v ∈ later, v ∈ roots) → s.visiting = [] →
      ∃ s', later.foldlM (visit next frames) s = some s' := by
    intro later
    induction later with
    | nil => exact fun {s} _ _ => ⟨s, rfl⟩
    | cons v later ih =>
      intro s hlater hidle
      obtain ⟨t, ht⟩ := visit_bounded (fun v _ w hw => hclosed v w hw) (s := s)
        (hlater v (by simp)) (by simp [hidle]) (by simp [hidle]) (by simpa [hidle] using hframes)
      obtain ⟨s', hs'⟩ := ih (fun w hw => hlater w (by simp [hw]))
        ((visit_grows ht).visiting.trans hidle)
      exact ⟨s', by rw [List.foldlM_cons, ht]; exact hs'⟩
  exact hfold (fun _ h => h) rfl

theorem search_mono {frames more : Nat} (hle : frames ≤ more) {roots : List α} {s : Colours α}
    (h : search next frames roots = some s) : search next more roots = some s :=
  fold_mono (fun _ _ _ => visit_mono hle) h

/-- The nodes that the roots before lead to. -/
def Searched (next : α → List α) (earlier : List α) (u : α) : Prop :=
  ∃ e ∈ earlier, Relation.ReflTransGen (Edge next) e u

/-- From each root, the frames hold the paths through what no earlier root leads to. -/
def RootsFit (next : α → List α) (frames : Nat) (roots : List α) : Prop :=
  ∀ earlier v later, roots = earlier ++ v :: later → Fits next (Searched next earlier) frames v

theorem search_fits (hacyclic : ¬ Cyclic next) {frames : Nat} {roots : List α}
    (h : RootsFit next frames roots) : ∃ s, search next frames roots = some s := by
  have hfold : ∀ {later earlier : List α} {s : Colours α}, roots = earlier ++ later →
      Between next earlier s → ∃ s', later.foldlM (visit next frames) s = some s' := by
    intro later
    induction later with
    | nil => exact fun {_ s} _ _ => ⟨s, rfl⟩
    | cons v later ih =>
      intro earlier s hroots hbetween
      have hflag : s.cycle = false := by
        by_contra hne
        exact hacyclic (hbetween.cyclic (by simpa using hne))
      obtain ⟨t, ht⟩ : ∃ t, visit next frames s v = some t := by
        refine visit_fits fun path hpath hfresh => h earlier v later hroots path hpath ?_
        rintro u hu ⟨e, he, heu⟩
        exact hfresh u hu ((hbetween.sorted hflag).reaches (hbetween.done hflag e he) heu)
      obtain ⟨s', hs'⟩ := ih (by simpa using hroots) (hbetween.visit ht)
      exact ⟨s', by rw [List.foldlM_cons, ht]; exact hs'⟩
  exact hfold (by simp) Between.start

theorem search_overflows (hacyclic : ¬ Cyclic next) {frames : Nat} {earlier later path : List α}
    {v : α} (hpath : List.IsChain (fun a b => (next a).head? = some b) (v :: path))
    (hfresh : ∀ u ∈ (v :: path).dropLast, ¬ Searched next earlier u)
    (hlong : frames < path.length + 1) : search next frames (earlier ++ v :: later) = none := by
  rw [search, List.foldlM_append]
  cases hearlier : earlier.foldlM (visit next frames) {} with
  | none => rfl
  | some s =>
    have hbetween : Between next earlier s := by simpa using Between.start.fold hearlier
    have hnone : visit next frames s v = none :=
      visit_overflows hacyclic hpath (fun u hu hdone => hfresh u hu (hbetween.reached u hdone))
        (by simp [hbetween.idle]) hlong
    show (v :: later).foldlM (visit next frames) s = none
    rw [List.foldlM_cons, hnone]
    rfl

end

end Graph
