import Mathlib.Data.Finset.Card
import Mathlib.Data.Finset.SDiff
import Mathlib.Data.List.Nodup
import Mathlib.Logic.Relation

/-! # Saturation in passes

The edges of a finite relation are visited in passes, in any order. An edge whose source is
selected selects its target, and the edges after it in the pass see that. The passes end with one
that selects nothing. -/

namespace Graph

section Saturation

variable {α : Type} {edges all : List (α × α)} {selected out : List α}

/-- A path of edges leads to the node from one of the roots. -/
def Reached (edges : List (α × α)) (roots : List α) (x : α) : Prop :=
  ∃ r ∈ roots, Relation.ReflTransGen (fun a b => (a, b) ∈ edges) r x

theorem Reached.root {x : α} (h : x ∈ selected) : Reached edges selected x := ⟨x, h, .refl⟩

theorem Reached.trans {roots : List α} {x : α} (h : Reached edges selected x)
    (hroots : ∀ r ∈ selected, Reached edges roots r) : Reached edges roots x := by
  obtain ⟨r, hr, hpath⟩ := h
  obtain ⟨r', hr', hpath'⟩ := hroots r hr
  exact ⟨r', hr', hpath'.trans hpath⟩

variable [DecidableEq α]

/-- One edge of a pass: the nodes selected so far, and whether the pass has selected one. -/
def visitEdge (s : List α × Bool) (edge : α × α) : List α × Bool :=
  if edge.1 ∈ s.1 ∧ edge.2 ∉ s.1 then (edge.2 :: s.1, true) else s

def pass (edges : List (α × α)) (selected : List α) : List α × Bool :=
  edges.foldl visitEdge (selected, false)

/-- The passes from `selected` end with `out`. -/
inductive Saturates (edges : List (α × α)) : List α → List α → Prop
  | done {selected out : List α} (h : pass edges selected = (out, false)) :
      Saturates edges selected out
  | again {selected next out : List α} (h : pass edges selected = (next, true))
      (hnext : Saturates edges next out) : Saturates edges selected out

/-- At most `n` passes. -/
def saturate (edges : List (α × α)) : Nat → List α → List α
  | 0, selected => selected
  | n + 1, selected =>
    match pass edges selected with
    | (out, false) => out
    | (next, true) => saturate edges n next

/-- The targets that are not selected. -/
def unselected (edges : List (α × α)) (selected : List α) : Finset α :=
  (edges.map Prod.snd).toFinset \ selected.toFinset

variable {s : List α × Bool}

/-! ## One pass -/

theorem visitEdge_subset (s : List α × Bool) (edge : α × α) : s.1 ⊆ (visitEdge s edge).1 := by
  unfold visitEdge
  split
  · exact List.subset_cons_self _ _
  · exact List.Subset.refl _

theorem visits_subset (edges : List (α × α)) (s : List α × Bool) :
    s.1 ⊆ (edges.foldl visitEdge s).1 := by
  induction edges generalizing s with
  | nil => exact List.Subset.refl _
  | cons edge edges ih => exact List.Subset.trans (visitEdge_subset s edge) (ih _)

theorem visitEdge_flag {edge : α × α} (h : s.2 = true) : (visitEdge s edge).2 = true := by
  unfold visitEdge
  split
  · rfl
  · exact h

theorem visits_flag (h : s.2 = true) : (edges.foldl visitEdge s).2 = true := by
  induction edges generalizing s with
  | nil => exact h
  | cons edge edges ih => exact ih (visitEdge_flag h)

/-- A pass that selects nothing finds every edge obeyed. -/
theorem visits_quiet (h : (edges.foldl visitEdge s).2 = false) :
    edges.foldl visitEdge s = s ∧ ∀ edge ∈ edges, edge.1 ∈ s.1 → edge.2 ∈ s.1 := by
  induction edges generalizing s with
  | nil => exact ⟨rfl, nofun⟩
  | cons edge edges ih =>
    rw [List.foldl_cons] at h ⊢
    by_cases hedge : edge.1 ∈ s.1 ∧ edge.2 ∉ s.1
    · have hflag : (visitEdge s edge).2 = true := by rw [visitEdge, if_pos hedge]
      rw [visits_flag hflag] at h
      cases h
    · have hsame : visitEdge s edge = s := if_neg hedge
      rw [hsame] at h ⊢
      obtain ⟨hs, hrest⟩ := ih h
      refine ⟨hs, fun e he hsource => ?_⟩
      rcases List.mem_cons.mp he with rfl | he
      · by_contra hnot
        exact hedge ⟨hsource, hnot⟩
      · exact hrest e he hsource

/-- A pass that selects something selects a target. -/
theorem visits_selects (hs : s.2 = false) (h : (edges.foldl visitEdge s).2 = true) :
    ∃ edge ∈ edges, edge.2 ∉ s.1 ∧ edge.2 ∈ (edges.foldl visitEdge s).1 := by
  induction edges generalizing s with
  | nil =>
    rw [List.foldl_nil, hs] at h
    cases h
  | cons edge edges ih =>
    rw [List.foldl_cons] at h ⊢
    by_cases hedge : edge.1 ∈ s.1 ∧ edge.2 ∉ s.1
    · refine ⟨edge, List.mem_cons_self, hedge.2, visits_subset edges _ ?_⟩
      rw [visitEdge, if_pos hedge]
      exact List.mem_cons_self
    · have hsame : visitEdge s edge = s := if_neg hedge
      rw [hsame] at h ⊢
      obtain ⟨e, he, hfresh, hselected⟩ := ih hs h
      exact ⟨e, List.mem_cons_of_mem _ he, hfresh, hselected⟩

/-- What a pass over some of the edges selects is reached. -/
theorem visits_reached (hedges : edges ⊆ all) :
    ∀ x ∈ (edges.foldl visitEdge s).1, Reached all s.1 x := by
  induction edges generalizing s with
  | nil => exact fun x hx => .root hx
  | cons edge edges ih =>
    rw [List.cons_subset] at hedges
    refine fun x hx => (ih hedges.2 x hx).trans fun r hr => ?_
    unfold visitEdge at hr
    split at hr
    · next hedge =>
      rcases List.mem_cons.mp hr with rfl | hr
      · exact ⟨edge.1, hedge.1, .single hedges.1⟩
      · exact .root hr
    · exact .root hr

theorem visits_nodup (h : s.1.Nodup) : (edges.foldl visitEdge s).1.Nodup := by
  induction edges generalizing s with
  | nil => exact h
  | cons edge edges ih =>
    refine ih ?_
    unfold visitEdge
    split
    · next hedge => exact List.nodup_cons.mpr ⟨hedge.2, h⟩
    · exact h

theorem pass_subset (edges : List (α × α)) (selected : List α) :
    selected ⊆ (pass edges selected).1 :=
  visits_subset edges (selected, false)

theorem pass_nodup (edges : List (α × α)) (h : selected.Nodup) : (pass edges selected).1.Nodup :=
  visits_nodup (s := (selected, false)) h

theorem pass_quiet (h : pass edges selected = (out, false)) :
    selected = out ∧ ∀ edge ∈ edges, edge.1 ∈ out → edge.2 ∈ out := by
  obtain ⟨hsame, hclosed⟩ := visits_quiet (s := (selected, false)) (congrArg Prod.snd h)
  obtain rfl : selected = out := congrArg Prod.fst (hsame.symm.trans h)
  exact ⟨rfl, hclosed⟩

theorem pass_reached (edges : List (α × α)) (selected : List α) :
    ∀ x ∈ (pass edges selected).1, Reached edges selected x :=
  visits_reached (s := (selected, false)) (List.Subset.refl edges)

/-- Each pass but the last leaves fewer targets. -/
theorem unselected_pass {next : List α} (h : pass edges selected = (next, true)) :
    (unselected edges next).card < (unselected edges selected).card := by
  have hsubset := pass_subset edges selected
  obtain ⟨edge, hedge, hfresh, hselected⟩ :=
    visits_selects (s := (selected, false)) rfl (congrArg Prod.snd h)
  change edge.2 ∈ (pass edges selected).1 at hselected
  rw [h] at hsubset hselected
  have htarget : edge.2 ∈ edges.map Prod.snd := List.mem_map_of_mem hedge
  refine Finset.card_lt_card (Finset.ssubset_iff_of_subset ?_ |>.mpr ⟨edge.2, ?_, ?_⟩)
  · refine Finset.sdiff_subset_sdiff (Finset.Subset.refl _) fun x hx => ?_
    exact List.mem_toFinset.mpr (hsubset (List.mem_toFinset.mp hx))
  · exact Finset.mem_sdiff.mpr
      ⟨List.mem_toFinset.mpr htarget, fun h => hfresh (List.mem_toFinset.mp h)⟩
  · exact fun h => (Finset.mem_sdiff.mp h).2 (List.mem_toFinset.mpr hselected)

/-! ## All passes -/

/-- **The passes end**, on cycles as well: as many as there are targets are enough. -/
theorem saturate_saturates {n : Nat} (h : (unselected edges selected).card < n) :
    Saturates edges selected (saturate edges n selected) := by
  induction n generalizing selected with
  | zero => exact absurd h (Nat.not_lt_zero _)
  | succ n ih =>
    unfold saturate
    split
    · next out hpass => exact .done hpass
    · next next hpass =>
      have hless := unselected_pass hpass
      exact .again hpass (ih (by omega))

theorem Saturates.unique {out' : List α} (h : Saturates edges selected out)
    (h' : Saturates edges selected out') : out = out' := by
  induction h with
  | done hpass =>
    cases h' with
    | done hpass' =>
      rw [hpass, Prod.mk.injEq] at hpass'
      exact hpass'.1
    | again hpass' =>
      rw [hpass] at hpass'
      cases hpass'
  | again hpass _ ih =>
    cases h' with
    | done hpass' =>
      rw [hpass] at hpass'
      cases hpass'
    | again hpass' hnext =>
      rw [hpass, Prod.mk.injEq] at hpass'
      obtain ⟨rfl, -⟩ := hpass'
      exact ih hnext

theorem Saturates.subset (h : Saturates edges selected out) : selected ⊆ out := by
  induction h with
  | @done selected out hpass =>
    have hsubset := pass_subset edges selected
    rwa [hpass] at hsubset
  | @again selected next out hpass _ ih =>
    have hsubset := pass_subset edges selected
    rw [hpass] at hsubset
    exact List.Subset.trans hsubset ih

theorem Saturates.nodup (h : Saturates edges selected out) (hselected : selected.Nodup) :
    out.Nodup := by
  induction h with
  | done hpass =>
    have hnodup := pass_nodup edges hselected
    rwa [hpass] at hnodup
  | again hpass _ ih =>
    have hnodup := pass_nodup edges hselected
    rw [hpass] at hnodup
    exact ih hnodup

theorem Saturates.reached (h : Saturates edges selected out) :
    ∀ x ∈ out, Reached edges selected x := by
  induction h with
  | @done selected out hpass =>
    have hreached := pass_reached edges selected
    rwa [hpass] at hreached
  | @again selected next out hpass _ ih =>
    have hreached := pass_reached edges selected
    rw [hpass] at hreached
    exact fun x hx => (ih x hx).trans hreached

/-- The last pass found every edge obeyed. -/
theorem Saturates.closed (h : Saturates edges selected out) :
    ∀ edge ∈ edges, edge.1 ∈ out → edge.2 ∈ out := by
  induction h with
  | done hpass => exact (pass_quiet hpass).2
  | again _ _ ih => exact ih

/-- **What is selected in the end is what is reached**, whatever the order of the edges. -/
theorem Saturates.mem_iff (h : Saturates edges selected out) {x : α} :
    x ∈ out ↔ Reached edges selected x := by
  refine ⟨h.reached x, ?_⟩
  rintro ⟨r, hr, hpath⟩
  induction hpath with
  | refl => exact h.subset hr
  | tail _ hedge ih => exact h.closed _ hedge ih

end Saturation

end Graph
