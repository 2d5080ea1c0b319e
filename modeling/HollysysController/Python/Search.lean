import Mathlib.Data.List.Infix

/-! # Searching in texts

`find`, `rfind` and slices, and where a pattern can lie in a text that is put together from
parts. -/

namespace Python

variable {α : Type} {pat s t : List α} {sep : α} {n : Nat}

/-! ## Searches -/

section Searches

variable [DecidableEq α]

/-- `text.find(pat)`. -/
def find (pat : List α) : List α → Option Nat
  | [] => if pat = [] then some 0 else none
  | c :: s => if pat.isPrefixOf (c :: s) then some 0 else (find pat s).map (· + 1)

/-- `text.find(pat, start)`. -/
def findFrom (pat s : List α) (start : Nat) : Option Nat :=
  if s.length < start then none else (find pat (s.drop start)).map (start + ·)

/-- `text.rfind(pat)`. -/
def rfind (pat : List α) : List α → Option Nat
  | [] => if pat = [] then some 0 else none
  | c :: s =>
    match rfind pat s with
    | some n => some (n + 1)
    | none => if pat.isPrefixOf (c :: s) then some 0 else none

theorem find_eq_none : find pat s = none ↔ ¬ pat <:+: s := by
  induction s with
  | nil => simp [find]
  | cons c s ih =>
    rw [find, List.infix_cons_iff, ← List.isPrefixOf_iff_prefix]
    split
    case isTrue h => simp [h]
    case isFalse h => simp [h, ih]

theorem find_some (h : find pat s = some n) : pat <+: s.drop n ∧ n ≤ s.length := by
  induction s generalizing n with
  | nil =>
    simp only [find, Option.ite_none_right_eq_some, Option.some.injEq] at h
    obtain ⟨rfl, rfl⟩ := h
    simp
  | cons c s ih =>
    rw [find] at h
    split at h
    case isTrue hpat =>
      obtain rfl := Option.some.inj h
      exact ⟨List.isPrefixOf_iff_prefix.mp hpat, Nat.zero_le _⟩
    case isFalse =>
      obtain ⟨m, hm, rfl⟩ := Option.map_eq_some_iff.mp h
      obtain ⟨hpat, hle⟩ := ih hm
      exact ⟨hpat, by rw [List.length_cons]; omega⟩

theorem find_of_prefix (h : pat <+: s) : find pat s = some 0 := by
  cases s with
  | nil => simp [find, List.prefix_nil.mp h]
  | cons c s => rw [find, if_pos (List.isPrefixOf_iff_prefix.mpr h)]

theorem findFrom_zero : findFrom pat s 0 = find pat s := by
  simp [findFrom]

/-- Nothing is found from the places of the first part. -/
theorem find_append (h : ∀ u v, s = u ++ v → v ≠ [] → ¬ pat <+: v ++ t) :
    find pat (s ++ t) = (find pat t).map (s.length + ·) := by
  induction s with
  | nil => simp
  | cons c s ih =>
    have hhere : ¬ pat.isPrefixOf (c :: (s ++ t)) = true := by
      rw [List.isPrefixOf_iff_prefix]
      exact h [] (c :: s) rfl (by simp)
    rw [List.cons_append, find, if_neg hhere,
      ih fun u v hs hv => h (c :: u) v (by rw [hs, List.cons_append]) hv, Option.map_map]
    congr 1
    funext n
    simp only [Function.comp, List.length_cons]
    omega

theorem rfind_append (h : rfind pat t = some n) : rfind pat (s ++ t) = some (s.length + n) := by
  induction s with
  | nil => simpa using h
  | cons c s ih =>
    rw [List.cons_append, rfind, ih, List.length_cons]
    simp only [Option.some.injEq]
    omega

end Searches

/-- `text[start:stop]`. -/
def slice (s : List α) (start stop : Nat) : List α := (s.take stop).drop start

theorem slice_append (s u t : List α) :
    slice (s ++ (u ++ t)) s.length (s.length + u.length) = u := by
  rw [slice, List.take_length_add_append, List.drop_left, List.take_left]

/-! ## Places of a pattern -/

/-- The pattern occurs in the text, with `rest` after it. -/
def Occurs (pat s rest : List α) : Prop := ∃ before, s = before ++ (pat ++ rest)

variable {rest : List α}

theorem infix_iff_occurs : pat <:+: s ↔ ∃ rest, Occurs pat s rest := by
  constructor
  · rintro ⟨before, rest, rfl⟩
    exact ⟨rest, before, List.append_assoc _ _ _⟩
  · rintro ⟨rest, before, rfl⟩
    exact ⟨before, rest, List.append_assoc _ _ _⟩

theorem occurs_of_prefix (h : pat <+: s.drop n) :
    Occurs pat s (s.drop (n + pat.length)) := by
  obtain ⟨rest, hrest⟩ := h
  refine ⟨s.take n, ?_⟩
  rw [← List.drop_drop, ← hrest, List.drop_left, hrest, List.take_append_drop]

theorem Occurs.of_drop (h : Occurs pat (s.drop n) rest) : Occurs pat s rest := by
  obtain ⟨before, h⟩ := h
  exact ⟨s.take n ++ before, by rw [List.append_assoc, ← h, List.take_append_drop]⟩

theorem prefix_cut (hsep : sep ∉ pat) (h : pat <+: s ++ sep :: t) : pat <+: s := by
  induction s generalizing pat with
  | nil =>
    cases pat with
    | nil => exact List.nil_prefix
    | cons c pat =>
      obtain ⟨rfl, -⟩ := List.cons_prefix_cons.mp h
      exact absurd List.mem_cons_self hsep
  | cons d s ih =>
    cases pat with
    | nil => exact List.nil_prefix
    | cons c pat =>
      obtain ⟨rfl, htail⟩ := List.cons_prefix_cons.mp h
      have hrest := ih (fun hmem => hsep (List.mem_cons_of_mem _ hmem)) htail
      exact List.cons_prefix_cons.mpr ⟨rfl, hrest⟩

/-- A pattern that is not in the text before a separator is found after it. -/
theorem find_cut [DecidableEq α] (hsep : sep ∉ pat) (h : ¬ pat <:+: s) :
    find pat (s ++ sep :: t) = (find pat t).map (s.length + 1 + ·) := by
  have hsplit : s ++ sep :: t = (s ++ [sep]) ++ t := by simp
  rw [hsplit, find_append, List.length_append, List.length_singleton]
  intro u v huv hv hprefix
  rcases List.eq_nil_or_concat v with hnil | ⟨w, c, hw⟩
  · exact hv hnil
  rw [List.concat_eq_append] at hw
  rw [hw, ← List.append_assoc] at huv
  obtain ⟨hs, hc⟩ := List.append_inj' huv rfl
  obtain rfl := (List.cons.inj hc).1
  rw [hw, List.append_assoc] at hprefix
  have hinfix := (prefix_cut hsep hprefix).isInfix
  exact h (hs ▸ List.infix_append_of_infix_right hinfix)

/-- A pattern lies on one side of a character that it does not contain. -/
theorem occurs_cut (hsep : sep ∉ pat) (h : Occurs pat (s ++ sep :: t) rest) :
    (∃ r, Occurs pat s r ∧ rest = r ++ sep :: t) ∨ Occurs pat t rest := by
  obtain ⟨before, h⟩ := h
  rcases List.append_eq_append_iff.mp h with ⟨a, hbefore, hrest⟩ | ⟨a, hs, hrest⟩
  · -- the pattern begins after the first part
    cases a with
    | nil =>
      cases pat with
      | nil => exact .inl ⟨[], ⟨s, by simp⟩, by simpa using hrest.symm⟩
      | cons c pat =>
        rw [List.nil_append, List.cons_append] at hrest
        exact absurd List.mem_cons_self ((List.cons.inj hrest).1 ▸ hsep)
    | cons c a => exact .inr ⟨a, (List.cons.inj hrest).2⟩
  · rcases List.append_eq_append_iff.mp hrest with ⟨b, ha, hb⟩ | ⟨b, hpat, hb⟩
    · exact .inl ⟨b, ⟨before, by rw [hs, ha]⟩, hb⟩
    · cases b with
      | nil => exact .inl ⟨[], ⟨before, by rw [hs, hpat]; simp⟩, by simpa using hb.symm⟩
      | cons c b =>
        refine absurd ?_ hsep
        rw [hpat, (List.cons.inj hb).1]
        simp

/-- A pattern begins after characters that it does not begin with. -/
theorem occurs_skip {c : α} (hs : c ∉ s) (h : Occurs (c :: pat) (s ++ t) rest) :
    Occurs (c :: pat) t rest := by
  obtain ⟨before, h⟩ := h
  rcases List.append_eq_append_iff.mp h with ⟨a, -, ht⟩ | ⟨a, hbefore, ht⟩
  · exact ⟨a, ht⟩
  · cases a with
    | nil => exact ⟨[], by simpa using ht.symm⟩
    | cons d a =>
      refine absurd ?_ hs
      rw [List.cons_append, List.cons_append] at ht
      rw [hbefore, (List.cons.inj ht).1]
      simp

end Python
