import Mathlib

/-! # Parts of paths

Texts that a separator joins: which characters they have, and when one lies below another. -/

namespace Python

/-! ## Letters and digits -/

theorem toNat_digit {c : Char} (h : c.isDigit = true) : 48 ≤ c.toNat ∧ c.toNat ≤ 57 := by
  simp only [Char.isDigit, Bool.and_eq_true, decide_eq_true_eq] at h
  exact ⟨UInt32.le_iff_toNat_le.mp h.1, UInt32.le_iff_toNat_le.mp h.2⟩

theorem toNat_lower {c : Char} (h : c.isLower = true) : 97 ≤ c.toNat ∧ c.toNat ≤ 122 := by
  simp only [Char.isLower, Bool.and_eq_true, decide_eq_true_eq] at h
  exact ⟨UInt32.le_iff_toNat_le.mp h.1, UInt32.le_iff_toNat_le.mp h.2⟩

theorem toNat_upper {c : Char} (h : c.isUpper = true) : 65 ≤ c.toNat ∧ c.toNat ≤ 90 := by
  simp only [Char.isUpper, decide_eq_true_eq] at h
  exact ⟨UInt32.le_iff_toNat_le.mp h.1, UInt32.le_iff_toNat_le.mp h.2⟩

theorem toNat_alphanum {c : Char} (h : c.isAlphanum = true) : 48 ≤ c.toNat ∧ c.toNat ≤ 122 := by
  rw [Char.isAlphanum, Char.isAlpha, Bool.or_eq_true, Bool.or_eq_true] at h
  rcases h with (hupper | hlower) | hdigit
  · have hrange := toNat_upper hupper
    omega
  · have hrange := toNat_lower hlower
    omega
  · have hrange := toNat_digit hdigit
    omega

/-! ## Parts -/

variable {α : Type} {sep c : α} {s : List α} {parts xs ys : List (List α)}

theorem mem_intercalate (h : c ∈ [sep].intercalate parts) : c = sep ∨ ∃ part ∈ parts, c ∈ part := by
  induction parts with
  | nil => cases h
  | cons part parts ih =>
    by_cases hnil : parts = []
    · subst hnil
      rw [List.intercalate_singleton] at h
      exact .inr ⟨part, List.mem_cons_self, h⟩
    · rw [List.intercalate_cons_of_ne_nil hnil, List.append_assoc, List.mem_append,
        List.singleton_append, List.mem_cons] at h
      rcases h with hpart | rfl | hrest
      · exact .inr ⟨part, List.mem_cons_self, hpart⟩
      · exact .inl rfl
      · rcases ih hrest with rfl | ⟨found, hfound, hmem⟩
        · exact .inl rfl
        · exact .inr ⟨found, List.mem_cons_of_mem part hfound, hmem⟩

variable [DecidableEq α]

/-- A character of a text is the separator, or lies in one of the parts. -/
theorem mem_parts (h : c ∈ s) : c = sep ∨ ∃ part ∈ s.splitOn sep, c ∈ part := by
  apply mem_intercalate
  rw [List.intercalate_splitOn]
  exact h

/-- Joined parts lie below others only where these are their first ones. -/
theorem prefix_of_below (hxs : ∀ part ∈ xs, sep ∉ part) (hys : ∀ part ∈ ys, sep ∉ part)
    (hxne : xs ≠ []) (hyne : ys ≠ [])
    (h : ([sep].intercalate xs ++ [sep]) <+: [sep].intercalate ys) :
    ∃ zs, zs ≠ [] ∧ ys = xs ++ zs := by
  obtain ⟨t, ht⟩ := h
  refine ⟨t.splitOn sep, List.splitOn_ne_nil sep t, ?_⟩
  calc ys = ([sep].intercalate ys).splitOn sep := (List.splitOn_intercalate sep hys hyne).symm
    _ = ([sep].intercalate xs ++ sep :: t).splitOn sep := by
      rw [← ht, List.append_assoc, List.singleton_append]
    _ = xs ++ t.splitOn sep := by
      rw [List.splitOn_append_cons_self, List.splitOn_intercalate sep hxs hxne]

end Python
