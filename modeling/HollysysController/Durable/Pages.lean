import Mathlib.Data.List.Nodup
import Mathlib.Data.List.Infix

/-! # Pages of a listing that grows

A reader takes the pages of a listing one after the other. Items that come in between move the
others to later places, so some are read twice; where nothing is taken away, none is missed. -/

namespace Durable.Pages

variable {α : Type}

/-- A page of a listing, counted from zero. -/
def page (size : Nat) (l : List α) (k : Nat) : List α := (l.drop (size * k)).take size

theorem mem_of_mem_page {size k : Nat} {l : List α} {a : α} (h : a ∈ page size l k) : a ∈ l :=
  List.mem_of_mem_drop (List.mem_of_mem_take h)

theorem take_page (size : Nat) (l : List α) (k : Nat) :
    l.take (size * k) ++ page size l k = l.take (size * (k + 1)) := by
  rw [page, Nat.mul_succ, List.take_add]

/-- A page that is not full is the last one. -/
theorem take_of_short {size k : Nat} {l : List α} (h : (page size l k).length < size) :
    l.take (size * (k + 1)) = l := by
  rw [page, List.length_take, List.length_drop] at h
  refine List.take_of_length_le ?_
  rw [Nat.mul_succ]
  omega

/-- What stands early in a listing stood early in it before it grew. -/
theorem mem_take_of_sublist {l l' : List α} (h : l.Sublist l') (hnodup : l'.Nodup) {a : α}
    (ha : a ∈ l) {n : Nat} (hn : a ∈ l'.take n) : a ∈ l.take n := by
  induction h generalizing n with
  | slnil => simp at ha
  | @cons l l' b hsub ih =>
    obtain ⟨hb, hrest⟩ := List.nodup_cons.mp hnodup
    cases n with
    | zero => simp at hn
    | succ n =>
      rw [List.take_succ_cons, List.mem_cons] at hn
      rcases hn with rfl | hn
      · exact absurd (hsub.subset ha) hb
      · exact (List.take_subset_take_left l n.le_succ) (ih hrest ha hn)
  | @cons_cons l l' b hsub ih =>
    obtain ⟨hb, hrest⟩ := List.nodup_cons.mp hnodup
    cases n with
    | zero => simp at hn
    | succ n =>
      rw [List.take_succ_cons, List.mem_cons] at hn ⊢
      rcases List.mem_cons.mp ha with rfl | ha'
      · exact .inl rfl
      · rcases hn with rfl | hn
        · exact .inl rfl
        · exact .inr (ih hrest ha' hn)

/-- Of the listing `l₀`, the items on the first `k` pages of `l` were read. -/
def Seen (size : Nat) (l₀ : List α) (k : Nat) (l items : List α) : Prop :=
  ∀ a ∈ l₀, a ∈ l.take (size * k) → a ∈ items

variable {size k : Nat} {l₀ l l' items : List α}

theorem seen_zero : Seen size l₀ 0 l items := by
  intro a _ ha
  simp at ha

/-- The listing may grow. -/
theorem Seen.grow (h : Seen size l₀ k l items) (h₀ : l₀ ⊆ l) (hsub : l.Sublist l')
    (hnodup : l'.Nodup) : Seen size l₀ k l' items :=
  fun a ha htake => h a ha (mem_take_of_sublist hsub hnodup (h₀ ha) htake)

/-- One more page is read. -/
theorem Seen.page (h : Seen size l₀ k l items) :
    Seen size l₀ (k + 1) l (items ++ page size l k) := by
  intro a ha htake
  rw [← take_page, List.mem_append] at htake
  exact List.mem_append.mpr (htake.imp_left (h a ha))

/-- **A reader that came to a page that is not full has missed nothing.** -/
theorem Seen.done (h : Seen size l₀ (k + 1) l items) (h₀ : l₀ ⊆ l)
    (hshort : (Pages.page size l k).length < size) : l₀ ⊆ items := by
  intro a ha
  refine h a ha ?_
  rw [take_of_short hshort]
  exact h₀ ha

end Durable.Pages
