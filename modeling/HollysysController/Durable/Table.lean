import Mathlib.Logic.Function.Basic

/-! # Keyed tables

A table that is read and written by its primary key only. -/

namespace Durable

/-- The rows of a table by primary key. -/
abbrev Table (κ ρ : Type) := κ → Option ρ

namespace Table

variable {κ ρ : Type}

def empty : Table κ ρ := fun _ => none

@[simp] theorem empty_apply (k : κ) : (empty : Table κ ρ) k = none := rfl

variable [DecidableEq κ]

/-- `INSERT .. ON CONFLICT DO UPDATE`: the row under `k` is `r` afterwards. -/
def put (t : Table κ ρ) (k : κ) (r : ρ) : Table κ ρ := Function.update t k (some r)

/-- `UPDATE .. WHERE key = k`: nothing happens when there is no such row. -/
def modify (t : Table κ ρ) (k : κ) (f : ρ → ρ) : Table κ ρ :=
  Function.update t k ((t k).map f)

@[simp] theorem put_self (t : Table κ ρ) (k : κ) (r : ρ) : t.put k r k = some r := by
  simp [put]

@[simp] theorem put_ne (t : Table κ ρ) {k k' : κ} (r : ρ) (h : k' ≠ k) :
    t.put k r k' = t k' := by
  simp [put, h]

/-- Writing a row again changes nothing. -/
theorem put_same {t : Table κ ρ} {k : κ} {r : ρ} (h : t k = some r) : t.put k r = t := by
  rw [put, ← h, Function.update_eq_self]

theorem put_apply (t : Table κ ρ) (k k' : κ) (r : ρ) :
    t.put k r k' = if k' = k then some r else t k' := by
  simp [put, Function.update_apply]

@[simp] theorem modify_self (t : Table κ ρ) (k : κ) (f : ρ → ρ) :
    t.modify k f k = (t k).map f := by
  simp [modify]

@[simp] theorem modify_ne (t : Table κ ρ) {k k' : κ} (f : ρ → ρ) (h : k' ≠ k) :
    t.modify k f k' = t k' := by
  simp [modify, h]

theorem modify_apply (t : Table κ ρ) (k k' : κ) (f : ρ → ρ) :
    t.modify k f k' = if k' = k then (t k).map f else t k' := by
  simp [modify, Function.update_apply]

/-- A row that survives every single write under its key survives `modify`. -/
theorem modify_isSome (t : Table κ ρ) (k k' : κ) (f : ρ → ρ) :
    (t.modify k f k').isSome = (t k').isSome := by
  rw [modify_apply]
  split
  · subst k'
    simp
  · rfl

/-- The rows written one after the other. -/
def putAll (t : Table κ ρ) (rows : List (κ × ρ)) : Table κ ρ :=
  rows.foldl (fun t row => t.put row.1 row.2) t

theorem putAll_other {rows : List (κ × ρ)} {k : κ} (h : k ∉ rows.map (·.1)) (t : Table κ ρ) :
    t.putAll rows k = t k := by
  induction rows generalizing t with
  | nil => rfl
  | cons row rows ih =>
    rw [List.map_cons, List.mem_cons, not_or] at h
    exact (ih h.2 _).trans (put_ne t row.2 h.1)

/-- The rows hide what was written under their keys before. -/
theorem putAll_congr {rows : List (κ × ρ)} {t t' : Table κ ρ}
    (h : ∀ k, k ∉ rows.map (·.1) → t k = t' k) : t.putAll rows = t'.putAll rows := by
  induction rows generalizing t t' with
  | nil => exact funext fun k => h k (by simp)
  | cons row rows ih =>
    refine ih fun k hk => ?_
    show t.put row.1 row.2 k = t'.put row.1 row.2 k
    rw [put_apply, put_apply]
    split
    · rfl
    · next hne => exact h k (by simp [hne, hk])

/-- Writing the rows again changes nothing. -/
theorem putAll_again (t : Table κ ρ) (rows : List (κ × ρ)) :
    (t.putAll rows).putAll rows = t.putAll rows :=
  putAll_congr fun _ hk => putAll_other hk t

end Table

end Durable
