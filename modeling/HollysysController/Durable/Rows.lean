import HollysysController.Durable.Table
import Mathlib.Data.List.Infix
import Mathlib.Data.List.Nodup

/-! # Tables in the order of their rows

A table that is read in the order in which its rows were inserted. A column is unique when no
two rows hold one value in it; what was recorded in a column that may be empty is not recorded
again. -/

namespace Durable

/-- `UNIQUE (key)`. -/
def Unique {ρ κ : Type} (key : ρ → κ) (rows : List ρ) : Prop := (rows.map key).Nodup

namespace Unique

variable {ρ κ : Type} {key : ρ → κ} {rows : List ρ}

theorem nil : Unique key [] := List.nodup_nil

/-- `INSERT`: the value is a new one. -/
theorem insert (h : Unique key rows) {r : ρ} (hr : ∀ a ∈ rows, key a ≠ key r) :
    Unique key (rows ++ [r]) := by
  rw [Unique, List.map_append, List.map_singleton]
  refine List.nodup_append.mpr ⟨h, List.nodup_singleton _, fun k hk k' hk' => ?_⟩
  obtain ⟨a, ha, rfl⟩ := List.mem_map.mp hk
  rw [List.mem_singleton.mp hk']
  exact hr a ha

/-- `UPDATE` of other columns. -/
theorem update (h : Unique key rows) {f : ρ → ρ} (hf : ∀ a ∈ rows, key (f a) = key a) :
    Unique key (rows.map f) := by
  have hsame : rows.map (key ∘ f) = rows.map key := List.map_congr_left hf
  rw [Unique, List.map_map, hsame]
  exact h

/-- `DELETE`. -/
theorem filter (h : Unique key rows) (p : ρ → Bool) : Unique key (rows.filter p) :=
  List.Nodup.sublist (List.filter_sublist.map key) h

theorem eq_of_key (h : Unique key rows) {a b : ρ} (ha : a ∈ rows) (hb : b ∈ rows)
    (hab : key a = key b) : a = b :=
  List.inj_on_of_nodup_map h ha hb hab

/-- `UPDATE` of the row under one key, to a value of the column that no other row holds. -/
theorem overwrite {ι : Type} {id : ρ → ι} (h : Unique key rows) (hid : Unique id rows) {i : ι}
    {f : ρ → ρ} (hothers : ∀ a ∈ rows, id a ≠ i → key (f a) = key a)
    (hnew : ∀ a ∈ rows, ∀ b ∈ rows, id a = i → key b = key (f a) → id b = i) :
    Unique key (rows.map f) := by
  rw [Unique, List.map_map]
  refine List.Nodup.map_on (fun a ha b hb hab => ?_) hid.of_map
  simp only [Function.comp] at hab
  by_cases hia : id a = i <;> by_cases hib : id b = i
  · exact hid.eq_of_key ha hb (hia.trans hib.symm)
  · rw [hothers b hb hib] at hab
    exact absurd (hnew a ha b hb hia hab.symm) hib
  · rw [hothers a ha hia] at hab
    exact absurd (hnew b hb a ha hib hab) hia
  · rw [hothers a ha hia, hothers b hb hib] at hab
    exact h.eq_of_key ha hb hab

end Unique

/-- What stands in the column stays there. -/
def Stays {α : Type} (old new : Option α) : Prop := ∀ a, old = some a → new = some a

namespace Stays

variable {α : Type} {x y z : Option α}

theorem refl (x : Option α) : Stays x x := fun _ h => h

theorem trans (h : Stays x y) (h' : Stays y z) : Stays x z := fun a ha => h' a (h a ha)

/-- `COALESCE(column, value)`. -/
theorem orElse (x y : Option α) : Stays x (x <|> y) := by
  rintro a rfl
  rfl

end Stays

/-- Each row of the first table has one in the second to which it is related. -/
def Carried {ρ : Type} (R : ρ → ρ → Prop) (rows rows' : List ρ) : Prop :=
  ∀ r ∈ rows, ∃ r' ∈ rows', R r r'

namespace Carried

variable {ρ : Type} {R : ρ → ρ → Prop} {rows rows' rows'' : List ρ}

theorem refl (hR : ∀ r, R r r) (rows : List ρ) : Carried R rows rows := fun r hr => ⟨r, hr, hR r⟩

theorem trans (hR : ∀ a b c, R a b → R b c → R a c) (h : Carried R rows rows')
    (h' : Carried R rows' rows'') : Carried R rows rows'' := by
  intro r hr
  obtain ⟨r', hr', hrr'⟩ := h r hr
  obtain ⟨r'', hr'', hrr''⟩ := h' r' hr'
  exact ⟨r'', hr'', hR _ _ _ hrr' hrr''⟩

theorem insert (hR : ∀ r, R r r) (rows : List ρ) (r : ρ) : Carried R rows (rows ++ [r]) :=
  fun a ha => ⟨a, List.mem_append_left _ ha, hR a⟩

theorem update {f : ρ → ρ} (hf : ∀ r ∈ rows, R r (f r)) : Carried R rows (rows.map f) :=
  fun r hr => ⟨f r, List.mem_map_of_mem hr, hf r hr⟩

end Carried

/-- Each row of the first table has one in the second, under its key, to which it is related. -/
def Table.Carried {κ ρ : Type} (R : ρ → ρ → Prop) (t t' : Table κ ρ) : Prop :=
  ∀ k r, t k = some r → ∃ r', t' k = some r' ∧ R r r'

namespace Table.Carried

variable {κ ρ : Type} {R : ρ → ρ → Prop} {t t' t'' : Table κ ρ}

theorem refl (hR : ∀ r, R r r) (t : Table κ ρ) : Carried R t t := fun _ r hr => ⟨r, hr, hR r⟩

theorem trans (hR : ∀ a b c, R a b → R b c → R a c) (h : Carried R t t') (h' : Carried R t' t'') :
    Carried R t t'' := by
  intro k r hr
  obtain ⟨r', hr', hrr'⟩ := h k r hr
  obtain ⟨r'', hr'', hrr''⟩ := h' k r' hr'
  exact ⟨r'', hr'', hR _ _ _ hrr' hrr''⟩

variable [DecidableEq κ]

theorem put (hR : ∀ r, R r r) {k : κ} {r : ρ} (h : ∀ a, t k = some a → R a r) :
    Carried R t (t.put k r) := by
  intro k' a ha
  by_cases hk : k' = k
  · subst hk
    exact ⟨r, put_self t k' r, h a ha⟩
  · exact ⟨a, by rw [put_ne t r hk, ha], hR a⟩

theorem modify (hR : ∀ r, R r r) (k : κ) {f : ρ → ρ} (hf : ∀ a, R a (f a)) :
    Carried R t (t.modify k f) := by
  intro k' a ha
  by_cases hk : k' = k
  · subst hk
    exact ⟨f a, by rw [modify_self, ha, Option.map_some], hf a⟩
  · exact ⟨a, by rw [modify_ne t f hk, ha], hR a⟩

end Table.Carried

end Durable
