import Mathlib.Data.List.Basic

/-! # Scripts that stop

A script goes on or stops with an error. A check of items stops at one that it refuses, and else
records what it saw of all of them; checks in a row, and in a loop, are checks. -/

namespace Shell

variable {ε α β σ ι : Type}

/-! ## Stopping -/

/-- The script ends with an error. -/
def Stops (r : Except ε α) : Prop := ∃ e, r = .error e

theorem stops_error {e : ε} : Stops (.error e : Except ε α) := ⟨e, rfl⟩

theorem not_stops_ok {a : α} : ¬ Stops (.ok a : Except ε α) := by
  rintro ⟨e, he⟩
  cases he

theorem ok_bind (a : α) (f : α → Except ε β) : ((.ok a : Except ε α) >>= f) = f a := rfl

theorem of_bind_ok {r : Except ε α} {k : α → Except ε β} {b : β} (h : (r >>= k) = .ok b) :
    ∃ a, r = .ok a ∧ k a = .ok b := by
  cases r with
  | error e => cases h
  | ok a => exact ⟨a, rfl, h⟩

theorem bind_pure_map (r : Except ε α) (b : β) :
    (r >>= fun a => pure (a, b)) = r.map fun a => (a, b) := by
  cases r <;> rfl

section Guard

variable {fails : Bool} {r : Except ε Unit} {k : Unit → Except ε α}

/-- A guard that stops. -/
theorem stops_guard (hr : Stops r) : Stops (if fails then r else pure ()) ↔ fails = true := by
  cases fails with
  | true => exact ⟨fun _ => rfl, fun _ => hr⟩
  | false => exact ⟨fun h => absurd h not_stops_ok, fun h => absurd h Bool.false_ne_true⟩

theorem stops_guard_bind (hr : Stops r) :
    Stops ((if fails then r else pure ()) >>= k) ↔ fails = true ∨ Stops (k ()) := by
  cases fails with
  | true =>
    obtain ⟨e, rfl⟩ := hr
    exact ⟨fun _ => .inl rfl, fun _ => stops_error⟩
  | false => exact ⟨.inr, fun h => h.resolve_left Bool.false_ne_true⟩

end Guard

/-! ## Loops -/

/-- A fold that stops at a bad element ends well when it meets none. -/
theorem foldlM_guarded {f : σ → ι → Except ε σ} {bad : σ → ι → Bool} {next : σ → ι → σ} {e : ε}
    (hf : ∀ s i, f s i = if bad s i then .error e else .ok (next s i)) (l : List ι) (s : σ) :
    (l.foldlM f s = .ok (l.foldl next s) ∧
        ∀ before i after, l = before ++ i :: after → bad (before.foldl next s) i = false) ∨
      l.foldlM f s = .error e ∧
        ∃ before i after, l = before ++ i :: after ∧ bad (before.foldl next s) i = true := by
  induction l generalizing s with
  | nil => exact .inl ⟨rfl, fun before i after h => by cases before <;> cases h⟩
  | cons x l ih =>
    rw [List.foldlM_cons, hf]
    cases hbad : bad s x with
    | true => exact .inr ⟨rfl, [], x, l, rfl, hbad⟩
    | false =>
      rcases ih (next s x) with ⟨hok, hgood⟩ | ⟨herror, before, i, after, rfl, hi⟩
      · refine .inl ⟨hok, fun before i after h => ?_⟩
        cases before with
        | nil =>
          obtain ⟨rfl, rfl⟩ := List.cons.inj h
          exact hbad
        | cons y before =>
          obtain ⟨rfl, hl⟩ := List.cons.inj h
          exact hgood before i after hl
      · exact .inr ⟨herror, x :: before, i, after, rfl, hi⟩

/-- A flag beside a fold. -/
theorem foldlM_flagged {f : σ → ι → Except ε σ} {c : ι → Bool}
    {g : σ × Bool → ι → Except ε (σ × Bool)}
    (hg : ∀ s i, g s i = (f s.1 i).map fun s' => (s', s.2 || c i)) (l : List ι) (s : σ × Bool) :
    l.foldlM g s = (l.foldlM f s.1).map fun s' => (s', s.2 || l.any c) := by
  induction l generalizing s with
  | nil =>
    obtain ⟨s, b⟩ := s
    simp [pure, Except.pure, Except.map]
  | cons i l ih =>
    rw [List.foldlM_cons, List.foldlM_cons, hg]
    cases h : f s.1 i with
    | error e => rfl
    | ok s' =>
      have htail := ih (s', s.2 || c i)
      simp only [Bool.or_assoc] at htail
      exact htail

/-- A loop of guards. -/
theorem stops_guards {bad : ι → Prop} {f : ι → Except ε Unit}
    (hbad : ∀ i, bad i → Stops (f i)) (hgood : ∀ i, ¬ bad i → f i = .ok ()) {l : List ι}
    {k : PUnit → Except ε α} :
    Stops (l.forM f >>= k) ↔ (∃ i ∈ l, bad i) ∨ Stops (k ⟨⟩) := by
  induction l with
  | nil => exact ⟨.inr, fun h => h.resolve_left fun ⟨i, hi, _⟩ => by cases hi⟩
  | cons x l ih =>
    have hcons : ((x :: l).forM f >>= k) = (f x >>= fun _ => l.forM f >>= k) := bind_assoc _ _ _
    rw [hcons]
    by_cases hx : bad x
    · obtain ⟨e, he⟩ := hbad x hx
      rw [he]
      exact ⟨fun _ => .inl ⟨x, List.mem_cons_self, hx⟩, fun _ => stops_error⟩
    · rw [hgood x hx, ok_bind, ih]
      refine or_congr_left ⟨fun ⟨i, hi, h⟩ => ⟨i, List.mem_cons_of_mem x hi, h⟩, ?_⟩
      rintro ⟨i, hi, h⟩
      rcases List.mem_cons.mp hi with rfl | hi
      · exact absurd h hx
      · exact ⟨i, hi, h⟩

/-! ## Checks -/

/-- One of the items is refused. -/
def Refused (ok : ι → Prop) (items : List ι) : Prop := ∃ i ∈ items, ¬ ok i

theorem refused_append {ok : ι → Prop} {is js : List ι} :
    Refused ok (is ++ js) ↔ Refused ok is ∨ Refused ok js := by
  simp only [Refused, List.mem_append, or_and_right, exists_or]

/-- What checks of items record, checks in a row record of all their items. -/
structure Records (R : List ι → σ → σ → Prop) : Prop where
  nil : ∀ s, R [] s s
  append : ∀ {is js s s' s''}, R is s s' → R js s' s'' → R (is ++ js) s s''

/-- A check of the items from the state. -/
inductive Checks (ok : ι → Prop) (R : List ι → σ → σ → Prop) (items : List ι) (s : σ) :
    Except ε σ → Prop where
  | accepted {s' : σ} (haccepted : ∀ i ∈ items, ok i) (hrecorded : R items s s') :
    Checks ok R items s (.ok s')
  | refused {e : ε} (hrefused : Refused ok items) : Checks ok R items s (.error e)

namespace Checks

variable {ok : ι → Prop} {R : List ι → σ → σ → Prop} {is js : List ι} {s : σ}

theorem nil (hR : Records R) : Checks ok R [] s (.ok s : Except ε σ) :=
  .accepted (fun i hi => by cases hi) (hR.nil s)

theorem bind (hR : Records R) {r : Except ε σ} {f : σ → Except ε σ} (hr : Checks ok R is s r)
    (hf : ∀ s', Checks ok R js s' (f s')) : Checks ok R (is ++ js) s (r >>= f) := by
  cases hr with
  | refused hrefused => exact .refused (refused_append.mpr (.inl hrefused))
  | @accepted s' his hrecorded =>
    have hf := hf s'
    rw [ok_bind]
    cases hr' : f s' with
    | error e =>
      rw [hr'] at hf
      cases hf with
      | refused hrefused => exact .refused (refused_append.mpr (.inr hrefused))
    | ok s'' =>
      rw [hr'] at hf
      cases hf with
      | accepted hjs hrecorded' =>
        exact .accepted (fun i hi => (List.mem_append.mp hi).elim (his i) (hjs i))
          (hR.append hrecorded hrecorded')

/-- A loop, each step of which is a check. -/
theorem foldlM (hR : Records R) {items : α → List ι} {f : σ → α → Except ε σ} {l : List α}
    (hf : ∀ s, ∀ a ∈ l, Checks ok R (items a) s (f s a)) (s : σ) :
    Checks ok R (l.flatMap items) s (l.foldlM f s) := by
  induction l generalizing s with
  | nil => exact .nil hR
  | cons a l ih =>
    rw [List.foldlM_cons, List.flatMap_cons]
    exact (hf s a List.mem_cons_self).bind hR
      (ih fun s x hx => hf s x (List.mem_cons_of_mem a hx))

/-- A loop over the items. -/
theorem each (hR : Records R) {f : σ → ι → Except ε σ}
    (hf : ∀ s, ∀ i ∈ is, Checks ok R [i] s (f s i)) (s : σ) :
    Checks ok R is s (is.foldlM f s) := by
  have h := Checks.foldlM hR hf s
  rwa [List.flatMap_singleton'] at h

/-- A script that begins with a check. -/
theorem stops_bind {r : Except ε σ} {k : σ → Except ε α} {K : Prop} (h : Checks ok R is s r)
    (hk : ∀ s', R is s s' → (Stops (k s') ↔ K)) : Stops (r >>= k) ↔ Refused ok is ∨ K := by
  cases h with
  | refused hrefused => exact ⟨fun _ => .inl hrefused, fun _ => stops_error⟩
  | @accepted s' haccepted hrecorded =>
    rw [ok_bind, hk s' hrecorded]
    refine ⟨.inr, fun hor => hor.resolve_left ?_⟩
    rintro ⟨i, hi, hrefused⟩
    exact hrefused (haccepted i hi)

theorem stops_map_bind {r : Except ε σ} {b : β} {k : σ × β → Except ε α} {K : Prop}
    (h : Checks ok R is s r) (hk : ∀ s', R is s s' → (Stops (k (s', b)) ↔ K)) :
    Stops ((r.map fun s => (s, b)) >>= k) ↔ Refused ok is ∨ K := by
  have hbind : ((r.map fun s => (s, b)) >>= k) = r >>= fun s => k (s, b) := by
    cases r <;> rfl
  rw [hbind]
  exact h.stops_bind hk

end Checks

end Shell
