import HollysysController.Outages

/-! # The backoff of a dependency

How long a failure delays the next try: which failures are recorded at all, and
that the delay stays between a second and the configured maximum and grows with
the failures of its outage. -/

namespace HollysysController

open Python

/-- The delay is not above the configured maximum. -/
def WithinMaximum (delay : Nat) (maximum : Double) : Prop :=
  match maximum with
  | .fin b => (delay : Rat) ≤ b
  | .inf negative => negative = false
  | .nan => False

/-- What a failure owes its caller: it is recorded, the delay is at least one second and at most
the maximum, unless a larger `Retry-After` was given, and no shorter than after fewer failures. -/
def BackoffLaw (f : FailureCall) (now : Nat) (t : OutageTables) : Prop :=
  ∃ row t', recordFailure f now t = .ok (row, t') ∧ now + 1 ≤ row.nextRetryAt ∧
    (WithinMaximum (row.nextRetryAt - now) f.maximumBackoffSeconds.value ∨
      ∃ r, f.retryAfterSeconds = some r ∧ row.nextRetryAt - now ≤ r) ∧
    ∀ t₀ row₀ t₀', t₀.nextCount f.dependency ≤ t.nextCount f.dependency →
      recordFailure f now t₀ = .ok (row₀, t₀') → row₀.nextRetryAt ≤ row.nextRetryAt

/-- The maximum, or the initial backoff doubled for each failure before, leads to a time that
SQLite can store. -/
def FailureCall.InTime (f : FailureCall) (failures now : Nat) : Prop :=
  (∃ b, f.maximumBackoffSeconds.value = .fin b ∧ (now : Rat) + b < 2 ^ 63) ∨
  ∃ a, f.initialBackoffSeconds.value = .fin a ∧ f.maximumBackoffSeconds.value ≠ .nan ∧
    (now : Rat) + a * 2 ^ (failures - 1) < 2 ^ 63

structure FailureCall.Schedulable (f : FailureCall) (failures now : Nat) : Prop where
  count : failures ≤ 1024
  second : WithinMaximum 1 f.maximumBackoffSeconds.value ∨
    ∃ r, f.retryAfterSeconds = some r ∧ 1 ≤ r
  capped : f.InTime failures now
  retryAfter : ∀ r, f.retryAfterSeconds = some r → now + r < 2 ^ 63
  next : now + 1 < 2 ^ 63

/-! ## The delay as a number -/

/-- The maximum, or the doubled initial backoff below it. -/
def FailureCall.capped (f : FailureCall) (failures : Nat) : Double :=
  Double.minOf f.maximumBackoffSeconds.value (f.initialBackoffSeconds.value.scale (failures - 1))

/-- The seconds of a finite delay. -/
def FailureCall.seconds (f : FailureCall) (q : Rat) : Int :=
  match f.retryAfterSeconds with
  | some r => if q < r then r else ⌊q⌋
  | none => ⌊q⌋

section Delay

variable {f : FailureCall} {failures now next : Nat} {q : Rat}

theorem seconds_mono {q q' : Rat} (h : q ≤ q') : f.seconds q ≤ f.seconds q' := by
  have hfloor : ⌊q⌋ ≤ ⌊q'⌋ := Int.floor_le_floor h
  unfold FailureCall.seconds
  split
  · rename_i r _
    by_cases hq : q < r
    · rw [if_pos hq]
      by_cases hq' : q' < r
      · rw [if_pos hq']
      · rw [if_neg hq']
        exact Int.le_floor.mpr (by exact_mod_cast not_lt.mp hq')
    · rw [if_neg hq, if_neg (not_lt.mpr ((not_lt.mp hq).trans h))]
      exact hfloor
  · exact hfloor

theorem retrySeconds_fin (hq : 0 ≤ q) : retrySeconds (.fin q) f.retryAfterSeconds =
    .ok (f.seconds q) := by
  have hint : Double.toInt (.fin q) = .ok ⌊q⌋ := by simp [Double.toInt, hq]
  unfold retrySeconds FailureCall.seconds
  cases f.retryAfterSeconds with
  | none => exact hint
  | some r =>
    by_cases hlt : q < r
    · simp [Double.lt, hlt]
    · simp [Double.lt, hlt, hint]

/-- A delay that is infinite or no number is no integer. -/
theorem retrySeconds_not_fin {x : Double} (hx : ∀ q, x ≠ .fin q) (hpos : x.Positive)
    (retryAfter : Option Nat) : ∃ e, retrySeconds x retryAfter = .error e := by
  cases x with
  | fin q => exact absurd rfl (hx q)
  | nan => cases retryAfter <;> exact ⟨_, rfl⟩
  | inf negative =>
    cases hpos
    cases retryAfter <;> exact ⟨_, rfl⟩

theorem minOf_positive {a b : Double} (ha : a.Positive) (hb : b.Positive) :
    (Double.minOf a b).Positive := by
  unfold Double.minOf
  split
  · exact hb
  · exact ha

theorem scale_positive {x : Double} (h : x.Positive) (k : Nat) : (x.scale k).Positive := by
  cases x with
  | nan => exact h
  | inf negative => exact h
  | fin q =>
    have hq : 0 < q * 2 ^ k := mul_pos h (by positivity)
    rw [Double.scale]
    by_cases hlarge : 2 ^ 1024 ≤ |q * 2 ^ k|
    · rw [if_pos hlarge]
      exact decide_eq_false (not_lt.mpr hq.le)
    · rw [if_neg hlarge]
      exact hq

theorem capped_positive (f : FailureCall) (failures : Nat) : (f.capped failures).Positive :=
  minOf_positive f.maximumBackoffSeconds.positive
    (scale_positive f.initialBackoffSeconds.positive _)

/-- When a failure has a retry time, and which. -/
theorem nextRetry_ok_iff (hone : 1 ≤ failures) : f.nextRetry failures now = .ok next ↔
    failures ≤ 1024 ∧ ∃ q, f.capped failures = .fin q ∧
      next = now + (max 1 (f.seconds q)).toNat ∧ next < 2 ^ 63 := by
  have hpower := Double.ofInt_pow_two (failures - 1)
  have hdelay : Double.minOf f.maximumBackoffSeconds.value
      (f.initialBackoffSeconds.value.mul (.fin (2 ^ (failures - 1)))) = f.capped failures := by
    rw [Double.mul_pow_two f.initialBackoffSeconds.isDouble]
    rfl
  have hpos := capped_positive f failures
  unfold FailureCall.nextRetry
  by_cases hcount : failures ≤ 1024
  · rw [if_pos (by omega)] at hpower
    simp only [hpower, bind, Except.bind, hdelay, hcount, true_and]
    by_cases hfin : ∃ q, f.capped failures = .fin q
    · obtain ⟨q, hq⟩ := hfin
      rw [hq] at hpos
      simp only [hq, retrySeconds_fin (le_of_lt hpos)]
      by_cases hfits : now + (max 1 (f.seconds q)).toNat < 2 ^ 63
      · simp only [if_pos hfits, Except.ok.injEq, Double.fin.injEq]
        constructor
        · rintro rfl
          exact ⟨q, rfl, rfl, hfits⟩
        · rintro ⟨q', rfl, rfl, -⟩
          rfl
      · simp only [if_neg hfits, reduceCtorEq, false_iff]
        rintro ⟨q', hq', rfl, hlt⟩
        cases hq'
        exact hfits hlt
    · obtain ⟨e, he⟩ := retrySeconds_not_fin (fun q hq => hfin ⟨q, hq⟩) hpos f.retryAfterSeconds
      simp only [he, reduceCtorEq, false_iff]
      rintro ⟨q, hq, -⟩
      exact hfin ⟨q, hq⟩
  · rw [if_neg (by omega)] at hpower
    simp [hpower, bind, Except.bind, hcount]

theorem scale_fin {a : Rat} (hpos : 0 < a) (k : Nat) : (Double.fin a).scale k =
    if 2 ^ 1024 ≤ a * 2 ^ k then .inf false else .fin (a * 2 ^ k) := by
  have hprod : 0 < a * 2 ^ k := mul_pos hpos (by positivity)
  simp [Double.scale, abs_of_pos hprod, not_lt.mpr hprod.le]

/-- A capped delay is the maximum or the doubled initial backoff. -/
theorem capped_cases (f : FailureCall) (failures : Nat) :
    (∃ b, f.maximumBackoffSeconds.value = .fin b ∧ f.capped failures = .fin b ∧
      ∀ a, f.initialBackoffSeconds.value = .fin a → b ≤ a * 2 ^ (failures - 1)) ∨
    (∃ a, f.initialBackoffSeconds.value = .fin a ∧ f.maximumBackoffSeconds.value ≠ .nan ∧
      a * 2 ^ (failures - 1) < 2 ^ 1024 ∧ f.capped failures = .fin (a * 2 ^ (failures - 1)) ∧
      ∀ b, f.maximumBackoffSeconds.value = .fin b → a * 2 ^ (failures - 1) < b) ∨
    ((∀ q, f.capped failures ≠ .fin q) ∧ (∀ b, f.maximumBackoffSeconds.value ≠ .fin b) ∧
      (f.maximumBackoffSeconds.value = .nan ∨
        ∀ a, f.initialBackoffSeconds.value = .fin a → 2 ^ 1024 ≤ a * 2 ^ (failures - 1))) := by
  have hM := f.maximumBackoffSeconds.positive
  have hI := f.initialBackoffSeconds.positive
  have hMd := f.maximumBackoffSeconds.isDouble
  unfold FailureCall.capped
  generalize f.maximumBackoffSeconds.value = M at hM hMd
  generalize f.initialBackoffSeconds.value = I at hI
  cases M with
  | nan =>
    right; right
    refine ⟨fun q => ?_, fun b h => (by cases h), .inl rfl⟩
    cases I.scale (failures - 1) <;> simp [Double.minOf, Double.lt]
  | inf negative =>
    cases hM
    right
    cases I with
    | nan =>
      exact .inr ⟨fun q => by simp [Double.scale, Double.minOf, Double.lt],
        fun b h => (by cases h), .inr fun a h => (by cases h)⟩
    | inf negative =>
      cases hI
      exact .inr ⟨fun q => by simp [Double.scale, Double.minOf, Double.lt],
        fun b h => (by cases h), .inr fun a h => (by cases h)⟩
    | fin a =>
      rw [scale_fin hI]
      by_cases hlarge : 2 ^ 1024 ≤ a * 2 ^ (failures - 1)
      · rw [if_pos hlarge]
        exact .inr ⟨fun q => by simp [Double.minOf, Double.lt], fun b h => (by cases h),
          .inr fun a' h => (by cases h; exact hlarge)⟩
      · rw [if_neg hlarge]
        exact .inl ⟨a, rfl, by simp, not_le.mp hlarge, by simp [Double.minOf, Double.lt],
          fun b h => (by cases h)⟩
  | fin b =>
    have hb : b < 2 ^ 1024 := (le_abs_self b).trans_lt hMd.2
    cases I with
    | nan =>
      exact .inl ⟨b, rfl, by simp [Double.scale, Double.minOf, Double.lt], fun a h => (by cases h)⟩
    | inf negative =>
      cases hI
      exact .inl ⟨b, rfl, by simp [Double.scale, Double.minOf, Double.lt], fun a h => (by cases h)⟩
    | fin a =>
      rw [scale_fin hI]
      by_cases hlt : a * 2 ^ (failures - 1) < b
      · rw [if_neg (not_le.mpr (hlt.trans hb))]
        right; left
        refine ⟨a, rfl, by simp, hlt.trans hb, by simp [Double.minOf, Double.lt, hlt], ?_⟩
        rintro b' ⟨⟩
        exact hlt
      · left
        refine ⟨b, rfl, ?_, ?_⟩
        · by_cases hlarge : 2 ^ 1024 ≤ a * 2 ^ (failures - 1)
          · simp [hlarge, Double.minOf, Double.lt]
          · simp [hlarge, Double.minOf, Double.lt, hlt]
        · rintro a' ⟨⟩
          exact not_lt.mp hlt

/-- A capped delay is a number that SQLite can store when it is in time. -/
theorem capped_inTime_iff (f : FailureCall) (failures now : Nat) :
    (∃ q, f.capped failures = .fin q ∧ (now : Rat) + q < 2 ^ 63) ↔ f.InTime failures now := by
  rcases capped_cases f failures with ⟨b, hb, hcapped, hle⟩ | ⟨a, ha, hM, -, hcapped, hlt⟩ |
    ⟨hnot, hM, hI⟩
  · rw [hcapped]
    constructor
    · rintro ⟨q, ⟨⟩, hq⟩
      exact .inl ⟨b, hb, hq⟩
    · rintro (⟨b', hb', hq⟩ | ⟨a, ha, -, hq⟩)
      · rw [hb] at hb'
        cases hb'
        exact ⟨b, rfl, hq⟩
      · exact ⟨b, rfl, by linarith [hle a ha]⟩
  · rw [hcapped]
    constructor
    · rintro ⟨q, ⟨⟩, hq⟩
      exact .inr ⟨a, ha, hM, hq⟩
    · rintro (⟨b, hb, hq⟩ | ⟨a', ha', -, hq⟩)
      · exact ⟨_, rfl, by linarith [hlt b hb]⟩
      · rw [ha] at ha'
        cases ha'
        exact ⟨_, rfl, hq⟩
  · constructor
    · rintro ⟨q, hq, -⟩
      exact absurd hq (hnot q)
    · rintro (⟨b, hb, -⟩ | ⟨a, ha, hnan, hq⟩)
      · exact absurd hb (hM b)
      · rcases hI with hI | hI
        · exact absurd hI hnan
        · have hlarge := hI a ha
          have hnow : (0 : Rat) ≤ now := Nat.cast_nonneg now
          have hpow : (2 : Rat) ^ 63 ≤ 2 ^ 1024 := pow_le_pow_right₀ (by norm_num) (by norm_num)
          exact absurd (hpow.trans hlarge) (not_le.mpr ((le_add_of_nonneg_left hnow).trans_lt hq))

theorem capped_le_maximum (hq : f.capped failures = .fin q) {b : Rat}
    (hb : f.maximumBackoffSeconds.value = .fin b) : q ≤ b := by
  rcases capped_cases f failures with ⟨b', hb', hcapped, -⟩ | ⟨a, -, -, -, hcapped, hlt⟩ |
    ⟨hnot, -, -⟩
  · rw [hb] at hb'
    cases hb'
    rw [hq] at hcapped
    cases hcapped
    exact le_refl _
  · rw [hq] at hcapped
    cases hcapped
    exact (hlt b hb).le
  · exact absurd hq (hnot q)

theorem capped_number (hq : f.capped failures = .fin q) :
    f.maximumBackoffSeconds.value ≠ .nan := by
  rcases capped_cases f failures with ⟨b, hb, -⟩ | ⟨a, -, hM, -⟩ | ⟨hnot, -⟩
  · rw [hb]
    simp
  · exact hM
  · exact absurd hq (hnot q)

/-- More failures, no shorter delay. -/
theorem capped_mono {failures' : Nat} {q' : Rat} (hle : failures ≤ failures')
    (hq : f.capped failures = .fin q) (hq' : f.capped failures' = .fin q') : q ≤ q' := by
  rcases capped_cases f failures' with ⟨b, hb, hcapped, -⟩ | ⟨a, ha, -, -, hcapped, -⟩ |
    ⟨hnot, -, -⟩
  · rw [hq'] at hcapped
    cases hcapped
    exact capped_le_maximum hq hb
  · rw [hq'] at hcapped
    cases hcapped
    have hpos : 0 < a := by
      have hI := f.initialBackoffSeconds.positive
      rw [ha] at hI
      exact hI
    have hpow : (2 : Rat) ^ (failures - 1) ≤ 2 ^ (failures' - 1) :=
      pow_le_pow_right₀ (by norm_num) (by omega)
    have hgrow : a * 2 ^ (failures - 1) ≤ a * 2 ^ (failures' - 1) :=
      mul_le_mul_of_nonneg_left hpow hpos.le
    rcases capped_cases f failures with ⟨b, -, hcapped, hle'⟩ | ⟨a', ha', -, -, hcapped, -⟩ |
      ⟨hnot, -, -⟩
    · rw [hq] at hcapped
      cases hcapped
      exact (hle' a ha).trans hgrow
    · rw [ha] at ha'
      cases ha'
      rw [hq] at hcapped
      cases hcapped
      exact hgrow
    · exact absurd hq (hnot q)
  · exact absurd hq' (hnot q')

end Delay

/-! ## The law -/

section Law

variable {f : FailureCall} {now : Nat} {t : OutageTables}

theorem one_le_nextCount (t : OutageTables) (d : String) : 1 ≤ t.nextCount d :=
  Nat.le_add_left 1 _

theorem recordFailure_next {row : OutageRow} {t' : OutageTables}
    (h : recordFailure f now t = .ok (row, t')) :
    t.nextCount f.dependency ≤ 1024 ∧ ∃ q, f.capped (t.nextCount f.dependency) = .fin q ∧
      row.nextRetryAt = now + (max 1 (f.seconds q)).toNat ∧ row.nextRetryAt < 2 ^ 63 := by
  obtain ⟨next, hnext, hrow, -⟩ := recordFailure_ok h
  have hretry : row.nextRetryAt = next := by rw [hrow, outageRow_nextRetryAt]
  rw [hretry]
  exact (nextRetry_ok_iff (one_le_nextCount _ _)).mp hnext

theorem law_of_schedulable (h : f.Schedulable (t.nextCount f.dependency) now) :
    BackoffLaw f now t := by
  obtain ⟨q, hq, hnow⟩ := (capped_inTime_iff _ _ _).mpr h.capped
  have hqpos : 0 < q := by
    have hpos := capped_positive f (t.nextCount f.dependency)
    rw [hq] at hpos
    exact hpos
  have hfloor : 0 ≤ ⌊q⌋ := Int.floor_nonneg.mpr hqpos.le
  have hfloor_fits : (now : Int) + ⌊q⌋ < 2 ^ 63 := by
    have hle := Int.floor_le q
    have hcast : (((now : Int) + ⌊q⌋ : Int) : Rat) < ((2 ^ 63 : Int) : Rat) := by
      push_cast
      linarith
    exact_mod_cast hcast
  have hseconds : (∃ r, f.retryAfterSeconds = some r ∧ q < r ∧ f.seconds q = r) ∨
      f.seconds q = ⌊q⌋ := by
    unfold FailureCall.seconds
    cases hr : f.retryAfterSeconds with
    | none => exact .inr rfl
    | some r =>
      by_cases hlt : q < r
      · exact .inl ⟨r, rfl, hlt, if_pos hlt⟩
      · exact .inr (if_neg hlt)
  have hfits : now + (max 1 (f.seconds q)).toNat < 2 ^ 63 := by
    have hone := h.next
    rcases hseconds with ⟨r, hr, -, heq⟩ | heq
    · have hretry := h.retryAfter r hr
      rw [heq]
      omega
    · rw [heq]
      omega
  have hok : (f.nextRetry (t.nextCount f.dependency) now).isOk = true := by
    rw [(nextRetry_ok_iff (one_le_nextCount _ _)).mpr ⟨h.count, q, hq, rfl, hfits⟩]
    rfl
  obtain ⟨row, t', hrow⟩ := recordFailure_isOk hok
  obtain ⟨-, q', hq', hnext, -⟩ := recordFailure_next hrow
  rw [hq] at hq'
  cases hq'
  have hdelay : row.nextRetryAt - now = (max 1 (f.seconds q)).toNat := by omega
  refine ⟨row, t', hrow, by omega, ?_, ?_⟩
  · rw [hdelay]
    rcases hseconds with ⟨r, hr, hlt, heq⟩ | heq
    · -- The server asked for a longer wait.
      right
      have hrpos : 0 < r := by
        have : (0 : Rat) < r := hqpos.trans hlt
        exact_mod_cast this
      exact ⟨r, hr, by rw [heq]; omega⟩
    · by_cases hsub : ⌊q⌋ < 1
      · have hone : (max 1 (f.seconds q)).toNat = 1 := by rw [heq]; omega
        rw [hone]
        exact h.second
      · left
        have hnat : ((max 1 (f.seconds q)).toNat : Rat) ≤ q := by
          have hint : ((max 1 (f.seconds q)).toNat : Int) = ⌊q⌋ := by rw [heq]; omega
          have hle := Int.floor_le q
          rw [← hint] at hle
          exact_mod_cast hle
        cases hM : f.maximumBackoffSeconds.value with
        | nan => exact absurd hM (capped_number hq)
        | inf negative =>
          have hpos := f.maximumBackoffSeconds.positive
          rw [hM] at hpos
          exact hpos
        | fin b => exact hnat.trans (capped_le_maximum hq hM)
  · intro t₀ row₀ t₀' hle hrow₀
    obtain ⟨-, q₀, hq₀, hnext₀, -⟩ := recordFailure_next hrow₀
    have hmono := seconds_mono (f := f) (capped_mono hle hq₀ hq)
    omega

theorem schedulable_of_law (h : BackoffLaw f now t) :
    f.Schedulable (t.nextCount f.dependency) now := by
  obtain ⟨row, t', hrow, -, hbound, -⟩ := h
  obtain ⟨hcount, q, hq, hnext, hfits⟩ := recordFailure_next hrow
  have hqpos : 0 < q := by
    have hpos := capped_positive f (t.nextCount f.dependency)
    rw [hq] at hpos
    exact hpos
  have hdelay : row.nextRetryAt - now = (max 1 (f.seconds q)).toNat := by omega
  rw [hdelay] at hbound
  have hretry : ∀ r, f.retryAfterSeconds = some r → ((now : Int) + r ≤ row.nextRetryAt) ∨
      (r : Rat) ≤ q := by
    intro r hr
    by_cases hlt : q < r
    · left
      have heq : f.seconds q = r := by rw [FailureCall.seconds, hr]; exact if_pos hlt
      rw [heq] at hnext
      omega
    · exact .inr (not_lt.mp hlt)
  have hcapped : (now : Rat) + q < 2 ^ 63 := by
    have hq_le : q < f.seconds q + 1 := by
      unfold FailureCall.seconds
      have hfloor := Int.lt_floor_add_one q
      split
      · split
        · rename_i hlt
          push_cast
          linarith
        · exact hfloor
      · exact hfloor
    have hint : (now : Int) + f.seconds q + 1 ≤ 2 ^ 63 := by omega
    have hcast : (((now : Int) + f.seconds q + 1 : Int) : Rat) ≤ ((2 ^ 63 : Int) : Rat) := by
      exact_mod_cast hint
    push_cast at hcast
    linarith
  refine ⟨hcount, ?_, (capped_inTime_iff _ _ _).mp ⟨q, hq, hcapped⟩, ?_, by omega⟩
  · rcases hbound with hmax | ⟨r, hr, hle⟩
    · left
      cases hM : f.maximumBackoffSeconds.value with
      | nan => exact absurd hM (capped_number hq)
      | inf negative =>
        have hpos := f.maximumBackoffSeconds.positive
        rw [hM] at hpos
        exact hpos
      | fin b =>
        rw [hM] at hmax
        have hone : (1 : Rat) ≤ ((max 1 (f.seconds q)).toNat : Rat) := by
          have : 1 ≤ (max 1 (f.seconds q)).toNat := by omega
          exact_mod_cast this
        exact le_trans (by push_cast; exact hone) hmax
    · exact .inr ⟨r, hr, by omega⟩
  · intro r hr
    rcases hretry r hr with hle | hle
    · omega
    · have hcast : (((now + r : Nat) : Rat)) < ((2 ^ 63 : Nat) : Rat) := by
        push_cast
        linarith
      exact_mod_cast hcast

/-- **Exactly when the backoff is what it should be.** -/
theorem backoffLaw_iff (f : FailureCall) (now : Nat) (t : OutageTables) :
    BackoffLaw f now t ↔ f.Schedulable (t.nextCount f.dependency) now :=
  ⟨schedulable_of_law, law_of_schedulable⟩

end Law

/-- An outage of GitLab that has had `failures` failures. -/
def openOutageTables (failures : Nat) : OutageTables where
  rows := Durable.Table.empty.put "gitlab"
    { dependency := "gitlab", outageId := 0, isOpen := true, kind := .transient
      errorSummary := "503 unavailable", failures, peakFailures := failures, startedAt := 100
      lastFailureAt := 300000, lastSuccessAt := none, endpoint := none, circuitState := .opened
      nextRetryAt := 300300, recoveredAt := none }
  nextOutage := failures

/-- The failure after the 1024th of an outage is not recorded. -/
theorem longOutage_unrecorded : ¬ BackoffLaw gitlabFailure 300300 (openOutageTables 1024) := by
  rintro ⟨row, t', hrow, -⟩
  have hcount : (openOutageTables 1024).nextCount gitlabFailure.dependency = 1025 := rfl
  have hle := (recordFailure_next hrow).1
  rw [hcount] at hle
  omega

/-! ## The outages of the store -/

def OutageRow.outage (row : OutageRow) : Outage where
  dependency := row.dependency
  outageId := row.outageId
  isOpen := row.isOpen
  kind := row.kind
  failures := row.failures
  nextRetryAt := row.nextRetryAt

/-- The store has the outages of the tables. -/
structure OutagesOf (t : OutageTables) (s : Store) : Prop where
  named : ∀ d row, t.rows d = some row → row.dependency = d
  outages : ∀ o, o ∈ s.outages ↔ ∃ row, t.rows o.dependency = some row ∧ row.outage = o
  next : t.nextOutage = s.nextOutage

/-- The call has whole seconds, which the store counts in. -/
structure FailureCall.Whole (f : FailureCall) (g : DependencyFailure) : Prop where
  dependency : f.dependency = g.dependency
  kind : f.kind = g.kind
  initial : f.initialBackoffSeconds.value = .fin g.initialBackoffSeconds
  maximum : f.maximumBackoffSeconds.value = .fin g.maximumBackoffSeconds
  retryAfter : f.retryAfterSeconds = g.retryAfterSeconds

section Refinement

variable {t t' : OutageTables} {s : Store} {f : FailureCall} {g : DependencyFailure} {now : Nat}
  {row : OutageRow}

theorem OutagesOf.previous (h : OutagesOf t s) (d : String) :
    (s.outages.find? fun o => o.dependency == d && o.isOpen) = (t.openRow d).map (·.outage) := by
  cases hopen : t.openRow d with
  | none =>
    rw [Option.map_none, List.find?_eq_none]
    intro o ho hmatch
    simp only [Bool.and_eq_true, beq_iff_eq] at hmatch
    obtain ⟨row, hrow, hout⟩ := (h.outages o).mp ho
    rw [hmatch.1] at hrow
    have hisOpen : row.isOpen = true := by
      have := hmatch.2
      rw [← hout] at this
      exact this
    simp [OutageTables.openRow, hrow, hisOpen] at hopen
  | some row =>
    obtain ⟨hrow, hisOpen⟩ := openRow_some hopen
    have hname := h.named d row hrow
    have hmem : row.outage ∈ s.outages :=
      (h.outages _).mpr ⟨row, by rw [show row.outage.dependency = d from hname]; exact hrow, rfl⟩
    cases hfind : s.outages.find? fun o => o.dependency == d && o.isOpen with
    | none =>
      have hnot := List.find?_eq_none.mp hfind _ hmem
      simp [OutageRow.outage, hname, hisOpen] at hnot
    | some o =>
      have hmatch := List.find?_some hfind
      simp only [Bool.and_eq_true, beq_iff_eq] at hmatch
      obtain ⟨row', hrow', rfl⟩ := (h.outages o).mp (List.mem_of_find?_eq_some hfind)
      rw [hmatch.1, hrow] at hrow'
      cases hrow'
      rfl

/-- In whole seconds the delay is the store's. -/
theorem seconds_whole {failures : Nat} {q : Rat} (hf : f.Whole g)
    (hq : f.capped failures = .fin q) : f.seconds q = g.delay failures := by
  have hnat : q = ((min g.maximumBackoffSeconds
      (g.initialBackoffSeconds * 2 ^ (failures - 1)) : Nat) : Rat) := by
    push_cast
    rcases capped_cases f failures with ⟨b, hb, hcapped, hle⟩ | ⟨a, ha, -, -, hcapped, hlt⟩ |
      ⟨hnot, -, -⟩
    · rw [hq] at hcapped
      cases hcapped
      rw [hf.maximum] at hb
      cases hb
      exact (min_eq_left (hle _ hf.initial)).symm
    · rw [hq] at hcapped
      cases hcapped
      rw [hf.initial] at ha
      cases ha
      exact (min_eq_right (hlt _ hf.maximum).le).symm
    · exact absurd hq (hnot q)
  rw [FailureCall.seconds, hf.retryAfter, DependencyFailure.delay, hnat, Int.floor_natCast]
  cases g.retryAfterSeconds with
  | none => simp
  | some r =>
    simp only [Nat.cast_lt, Option.getD_some]
    split <;> omega

/-- **A recorded failure is the store's**, as long as it is recorded. -/
theorem recordFailure_refines (h : OutagesOf t s) (hf : f.Whole g)
    (hok : recordFailure f now t = .ok (row, t')) :
    ∃ s', recordDependencyFailure g now s = .ok (row.outage, s') ∧ OutagesOf t' s' := by
  obtain ⟨-, q, hq, hnext, -⟩ := recordFailure_next hok
  obtain ⟨next, -, hrow, rfl⟩ := recordFailure_ok hok
  have hprevious := h.previous g.dependency
  have hcount : t.nextCount f.dependency =
      (((s.outages.find? fun o => o.dependency == g.dependency && o.isOpen).map
        (·.failures + 1)).getD 1) := by
    rw [hprevious, OutageTables.nextCount, hf.dependency]
    cases t.openRow g.dependency <;> rfl
  have hid : row.outageId =
      (((s.outages.find? fun o => o.dependency == g.dependency && o.isOpen).map
        (·.outageId)).getD s.nextOutage) := by
    rw [hprevious, hrow, ← h.next]
    cases hopen : t.openRow g.dependency with
    | none =>
      rw [← hf.dependency] at hopen
      rw [(outageRow_opens hopen next).1]
      rfl
    | some old =>
      rw [← hf.dependency] at hopen
      rw [(outageRow_continues hopen next).1]
      rfl
  have hname : row.dependency = g.dependency := by rw [hrow, outageRow_dependency, hf.dependency]
  have hkind : row.kind = g.kind := by
    rw [hrow, ← hf.kind]
    unfold FailureCall.outageRow
    split <;> rfl
  have hretry : row.nextRetryAt = now + max 1 (g.delay (t.nextCount f.dependency)) := by
    rw [hnext, seconds_whole hf hq]
    omega
  have hout : row.outage =
      { dependency := g.dependency
        outageId := ((s.outages.find? fun o => o.dependency == g.dependency && o.isOpen).map
          (·.outageId)).getD s.nextOutage
        kind := g.kind
        failures := ((s.outages.find? fun o => o.dependency == g.dependency && o.isOpen).map
          (·.failures + 1)).getD 1
        nextRetryAt := now + max 1 (g.delay (((s.outages.find? fun o =>
          o.dependency == g.dependency && o.isOpen).map (·.failures + 1)).getD 1)) } := by
    have hisOpen : row.isOpen = true := by simp [hrow]
    have hfailures : row.failures = t.nextCount f.dependency := by simp [hrow]
    rw [← hcount, ← hid, ← hretry, ← hname, ← hkind, ← hfailures, OutageRow.outage, hisOpen]
  refine ⟨_, by rw [recordDependencyFailure, hout], ?_, fun o => ?_, ?_⟩
  · intro d r hr
    simp only [Durable.Table.put_apply] at hr
    split at hr
    · cases hr
      rename_i hd
      rw [hd, hname, hf.dependency]
    · exact h.named d r hr
  · rw [← hout]
    simp only [List.mem_append, List.mem_filter, bne_iff_ne, ne_eq, List.mem_singleton,
      Durable.Table.put_apply, hf.dependency, h.outages]
    by_cases hd : o.dependency = g.dependency
    · simp only [hd, not_true_eq_false, and_false, false_or, if_true, Option.some.injEq,
        exists_eq_left']
      exact eq_comm
    · have hne : o ≠ row.outage := fun heq => hd (by rw [heq]; exact hname)
      simp [hd, hne]
  · exact congrArg (· + 1) h.next

/-- **A recovery is the store's.** -/
theorem recoverOutage_refines (h : OutagesOf t s) (d : String) (now : Nat) :
    ∃ s' o, recoverDependency d s = .ok (o, s') ∧
      o = ((recoverOutage d now t).1).map (·.outage) ∧
      OutagesOf (recoverOutage d now t).2 s' := by
  have hopenOutage : s.openOutage d = (t.openRow d).map (·.outage) := by
    rw [← h.previous d, Store.openOutage]
    simp only [Bool.and_comm]
  cases hopen : t.openRow d with
  | none =>
    rw [hopen] at hopenOutage
    refine ⟨s, none, by simp [recoverDependency, hopenOutage], by simp [recoverOutage, hopen], ?_⟩
    have hsame : (recoverOutage d now t).2 = t := by simp [recoverOutage, hopen]
    rw [hsame]
    exact h
  | some row =>
    rw [hopen] at hopenOutage
    obtain ⟨hrow, -⟩ := openRow_some hopen
    have hname := h.named d row hrow
    refine ⟨_, _, by rw [recoverDependency, hopenOutage]; rfl, ?_, ?_, fun o => ?_, ?_⟩
    · simp [recoverOutage, hopen, OutageRow.outage]
    · intro d' r hr
      simp only [recoverOutage, hopen, Durable.Table.put_apply] at hr
      split at hr
      · cases hr
        rename_i hd
        rw [hd]
        exact hname
      · exact h.named d' r hr
    · simp only [recoverOutage, hopen, Durable.Table.put_apply, List.mem_map, h.outages]
      constructor
      · rintro ⟨o', ⟨r, hr, rfl⟩, rfl⟩
        by_cases hd : r.outage.dependency = d
        · rw [hd, hrow] at hr
          cases hr
          exact ⟨_, by rw [if_pos hd]; exact if_pos hd, by rw [if_pos hd]; rfl⟩
        · exact ⟨r, by rw [if_neg hd, if_neg hd]; exact hr, by rw [if_neg hd]⟩
      · rintro ⟨r, hr, rfl⟩
        by_cases hd : r.outage.dependency = d
        · rw [if_pos hd] at hr
          cases hr
          refine ⟨row.outage, ⟨row, ?_, rfl⟩, ?_⟩
          · rw [show row.outage.dependency = d from hname]
            exact hrow
          · rw [if_pos (show row.outage.dependency = d from hname)]
            rfl
        · rw [if_neg hd] at hr
          exact ⟨r.outage, ⟨r, hr, rfl⟩, by rw [if_neg hd]⟩
    · simp only [recoverOutage, hopen]
      exact h.next

end Refinement

end HollysysController
