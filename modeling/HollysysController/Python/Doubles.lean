import Mathlib.Data.Int.Log
import Mathlib.Data.Rat.Floor
import Mathlib.Tactic.Linarith
import Mathlib.Tactic.NormNum
import Mathlib.Tactic.Positivity

/-! # Python numbers

Floats as IEEE doubles with their exact values, integers without bound, and the
conversions between them. Results are rounded to nearest, ties to even. -/

namespace Python

/-- The exceptions that conversions raise. -/
inductive NumberError where
  | overflow | value
  deriving DecidableEq, Repr

inductive Double where
  | nan
  | inf (negative : Bool)
  | fin (q : Rat)
  deriving DecidableEq

namespace Double

/-! ## Rounding -/

/-- The exponent of the last place of a value. -/
def exponent (q : Rat) : Int := max (Int.log 2 |q| - 52) (-1074)

def halfEven (q : Rat) : Int :=
  let below := ⌊q⌋
  let rest := q - below
  if rest < 1 / 2 then below
  else if 1 / 2 < rest then below + 1
  else if below % 2 = 0 then below
  else below + 1

/-- The double next to a value. -/
def round (q : Rat) : Double :=
  let r : Rat := halfEven (q / 2 ^ exponent q) * 2 ^ exponent q
  if 2 ^ 1024 ≤ |r| then .inf (decide (r < 0)) else .fin r

/-- A significand of 53 bits and an exponent that may be as large as it likes. -/
def Representable (q : Rat) : Prop :=
  ∃ m e : Int, |m| < 2 ^ 53 ∧ -1074 ≤ e ∧ q = m * 2 ^ e

theorem halfEven_intCast (n : Int) : halfEven (n : Rat) = n := by
  simp [halfEven]

/-- A representable value is a multiple of its last place. -/
theorem Representable.multiple {q : Rat} (h : Representable q) :
    ∃ n : Int, q / 2 ^ exponent q = n := by
  obtain ⟨m, e, hm, he, rfl⟩ := h
  have hle : m = 0 ∨ exponent (m * 2 ^ e) ≤ e := by
    by_cases hzero : m = 0
    · exact .inl hzero
    · right
      have hpow : ∀ k : Int, (0 : Rat) < 2 ^ k := fun k => zpow_pos (by norm_num) k
      have hpos : 0 < |(m : Rat) * 2 ^ e| :=
        abs_pos.mpr (mul_ne_zero (by exact_mod_cast hzero) (hpow e).ne')
      have hlog := Int.zpow_log_le_self (b := 2) (by decide) hpos
      rw [exponent, max_le_iff]
      refine ⟨?_, he⟩
      by_contra hlt
      have hbound : |(m : Rat) * 2 ^ e| < 2 ^ (53 + e) := by
        rw [abs_mul, abs_of_pos (hpow e), zpow_add₀ (by norm_num : (2 : Rat) ≠ 0)]
        refine mul_lt_mul_of_pos_right ?_ (hpow e)
        exact_mod_cast hm
      have hlast : (2 : Rat) ^ (53 + e) ≤ 2 ^ Int.log 2 |(m : Rat) * 2 ^ e| :=
        zpow_le_zpow_right₀ (by norm_num) (by omega)
      exact absurd (hlast.trans (by exact_mod_cast hlog)) (not_le.mpr hbound)
  rcases hle with hzero | hle
  · exact ⟨0, by simp [hzero]⟩
  · refine ⟨m * 2 ^ (e - exponent (m * 2 ^ e)).toNat, ?_⟩
    have hnat : ((2 : Rat) ^ (e - exponent (m * 2 ^ e)).toNat) =
        2 ^ (e - exponent (m * 2 ^ e)) := by
      rw [← zpow_natCast, Int.toNat_of_nonneg (by omega)]
    push_cast
    rw [hnat, zpow_sub₀ (by norm_num : (2 : Rat) ≠ 0), mul_div_assoc]

/-- **A representable value is its own double**, unless it is too large. -/
theorem round_representable {q : Rat} (h : Representable q) :
    round q = if 2 ^ 1024 ≤ |q| then .inf (decide (q < 0)) else .fin q := by
  obtain ⟨n, hn⟩ := h.multiple
  have hq : (halfEven (q / 2 ^ exponent q) : Rat) * 2 ^ exponent q = q := by
    rw [hn, halfEven_intCast, ← hn, div_mul_cancel₀ _ (zpow_ne_zero _ (by norm_num))]
  simp only [round, hq]

/-! ## Operations -/

/-- `a < b`. Nothing is less or greater than a NaN. -/
def lt : Double → Double → Bool
  | fin a, fin b => decide (a < b)
  | inf a, fin _ => a
  | fin _, inf b => !b
  | inf a, inf b => a && !b
  | _, _ => false

def mul : Double → Double → Double
  | fin a, fin b => round (a * b)
  | inf a, fin b => if b = 0 then nan else inf (a != decide (b < 0))
  | fin a, inf b => if a = 0 then nan else inf (decide (a < 0) != b)
  | inf a, inf b => inf (a != b)
  | _, _ => nan

/-- `min(a, b)`. -/
def minOf (a b : Double) : Double := if b.lt a then b else a

/-- `float(n)`. -/
def ofInt (n : Int) : Except NumberError Double :=
  match round n with
  | fin q => .ok (.fin q)
  | _ => .error .overflow

/-- `int(x)`. -/
def toInt : Double → Except NumberError Int
  | nan => .error .value
  | inf _ => .error .overflow
  | fin q => .ok (if 0 ≤ q then ⌊q⌋ else ⌈q⌉)

theorem representable_pow_two (k : Nat) : Representable (2 ^ k) :=
  ⟨1, k, by norm_num, by omega, by norm_num⟩

theorem Representable.scale {q : Rat} (h : Representable q) (k : Nat) :
    Representable (q * 2 ^ k) := by
  obtain ⟨m, e, hm, he, rfl⟩ := h
  refine ⟨m, e + k, hm, by omega, ?_⟩
  rw [zpow_add₀ (by norm_num : (2 : Rat) ≠ 0), zpow_natCast, mul_assoc]

/-- `float(2 ** k)`: an `OverflowError` from `2 ** 1024` on. -/
theorem ofInt_pow_two (k : Nat) :
    ofInt (2 ^ k) = if k < 1024 then .ok (.fin (2 ^ k)) else .error .overflow := by
  have hcast : (((2 : Int) ^ k : Int) : Rat) = 2 ^ k := by push_cast; rfl
  have habs : |(2 : Rat) ^ k| = 2 ^ k := abs_of_pos (by positivity)
  delta ofInt
  rw [hcast, round_representable (representable_pow_two k), habs]
  by_cases hk : k < 1024
  · have hlt : ¬ (2 : Rat) ^ 1024 ≤ 2 ^ k := not_le.mpr (pow_lt_pow_right₀ (by norm_num) hk)
    rw [if_neg hlt, if_pos hk]
  · have hle : (2 : Rat) ^ 1024 ≤ 2 ^ k := pow_le_pow_right₀ (by norm_num) (by omega)
    rw [if_pos hle, if_neg hk]

/-- The double has a value that doubles have. -/
def IsDouble : Double → Prop
  | fin q => Representable q ∧ |q| < 2 ^ 1024
  | _ => True

/-- Not `x <= 0`, which holds of a NaN too. -/
def Positive : Double → Prop
  | fin q => 0 < q
  | inf negative => negative = false
  | nan => True

/-- The product with a power of two loses nothing. -/
def scale (k : Nat) : Double → Double
  | fin q => if 2 ^ 1024 ≤ |q * 2 ^ k| then .inf (decide (q * 2 ^ k < 0)) else .fin (q * 2 ^ k)
  | x => x

theorem mul_pow_two {x : Double} (h : x.IsDouble) (k : Nat) :
    x.mul (.fin (2 ^ k)) = x.scale k := by
  have hpos : (0 : Rat) < 2 ^ k := by positivity
  cases x with
  | nan => rfl
  | inf negative => simp [mul, scale, hpos.ne', not_lt.mpr hpos.le]
  | fin q => exact round_representable (h.1.scale k)

/-! ## Large numbers -/

theorem le_halfEven {k : Int} {q : Rat} (h : (k : Rat) ≤ q) : k ≤ halfEven q := by
  have hfloor : k ≤ ⌊q⌋ := Int.le_floor.mpr h
  unfold halfEven
  extract_lets below rest
  have hbelow : k ≤ below := hfloor
  split_ifs <;> omega

theorem halfEven_le {k : Int} {q : Rat} (h : q ≤ (k : Rat)) : halfEven q ≤ k := by
  unfold halfEven
  extract_lets below rest
  have hrest : 0 ≤ rest := sub_nonneg.mpr (Int.floor_le q)
  have hbelow : below ≤ k := by
    have : (below : Rat) ≤ k := (Int.floor_le q).trans h
    exact_mod_cast this
  by_cases heq : below = k
  · -- no rest is left
    have hzero : rest = 0 := by
      have : rest = q - k := by rw [← heq]
      linarith
    rw [if_pos (by rw [hzero]; norm_num)]
    exact hbelow
  · split_ifs <;> omega

/-- A half below an even number is rounded up to it. -/
theorem even_le_halfEven_iff {k : Int} {q : Rat} (hk : k % 2 = 0) :
    k ≤ halfEven q ↔ (k : Rat) - 1 / 2 ≤ q := by
  constructor
  · intro h
    by_contra hlt
    have hfloor : ⌊q⌋ ≤ k - 1 := by
      have : ⌊q⌋ < k := Int.floor_lt.mpr (by linarith)
      omega
    unfold halfEven at h
    extract_lets below rest at h
    have hbelow : below ≤ k - 1 := hfloor
    by_cases heq : below = k - 1
    · have hrest : rest < 1 / 2 := by
        have : rest = q - (k - 1 : Int) := by rw [← heq]
        push_cast at this
        linarith
      rw [if_pos hrest] at h
      omega
    · split_ifs at h <;> omega
  · intro h
    by_cases hle : (k : Rat) ≤ q
    · exact le_halfEven hle
    · have hfloor : ⌊q⌋ = k - 1 := by
        rw [Int.floor_eq_iff]
        push_cast
        constructor <;> linarith
      unfold halfEven
      extract_lets below rest
      have hbelow : below = k - 1 := hfloor
      have hrest : 1 / 2 ≤ rest := by
        have : rest = q - (k - 1 : Int) := by rw [← hbelow]
        push_cast at this
        linarith
      rw [if_neg (not_lt.mpr hrest)]
      split_ifs <;> omega

/-- Between two powers of two the last place is the same. -/
theorem exponent_eq {q : Rat} {k : Int} (hk : -1021 ≤ k) (hlow : 2 ^ (k - 1) ≤ q) (hhigh : q < 2 ^ k) :
    exponent q = k - 53 := by
  have hpos : 0 < q := lt_of_lt_of_le (zpow_pos (by norm_num) _) hlow
  have hlog : Int.log 2 q = k - 1 := by
    apply le_antisymm
    · rw [← Int.lt_add_one_iff, ← Int.lt_zpow_iff_log_lt (by decide) hpos]
      simpa using hhigh
    · rw [← Int.zpow_le_iff_le_log (by decide) hpos]
      exact_mod_cast hlow
  rw [exponent, abs_of_pos hpos, hlog]
  omega

/-- **What is rounded below a power of two**: all that is half a last place below it. -/
theorem rounded_lt_iff {q : Rat} {k : Int} (hq : 0 ≤ q) (hk : -1021 ≤ k) :
    (halfEven (q / 2 ^ exponent q) * 2 ^ exponent q : Rat) < 2 ^ k ↔ q < 2 ^ k - 2 ^ (k - 54) := by
  have hpow : ∀ e : Int, (0 : Rat) < 2 ^ e := fun e => zpow_pos (by norm_num) e
  have hsplit : ∀ a b : Int, (2 : Rat) ^ a = 2 ^ (a - b) * 2 ^ b := fun a b => by
    rw [← zpow_add₀ (by norm_num), sub_add_cancel]
  have hcast : ∀ a : Int, 0 ≤ a → ((2 ^ a.toNat : Int) : Rat) = 2 ^ a := fun a ha => by
    push_cast
    rw [← zpow_natCast, Int.toNat_of_nonneg ha]
  by_cases hhigh : (2 : Rat) ^ k ≤ q
  · -- above the power: nothing is rounded below it
    have hpos : 0 < q := lt_of_lt_of_le (hpow k) hhigh
    have hlog : k ≤ Int.log 2 q := by
      rw [← Int.zpow_le_iff_le_log (by decide) hpos]
      exact_mod_cast hhigh
    have hexp : exponent q ≤ Int.log 2 q := by
      rw [exponent, abs_of_pos hpos]
      omega
    have hle : (2 : Rat) ^ Int.log 2 q ≤ q := by
      exact_mod_cast Int.zpow_log_le_self (b := 2) (by decide) hpos
    have hmul := le_halfEven (k := 2 ^ (Int.log 2 q - exponent q).toNat)
      (q := q / 2 ^ exponent q) (by
        rw [hcast _ (by omega), le_div_iff₀ (hpow _), ← hsplit]
        exact hle)
    have hround : (2 : Rat) ^ k ≤ halfEven (q / 2 ^ exponent q) * 2 ^ exponent q := by
      calc (2 : Rat) ^ k ≤ 2 ^ Int.log 2 q := zpow_le_zpow_right₀ (by norm_num) hlog
        _ = 2 ^ (Int.log 2 q - exponent q) * 2 ^ exponent q := hsplit _ _
        _ ≤ _ := by
          refine mul_le_mul_of_nonneg_right ?_ (hpow _).le
          rw [← hcast _ (by omega)]
          exact_mod_cast hmul
    constructor
    · intro h
      exact absurd h (not_lt.mpr hround)
    · intro h
      have := hpow (k - 54)
      linarith
  · rw [not_le] at hhigh
    by_cases hlow : (2 : Rat) ^ (k - 1) ≤ q
    · -- in the last interval: a multiple of `2 ^ (k - 53)`, rounded up from the last half on
      have hexp := exponent_eq hk hlow hhigh
      have heven := even_le_halfEven_iff (k := 2 ^ 53) (q := q / 2 ^ (k - 53)) (by decide)
      rw [hexp, ← not_le, ← not_le, not_iff_not]
      have hk53 : (2 : Rat) ^ k = 2 ^ (53 : Nat) * 2 ^ (k - 53) := by
        rw [hsplit k (k - 53)]
        norm_num
      have hk54 : (2 : Rat) ^ (k - 53) = 2 * 2 ^ (k - 54) := by
        rw [hsplit (k - 53) (k - 54)]
        norm_num
      rw [hk53, mul_le_mul_iff_left₀ (hpow _)]
      have hcast53 : ((2 ^ 53 : Int) : Rat) = 2 ^ (53 : Nat) := by norm_num
      rw [hcast53, le_div_iff₀ (hpow _)] at heven
      constructor
      · intro h
        have := heven.mp (by exact_mod_cast h)
        linarith
      · intro h
        have := heven.mpr (by linarith)
        exact_mod_cast this
    · -- below: no more than the power before
      rw [not_le] at hlow
      have hhalf : (2 : Rat) ^ k = 2 * 2 ^ (k - 1) := by
        rw [hsplit k (k - 1)]
        norm_num
      have hquarter : (2 : Rat) ^ (k - 54) ≤ 2 ^ (k - 1) :=
        zpow_le_zpow_right₀ (by norm_num) (by omega)
      have hround : (halfEven (q / 2 ^ exponent q) * 2 ^ exponent q : Rat) ≤ 2 ^ (k - 1) := by
        rcases hq.eq_or_lt with rfl | hpos
        · simpa [halfEven] using (hpow (k - 1)).le
        · have hlog : Int.log 2 q < k - 1 := by
            rw [← Int.lt_zpow_iff_log_lt (by decide) hpos]
            exact_mod_cast hlow
          have hexp : exponent q ≤ k - 1 := by
            rw [exponent, abs_of_pos hpos]
            omega
          have hmul := halfEven_le (k := 2 ^ (k - 1 - exponent q).toNat)
            (q := q / 2 ^ exponent q) (by
              rw [hcast _ (by omega), div_le_iff₀ (hpow _), ← hsplit]
              exact hlow.le)
          rw [hsplit (k - 1) (exponent q), ← hcast (k - 1 - exponent q) (by omega)]
          refine mul_le_mul_of_nonneg_right ?_ (hpow _).le
          exact_mod_cast hmul
      have := hpow (k - 1)
      constructor
      · intro _
        linarith
      · intro _
        linarith


theorem rounded_nonneg {q : Rat} (hq : 0 ≤ q) :
    0 ≤ (halfEven (q / 2 ^ exponent q) * 2 ^ exponent q : Rat) := by
  have hpow : (0 : Rat) < 2 ^ exponent q := zpow_pos (by norm_num) _
  have hpart := le_halfEven (k := 0) (q := q / 2 ^ exponent q) (by
    simpa using div_nonneg hq hpow.le)
  exact mul_nonneg (by exact_mod_cast hpart) hpow.le

/-- What is rounded to a double below a power of two. -/
theorem round_lt_iff {q : Rat} {k : Nat} (hq : 0 ≤ q) (hk : k ≤ 1024) :
    (∃ r, round q = .fin r ∧ r < 2 ^ k) ↔ q < 2 ^ k - 2 ^ ((k : Int) - 54) := by
  have hround := rounded_lt_iff (k := k) hq (by omega)
  rw [zpow_natCast] at hround
  rw [← hround]
  have hnonneg := rounded_nonneg hq
  simp only [round, abs_of_nonneg hnonneg]
  constructor
  · rintro ⟨r, heq, hr⟩
    split at heq
    · cases heq
    · cases heq
      exact hr
  · intro hr
    have hfits : ¬ (2 : Rat) ^ 1024 ≤ halfEven (q / 2 ^ exponent q) * 2 ^ exponent q :=
      not_le.mpr (hr.trans_le (pow_le_pow_right₀ (by norm_num) hk))
    rw [if_neg hfits]
    exact ⟨_, rfl, hr⟩

theorem round_fin {q r : Rat} (hq : 0 ≤ q) (h : round q = .fin r) : 0 ≤ r ∧ r < 2 ^ 1024 := by
  have hnonneg := rounded_nonneg hq
  simp only [round, abs_of_nonneg hnonneg] at h
  split at h
  · cases h
  next hfits =>
    cases h
    exact ⟨hnonneg, not_le.mp hfits⟩

/-- The integers from here on are rounded beyond the largest double. -/
def intLimit : Int := 2 ^ 1024 - 2 ^ 970

theorem one_lt_intLimit : 1 < intLimit := by decide +kernel

/-- `float(n)` has a value exactly when `n` is rounded below `2 ** 1024`. -/
theorem ofInt_ok_iff {n : Int} (hn : 0 ≤ n) : (∃ x, ofInt n = .ok x) ↔ n < intLimit := by
  have hq : (0 : Rat) ≤ n := by exact_mod_cast hn
  have hbound : n < intLimit ↔ (n : Rat) < 2 ^ 1024 - 2 ^ (((1024 : Nat) : Int) - 54) := by
    rw [intLimit, show ((1024 : Nat) : Int) - 54 = (970 : Nat) from rfl, zpow_natCast]
    exact_mod_cast Iff.rfl
  rw [hbound, ← round_lt_iff hq (Nat.le_refl 1024)]
  delta ofInt
  constructor
  · rintro ⟨x, hx⟩
    split at hx
    next r hr => exact ⟨r, hr, (round_fin hq hr).2⟩
    next => cases hx
  · rintro ⟨r, hr, -⟩
    rw [hr]
    exact ⟨_, rfl⟩

/-- `int(x)` of a rounded number fits 64 bits exactly when the number is rounded below. -/
theorem toInt_round_iff {q : Rat} (hq : 0 ≤ q) :
    (∃ n, (round q).toInt = .ok n ∧ n < 2 ^ 63) ↔ q < 2 ^ 63 - 2 ^ 9 := by
  have hround := round_lt_iff (k := 63) hq (by decide)
  rw [show ((63 : Nat) : Int) - 54 = (9 : Nat) from rfl, zpow_natCast] at hround
  rw [← hround]
  constructor
  · rintro ⟨n, hn, hlt⟩
    cases hr : round q with
    | nan => simp [hr, toInt] at hn
    | inf negative => simp [hr, toInt] at hn
    | fin r =>
      rw [hr, toInt, if_pos (round_fin hq hr).1] at hn
      refine ⟨r, rfl, ?_⟩
      have hfloor := Int.floor_lt.mp ((Except.ok.inj hn).trans_lt hlt)
      exact_mod_cast hfloor
  · rintro ⟨r, hr, hlt⟩
    rw [hr, toInt, if_pos (round_fin hq hr).1]
    exact ⟨_, rfl, Int.floor_lt.mpr (by exact_mod_cast hlt)⟩

end Double

end Python
