import Mathlib.Algebra.Order.Floor.Div
import Mathlib.Data.Int.Log
import Mathlib.Data.Rat.Floor
import Mathlib.Tactic.FieldSimp
import Mathlib.Tactic.Linarith
import Mathlib.Tactic.Positivity

/-!
# The doubles among the rational numbers

The magnitudes that a double can have, 53 bits and an exponent from -1074 on,
and the one nearest to a magnitude, ties to even. Signs and the largest
exponent are left to `JsDouble`.

* `nearest_le`, `le_nearest`: rounding does not pass a double.
* `onGrid_nearest`, `nearest_of_onGrid`: what is rounded is a double, and a double is kept.
* `even_of_onGrid`: integers beyond 2^53.
* `ceil_nearest_div`: a rounded quotient of integers does not leave its ceiling.
-/

namespace Common

namespace Binary64

/-! ## The nearest integer -/

/-- The nearest integer, ties to even. -/
def roundHalfEven (x : ℚ) : ℤ :=
  let below := ⌊x⌋
  let rest := x - below
  if rest < 1 / 2 then below
  else if 1 / 2 < rest then below + 1
  else if below % 2 = 0 then below else below + 1

theorem roundHalfEven_cases (x : ℚ) : roundHalfEven x = ⌊x⌋ ∧ x ≤ ⌊x⌋ + 1 / 2 ∨
    roundHalfEven x = ⌊x⌋ + 1 ∧ ⌊x⌋ + 1 / 2 ≤ x := by
  unfold roundHalfEven
  dsimp only
  by_cases h₁ : x - ⌊x⌋ < 1 / 2
  · rw [if_pos h₁]
    exact .inl ⟨rfl, by linarith⟩
  rw [if_neg h₁]
  by_cases h₂ : 1 / 2 < x - ⌊x⌋
  · rw [if_pos h₂]
    exact .inr ⟨rfl, by linarith⟩
  rw [if_neg h₂]
  by_cases h₃ : ⌊x⌋ % 2 = 0
  · rw [if_pos h₃]
    exact .inl ⟨rfl, by linarith⟩
  · rw [if_neg h₃]
    exact .inr ⟨rfl, by linarith⟩

theorem le_roundHalfEven {x : ℚ} {n : ℤ} (h : n ≤ x) : n ≤ roundHalfEven x := by
  have hfloor : n ≤ ⌊x⌋ := Int.le_floor.mpr h
  rcases roundHalfEven_cases x with ⟨hx, -⟩ | ⟨hx, -⟩
  · omega
  · omega

theorem roundHalfEven_le {x : ℚ} {n : ℤ} (h : x ≤ n) : roundHalfEven x ≤ n := by
  have hfloor : (⌊x⌋ : ℚ) ≤ x := Int.floor_le x
  rcases roundHalfEven_cases x with ⟨hx, -⟩ | ⟨hx, habove⟩
  · rw [hx]
    exact_mod_cast hfloor.trans h
  · rw [hx]
    have hlt : (⌊x⌋ : ℚ) < n := by linarith
    have : ⌊x⌋ < n := by exact_mod_cast hlt
    omega

theorem lt_roundHalfEven {x : ℚ} {n : ℤ} (h : n + 1 / 2 < x) : n < roundHalfEven x := by
  have hfloor : n ≤ ⌊x⌋ := Int.le_floor.mpr (by linarith)
  rcases roundHalfEven_cases x with ⟨hx, hbelow⟩ | ⟨hx, -⟩
  · rw [hx]
    have hlt : (n : ℚ) < ⌊x⌋ := by linarith
    exact_mod_cast hlt
  · omega

/-! ## The nearest double -/

/-- The exponent of the last of the 53 bits. -/
def lastBit (q : ℚ) : ℤ := max (Int.log 2 q - 52) (-1074)

/-- The double nearest to a magnitude, where the exponent has no upper bound. -/
def nearest (q : ℚ) : ℚ := roundHalfEven (q / 2 ^ lastBit q) * 2 ^ lastBit q

/-- The least power of 2 that is no double. -/
def limit : ℚ := 2 ^ 1024

/-- 53 bits and an exponent. -/
def OnGrid (q : ℚ) : Prop := ∃ (m : ℕ) (e : ℤ), m ≤ 2 ^ 53 ∧ -1074 ≤ e ∧ q = m * 2 ^ e

section Rounding

variable {q d : ℚ}

theorem zpow_pos_two (e : ℤ) : (0 : ℚ) < 2 ^ e := zpow_pos two_pos e

theorem nearest_zero : nearest 0 = 0 := by
  have hzero : roundHalfEven 0 = 0 := by
    have hle : roundHalfEven 0 ≤ 0 := roundHalfEven_le (by simp)
    have hge : 0 ≤ roundHalfEven 0 := le_roundHalfEven (by simp)
    omega
  unfold nearest
  rw [zero_div, hzero, Int.cast_zero, zero_mul]

theorem nearest_nonneg (hq : 0 ≤ q) : 0 ≤ nearest q := by
  have hround : 0 ≤ roundHalfEven (q / 2 ^ lastBit q) :=
    le_roundHalfEven (by rw [Int.cast_zero]; exact div_nonneg hq (zpow_pos_two _).le)
  exact mul_nonneg (by exact_mod_cast hround) (zpow_pos_two _).le

/-- A double is a multiple of the last bit of `q`, or it lies below all that have this last bit. -/
theorem OnGrid.multiple_or_le (hd : OnGrid d) (hq : 0 < q) :
    (∃ k : ℤ, d = k * 2 ^ lastBit q) ∨ d ≤ 2 ^ 52 * 2 ^ lastBit q ∧ 2 ^ 52 ≤ q / 2 ^ lastBit q := by
  obtain ⟨m, e, hm, he, rfl⟩ := hd
  by_cases hle : lastBit q ≤ e
  · refine .inl ⟨m * 2 ^ (e - lastBit q).toNat, ?_⟩
    have hsplit : e = ((e - lastBit q).toNat : ℤ) + lastBit q := by omega
    conv_lhs => rw [hsplit, zpow_add₀ two_ne_zero, zpow_natCast]
    push_cast
    ring
  · have hlast : Int.log 2 q = 52 + lastBit q := by
      unfold lastBit at hle ⊢
      omega
    refine .inr ⟨?_, ?_⟩
    · have hm' : (m : ℚ) ≤ 2 ^ 53 := by exact_mod_cast hm
      calc (m : ℚ) * 2 ^ e
          ≤ 2 ^ 53 * 2 ^ e := mul_le_mul_of_nonneg_right hm' (zpow_pos_two e).le
        _ = 2 ^ 52 * 2 ^ (e + 1) := by rw [zpow_add_one₀ two_ne_zero]; ring
        _ ≤ 2 ^ 52 * 2 ^ lastBit q := by
            refine mul_le_mul_of_nonneg_left ?_ (by positivity)
            exact zpow_le_zpow_right₀ one_le_two (by omega)
    · rw [le_div_iff₀ (zpow_pos_two _)]
      have hlog := Int.zpow_log_le_self one_lt_two hq
      rw [hlast, zpow_add₀ (by norm_num)] at hlog
      exact_mod_cast hlog

/-- Rounding does not rise above a double. -/
theorem nearest_le (hd : OnGrid d) (hq : 0 ≤ q) (h : q ≤ d) : nearest q ≤ d := by
  rcases hq.eq_or_lt with rfl | hpos
  · rwa [nearest_zero]
  unfold nearest
  rcases hd.multiple_or_le hpos with ⟨k, rfl⟩ | ⟨hbelow, hbits⟩
  · have hround : roundHalfEven (q / 2 ^ lastBit q) ≤ k :=
      roundHalfEven_le ((div_le_iff₀ (zpow_pos_two _)).mpr h)
    exact mul_le_mul_of_nonneg_right (by exact_mod_cast hround) (zpow_pos_two _).le
  · have hround : roundHalfEven (q / 2 ^ lastBit q) ≤ (2 ^ 52 : ℤ) := by
      refine roundHalfEven_le ((div_le_iff₀ (zpow_pos_two _)).mpr ?_)
      push_cast
      exact h.trans hbelow
    calc (roundHalfEven (q / 2 ^ lastBit q) : ℚ) * 2 ^ lastBit q
        ≤ 2 ^ 52 * 2 ^ lastBit q :=
          mul_le_mul_of_nonneg_right (by exact_mod_cast hround) (zpow_pos_two _).le
      _ ≤ q := (le_div_iff₀ (zpow_pos_two _)).mp hbits
      _ ≤ d := h

/-- Rounding does not fall below a double. -/
theorem le_nearest (hd : OnGrid d) (hq : 0 ≤ q) (h : d ≤ q) : d ≤ nearest q := by
  rcases hq.eq_or_lt with rfl | hpos
  · rwa [nearest_zero]
  unfold nearest
  rcases hd.multiple_or_le hpos with ⟨k, rfl⟩ | ⟨hbelow, hbits⟩
  · have hround : k ≤ roundHalfEven (q / 2 ^ lastBit q) :=
      le_roundHalfEven ((le_div_iff₀ (zpow_pos_two _)).mpr h)
    exact mul_le_mul_of_nonneg_right (by exact_mod_cast hround) (zpow_pos_two _).le
  · have hround : (2 ^ 52 : ℤ) ≤ roundHalfEven (q / 2 ^ lastBit q) :=
      le_roundHalfEven (by push_cast; exact hbits)
    exact hbelow.trans
      (mul_le_mul_of_nonneg_right (by exact_mod_cast hround) (zpow_pos_two _).le)

/-- A double is not rounded. -/
theorem nearest_of_onGrid (hq : OnGrid q) : nearest q = q := by
  have hnonneg : 0 ≤ q := by
    obtain ⟨m, e, -, -, rfl⟩ := hq
    exact mul_nonneg (Nat.cast_nonneg m) (zpow_pos_two e).le
  exact le_antisymm (nearest_le hq hnonneg le_rfl) (le_nearest hq hnonneg le_rfl)

/-- What is rounded is a double. -/
theorem onGrid_nearest (hq : 0 ≤ q) : OnGrid (nearest q) := by
  rcases hq.eq_or_lt with rfl | hpos
  · rw [nearest_zero]
    exact ⟨0, 0, by decide, by decide, by simp⟩
  have hbits : q / 2 ^ lastBit q ≤ (2 ^ 53 : ℤ) := by
    rw [div_le_iff₀ (zpow_pos_two _)]
    have hlog := Int.lt_zpow_succ_log_self one_lt_two q
    have hexponent : Int.log 2 q + 1 ≤ 53 + lastBit q := by
      unfold lastBit
      omega
    calc q ≤ 2 ^ (Int.log 2 q + 1) := by exact_mod_cast hlog.le
      _ ≤ 2 ^ (53 + lastBit q) := zpow_le_zpow_right₀ one_le_two hexponent
      _ = ((2 ^ 53 : ℤ) : ℚ) * 2 ^ lastBit q := by
        rw [zpow_add₀ two_ne_zero]
        norm_num
  have hle : roundHalfEven (q / 2 ^ lastBit q) ≤ 2 ^ 53 := roundHalfEven_le hbits
  have hnonneg : 0 ≤ roundHalfEven (q / 2 ^ lastBit q) :=
    le_roundHalfEven (by rw [Int.cast_zero]; exact div_nonneg hq (zpow_pos_two _).le)
  obtain ⟨m, hm⟩ := Int.eq_ofNat_of_zero_le hnonneg
  refine ⟨m, lastBit q, by omega, le_max_right _ _, ?_⟩
  unfold nearest
  rw [hm]
  rfl

theorem onGrid_iff (hq : 0 ≤ q) : OnGrid q ↔ nearest q = q :=
  ⟨nearest_of_onGrid, fun h => h ▸ onGrid_nearest hq⟩

end Rounding

/-! ## Integers -/

/-- Integers of up to 53 bits, and 2^53, are doubles. -/
theorem onGrid_natCast {n : ℕ} (h : n ≤ 2 ^ 53) : OnGrid n := ⟨n, 0, h, by decide, by simp⟩

theorem nearest_natCast {n : ℕ} (h : n ≤ 2 ^ 53) : nearest n = n :=
  nearest_of_onGrid (onGrid_natCast h)

/-- From 2^53 on every double is an integer. -/
theorem exists_natCast_of_onGrid {q : ℚ} (hq : OnGrid q) (h : 2 ^ 53 ≤ q) : ∃ n : ℕ, q = n := by
  obtain ⟨m, e, hm, -, rfl⟩ := hq
  have he : 0 ≤ e := by
    by_contra hneg
    have hpow : (2 : ℚ) ^ e ≤ 2⁻¹ := by
      rw [← zpow_neg_one]
      exact zpow_le_zpow_right₀ one_le_two (by omega)
    have hm' : (m : ℚ) ≤ 2 ^ 53 := by exact_mod_cast hm
    have hle : (m : ℚ) * 2 ^ e ≤ 2 ^ 53 * 2⁻¹ :=
      mul_le_mul hm' hpow (zpow_pos_two e).le (by norm_num)
    linarith
  obtain ⟨k, rfl⟩ := Int.eq_ofNat_of_zero_le he
  refine ⟨m * 2 ^ k, ?_⟩
  push_cast
  rfl

/-- An integer is rounded to an integer. -/
theorem exists_nearest_natCast (n : ℕ) : ∃ p : ℕ, nearest n = p := by
  by_cases h : n ≤ 2 ^ 53
  · exact ⟨n, nearest_natCast h⟩
  · have hlarge : (2 ^ 53 : ℕ) ≤ nearest (n : ℚ) :=
      le_nearest (onGrid_natCast le_rfl) (Nat.cast_nonneg n) (by exact_mod_cast (not_le.mp h).le)
    exact exists_natCast_of_onGrid (onGrid_nearest (Nat.cast_nonneg n)) (by exact_mod_cast hlarge)

/-- The first integer that is no double is between two of them, and goes to the even one. -/
theorem nearest_two_pow_add_one : nearest (2 ^ 53 + 1 : ℕ) = (2 ^ 53 : ℕ) := by
  have hlog : Int.log 2 ((2 ^ 53 + 1 : ℕ) : ℚ) = 53 := by
    have hnat : Nat.log 2 (2 ^ 53 + 1) = 53 :=
      (Nat.log_eq_iff (.inl (by decide))).mpr ⟨by decide, by decide⟩
    rw [Int.log_natCast, hnat]
    rfl
  have hlast : lastBit ((2 ^ 53 + 1 : ℕ) : ℚ) = 1 := by
    unfold lastBit
    rw [hlog]
    decide
  have hround : roundHalfEven (((2 ^ 53 + 1 : ℕ) : ℚ) / 2) = 2 ^ 52 := by
    have hfloor : ⌊((2 ^ 53 + 1 : ℕ) : ℚ) / 2⌋ = 2 ^ 52 := by
      rw [Int.floor_eq_iff]
      norm_num
    unfold roundHalfEven
    rw [hfloor]
    norm_num
  unfold nearest
  rw [hlast, zpow_one, hround]
  norm_num

/-- Beyond 2^53 only even integers are doubles. -/
theorem even_of_onGrid {n : ℕ} (hn : OnGrid n) (h : 2 ^ 53 < n) : 2 ∣ n := by
  obtain ⟨m, e, hm, -, heq⟩ := hn
  have he : 0 < e := by
    by_contra hle
    have hpow : (2 : ℚ) ^ e ≤ 1 := zpow_le_one_of_nonpos₀ one_le_two (not_lt.mp hle)
    have hle : (n : ℚ) ≤ m := by
      rw [heq]
      exact mul_le_of_le_one_right (Nat.cast_nonneg m) hpow
    have : n ≤ m := by exact_mod_cast hle
    omega
  obtain ⟨k, rfl⟩ : ∃ k : ℕ, e = k + 1 := ⟨(e - 1).toNat, by omega⟩
  refine ⟨m * 2 ^ k, ?_⟩
  have hcast : (n : ℚ) = (2 * (m * 2 ^ k) : ℕ) := by
    rw [heq, zpow_add_one₀ two_ne_zero, zpow_natCast]
    push_cast
    ring
  exact_mod_cast hcast

/-! ## Quotients -/

/-- Half a last bit above a multiple of it, `nearest` has left that multiple. -/
theorem lt_nearest_of_lt {q : ℚ} {k : ℤ} (h : (k + 1 / 2) * 2 ^ lastBit q < q) :
    k * 2 ^ lastBit q < nearest q := by
  have hround : k < roundHalfEven (q / 2 ^ lastBit q) :=
    lt_roundHalfEven ((lt_div_iff₀ (zpow_pos_two _)).mpr h)
  exact mul_lt_mul_of_pos_right (by exact_mod_cast hround) (zpow_pos_two _)

section Quotient

variable {n o : ℕ} (hn : n < 2 ^ 53) (ho : 1 ≤ o) (hfinite : (o : ℚ) < limit)

include hn ho

/-- Half the last bit of a quotient is less than what two quotients differ by. -/
theorem half_lastBit_div_lt (hpos : 0 < n) (hfinite : (o : ℚ) < limit) :
    1 / 2 * (2 : ℚ) ^ lastBit (n / o) < 1 / o := by
  have ho' : (0 : ℚ) < o := by exact_mod_cast ho
  have hn' : (0 : ℚ) < n := by exact_mod_cast hpos
  have hcases : lastBit (n / o) = Int.log 2 ((n : ℚ) / o) - 52 ∨ lastBit (n / o) = -1074 := by
    unfold lastBit
    omega
  rcases hcases with h | h
  · have hlog : (2 : ℚ) ^ Int.log 2 ((n : ℚ) / o) ≤ n / o := by
      exact_mod_cast Int.zpow_log_le_self one_lt_two (div_pos hn' ho')
    have hbits : (n : ℚ) < 2 ^ 53 := by exact_mod_cast hn
    calc 1 / 2 * (2 : ℚ) ^ lastBit (n / o)
        = (2 : ℚ) ^ Int.log 2 ((n : ℚ) / o) / 2 ^ 53 := by
          rw [h, zpow_sub₀ two_ne_zero]
          norm_num
          ring
      _ ≤ n / o / 2 ^ 53 := by gcongr
      _ < 2 ^ 53 / o / 2 ^ 53 := by gcongr
      _ = 1 / o := by field_simp
  · have hlast : (2 : ℚ) ^ (-1074 : ℤ) ≤ 1 / limit := by
      unfold limit
      rw [one_div, ← zpow_natCast, ← zpow_neg]
      exact zpow_le_zpow_right₀ one_le_two (by decide)
    calc 1 / 2 * (2 : ℚ) ^ lastBit (n / o)
        ≤ (2 : ℚ) ^ (-1074 : ℤ) := by
          rw [h]
          linarith [zpow_pos_two (-1074)]
      _ ≤ 1 / limit := hlast
      _ < 1 / o := one_div_lt_one_div_of_lt ho' hfinite

include hfinite

/-- A quotient that lies above an integer is not rounded down to it. -/
theorem lt_nearest_div {d : ℕ} (h : d * o < n) : (d : ℚ) < nearest (n / o) := by
  have ho' : (0 : ℚ) < o := Nat.cast_pos.mpr ho
  have hstep : (d : ℚ) + 1 / o ≤ n / o := by
    rw [le_div_iff₀ ho', add_mul, one_div_mul_cancel ho'.ne']
    exact_mod_cast h
  have hlast : lastBit (n / o) ≤ 0 := by
    have hlt : (n : ℚ) / o < ((2 : ℕ) : ℚ) ^ (53 : ℤ) := by
      calc (n : ℚ) / o ≤ n := div_le_self (Nat.cast_nonneg n) (by exact_mod_cast ho)
        _ < ((2 : ℕ) : ℚ) ^ (53 : ℤ) := by exact_mod_cast hn
    have hlog := (Int.lt_zpow_iff_log_lt one_lt_two (div_pos (Nat.cast_pos.mpr (by omega)) ho')).mp hlt
    unfold lastBit
    omega
  obtain ⟨j, hj⟩ : ∃ j : ℕ, lastBit (n / o) = -j := ⟨(-lastBit (n / o)).toNat, by omega⟩
  have hmultiple : (d : ℚ) = (d * 2 ^ j : ℤ) * 2 ^ lastBit (n / o) := by
    rw [hj, zpow_neg, zpow_natCast]
    push_cast
    field_simp
  have hhalf := half_lastBit_div_lt hn ho (by omega) hfinite
  rw [hmultiple]
  refine lt_nearest_of_lt ?_
  rw [add_mul, ← hmultiple]
  linarith

omit hn hfinite in
theorem ceil_div (n : ℕ) : ⌈(n : ℚ) / o⌉ = (n ⌈/⌉ o : ℕ) := by
  have ho' : (0 : ℚ) < o := Nat.cast_pos.mpr ho
  refine eq_of_forall_ge_iff fun c => ?_
  rw [Int.ceil_le, div_le_iff₀ ho']
  constructor
  · intro h
    obtain ⟨k, rfl⟩ : ∃ k : ℕ, c = k := by
      refine Int.eq_ofNat_of_zero_le ?_
      by_contra hneg
      have hc : (c : ℚ) < 0 := by exact_mod_cast not_le.mp hneg
      have := mul_neg_of_neg_of_pos hc ho'
      have := (Nat.cast_nonneg n : (0 : ℚ) ≤ n)
      linarith
    have hle : n ≤ k * o := by exact_mod_cast h
    rw [mul_comm] at hle
    exact_mod_cast (ceilDiv_le_iff_le_mul ho).mpr hle
  · intro h
    have hle : n ≤ o * (n ⌈/⌉ o) := (ceilDiv_le_iff_le_mul ho).mp le_rfl
    calc (n : ℚ) ≤ (o * (n ⌈/⌉ o) : ℕ) := by exact_mod_cast hle
      _ = ((n ⌈/⌉ o : ℕ) : ℤ) * o := by push_cast; ring
      _ ≤ c * o := mul_le_mul_of_nonneg_right (by exact_mod_cast h) ho'.le

/-- The rounded quotient of two integers has the ceiling of the quotient. -/
theorem ceil_nearest_div : ⌈nearest (n / o)⌉ = (n ⌈/⌉ o : ℕ) := by
  have ho' : (0 : ℚ) < o := Nat.cast_pos.mpr ho
  have hnonneg : (0 : ℚ) ≤ n / o := div_nonneg (Nat.cast_nonneg n) ho'.le
  have hceil : n ≤ o * (n ⌈/⌉ o) := (ceilDiv_le_iff_le_mul ho).mp le_rfl
  have hle : n ⌈/⌉ o ≤ n := by
    rw [ceilDiv_le_iff_le_mul ho]
    exact Nat.le_mul_of_pos_left n ho
  rw [Int.ceil_eq_iff]
  constructor
  · rcases Nat.eq_zero_or_pos (n ⌈/⌉ o) with h | h
    · rw [h]
      have := nearest_nonneg hnonneg
      push_cast
      linarith
    · have hbefore : (n ⌈/⌉ o - 1) * o < n := by
        by_contra hge
        have := (ceilDiv_le_iff_le_mul ho).mpr ((not_lt.mp hge).trans_eq (mul_comm _ _))
        omega
      have hlt := lt_nearest_div hn ho hfinite hbefore
      rw [Nat.cast_sub h] at hlt
      exact_mod_cast hlt
  · refine nearest_le (onGrid_natCast (by omega)) hnonneg ?_
    rw [div_le_iff₀ ho', mul_comm]
    exact_mod_cast hceil

end Quotient

end Binary64

end Common
