import NestTemplate.Common.Binary64

/-!
# The numbers of JavaScript and their operators

A number by its value: rational numbers, -0, the infinities and NaN. How a
result is rounded is a parameter of the operators: `roundDouble` gives the
arithmetic of doubles, `JsDouble.finite` exact arithmetic.

* `isDouble_roundDouble`: what is rounded is a double.
* `roundDouble_natCast`: integers up to 2^53 are kept.
* `ceil_div_natCast`: `Math.ceil(n / o)`, exact and in doubles.
-/

namespace Common

open Binary64

/-- A number, by its value. -/
inductive JsDouble where
  | nan
  | infinity (negative : Bool)
  | negZero
  | finite (q : ℚ)
  deriving DecidableEq

namespace JsDouble

/-- The value of a number that is finite. -/
def toRat : JsDouble → ℚ
  | .finite q => q
  | _ => 0

def isZero : JsDouble → Bool
  | .negZero => true
  | .finite q => q = 0
  | _ => false

/-- Whether the sign is set. -/
def isNegative : JsDouble → Bool
  | .nan => false
  | .infinity negative => negative
  | .negZero => true
  | .finite q => q < 0

/-- Whether the number counts as true in a condition. -/
def truthy (x : JsDouble) : Bool := x ≠ .nan ∧ x.isZero = false

/-- The number as a key of a `Map`, where the two zeros are one. -/
def mapKey : JsDouble → JsDouble
  | .negZero => .finite 0
  | x => x

/-! ## Rounding -/

/-- `-x`. -/
def neg : JsDouble → JsDouble
  | .nan => .nan
  | .infinity negative => .infinity !negative
  | .negZero => .finite 0
  | .finite q => if q = 0 then .negZero else .finite (-q)

/-- The number of a sign and a magnitude. -/
def withSign (negative : Bool) (magnitude : JsDouble) : JsDouble :=
  if negative then magnitude.neg else magnitude

/-- The double nearest to a rational number. -/
def roundDouble (q : ℚ) : JsDouble :=
  withSign (q < 0) (if nearest |q| < limit then .finite (nearest |q|) else .infinity false)

/-- The number is a double. -/
def IsDouble : JsDouble → Prop
  | .finite q => roundDouble q = .finite q
  | _ => True

/-- The doubles. -/
abbrev Double := { x : JsDouble // x.IsDouble }

theorem roundDouble_of_nonneg {q : ℚ} (h : 0 ≤ q) :
    roundDouble q = if nearest q < limit then .finite (nearest q) else .infinity false := by
  unfold roundDouble withSign
  rw [decide_eq_false (not_lt.mpr h), abs_of_nonneg h, if_neg Bool.false_ne_true]

theorem mapKey_roundDouble {q : ℚ} (h : 0 ≤ q) : (roundDouble q).mapKey = roundDouble q := by
  rw [roundDouble_of_nonneg h]
  split
  · rfl
  · rfl

theorem roundDouble_eq_finite {q d : ℚ} (h : 0 ≤ q) :
    roundDouble q = .finite d ↔ nearest q = d ∧ d < limit := by
  rw [roundDouble_of_nonneg h]
  by_cases hlimit : nearest q < limit
  · rw [if_pos hlimit, finite.injEq]
    exact ⟨fun heq => ⟨heq, heq ▸ hlimit⟩, And.left⟩
  · rw [if_neg hlimit]
    refine iff_of_false (fun h => nomatch h) ?_
    rintro ⟨rfl, hd⟩
    exact hlimit hd

/-- A magnitude is a double if it is one of 53 bits and not too large. -/
theorem isDouble_finite_iff {q : ℚ} (h : 0 ≤ q) : (finite q).IsDouble ↔ OnGrid q ∧ q < limit := by
  rw [onGrid_iff h]
  exact roundDouble_eq_finite h

theorem lt_limit_natCast {n : ℕ} (h : n ≤ 2 ^ 53) : (n : ℚ) < limit := by
  unfold limit
  calc (n : ℚ) ≤ 2 ^ 53 := by exact_mod_cast h
    _ < 2 ^ 1024 := pow_lt_pow_right₀ (by norm_num) (by norm_num)

/-- Integers of up to 53 bits, and 2^53, are not rounded. -/
theorem roundDouble_natCast {n : ℕ} (h : n ≤ 2 ^ 53) : roundDouble n = .finite n :=
  (isDouble_finite_iff (Nat.cast_nonneg n)).mpr ⟨onGrid_natCast h, lt_limit_natCast h⟩

theorem onGrid_limit : OnGrid limit := by
  refine ⟨1, 1024, by decide, by decide, ?_⟩
  unfold limit
  rw [Nat.cast_one, one_mul, zpow_ofNat]

/-- What is too large is infinite. -/
theorem roundDouble_of_limit_le {q : ℚ} (h : limit ≤ q) : roundDouble q = .infinity false := by
  have hlimit : 0 ≤ limit := by
    unfold limit
    exact pow_nonneg two_pos.le _
  have hnonneg : 0 ≤ q := hlimit.trans h
  rw [roundDouble_of_nonneg hnonneg, if_neg (not_lt.mpr (le_nearest onGrid_limit hnonneg h))]

theorem isDouble_zero : (finite 0).IsDouble := by
  have h := roundDouble_natCast (Nat.zero_le (2 ^ 53))
  rwa [Nat.cast_zero] at h

theorem neg_finite_zero : (finite 0).neg = .negZero := by simp [neg]

theorem neg_finite_of_ne {q : ℚ} (h : q ≠ 0) : (finite q).neg = .finite (-q) := if_neg h

theorem neg_neg (x : JsDouble) : x.neg.neg = x := by
  match x with
  | .nan => rfl
  | .infinity negative => exact congrArg infinity (Bool.not_not negative)
  | .negZero => exact neg_finite_zero
  | .finite q =>
    by_cases hq : q = 0
    · subst hq
      rw [neg_finite_zero]
      rfl
    · rw [neg_finite_of_ne hq, neg_finite_of_ne (neg_ne_zero.mpr hq), InvolutiveNeg.neg_neg]

/-- The two signs are rounded alike. -/
theorem roundDouble_neg {q : ℚ} (h : q ≠ 0) : roundDouble (-q) = (roundDouble q).neg := by
  unfold roundDouble withSign
  rw [abs_neg]
  rcases lt_or_gt_of_ne h with hneg | hpos
  · rw [decide_eq_true hneg, decide_eq_false (not_lt.mpr (neg_nonneg.mpr hneg.le)), if_pos rfl,
      if_neg Bool.false_ne_true, neg_neg]
  · rw [decide_eq_true (neg_lt_zero.mpr hpos), decide_eq_false (not_lt.mpr hpos.le), if_pos rfl,
      if_neg Bool.false_ne_true]

theorem isDouble_neg {x : JsDouble} (h : x.IsDouble) : x.neg.IsDouble := by
  match x, h with
  | .nan, _ | .infinity _, _ => trivial
  | .negZero, _ => exact isDouble_zero
  | .finite q, h =>
    by_cases hq : q = 0
    · subst hq
      rw [neg_finite_zero]
      trivial
    · rw [neg_finite_of_ne hq]
      have hround : roundDouble q = .finite q := h
      exact (roundDouble_neg hq).trans (hround ▸ neg_finite_of_ne hq)

theorem isDouble_withSign {x : JsDouble} (h : x.IsDouble) (negative : Bool) :
    (withSign negative x).IsDouble := by
  unfold withSign
  split
  · exact isDouble_neg h
  · exact h

/-- What is rounded is a double. -/
theorem isDouble_roundDouble (q : ℚ) : (roundDouble q).IsDouble := by
  unfold roundDouble
  refine isDouble_withSign ?_ _
  split
  · rename_i hlimit
    have hnonneg := nearest_nonneg (abs_nonneg q)
    exact (isDouble_finite_iff hnonneg).mpr ⟨onGrid_nearest (abs_nonneg q), hlimit⟩
  · trivial

/-! ## Operators -/

section Operators

variable (round : ℚ → JsDouble)

/-- `x + y`. -/
def add : JsDouble → JsDouble → JsDouble
  | .nan, _ | _, .nan => .nan
  | .infinity a, .infinity b => if a = b then .infinity a else .nan
  | .infinity a, _ | _, .infinity a => .infinity a
  | .negZero, y => y
  | x, .negZero => x
  | .finite a, .finite b => round (a + b)

/-- `x - y`. -/
def sub (x y : JsDouble) : JsDouble := add round x y.neg

/-- `x * y`. -/
def mul (x y : JsDouble) : JsDouble :=
  let negative := x.isNegative ^^ y.isNegative
  match x, y with
  | .nan, _ | _, .nan => .nan
  | .infinity _, z | z, .infinity _ => if z.isZero then .nan else .infinity negative
  | x, y => withSign negative (round (|x.toRat| * |y.toRat|))

/-- `x / y`. -/
def div (x y : JsDouble) : JsDouble :=
  let negative := x.isNegative ^^ y.isNegative
  match x, y with
  | .nan, _ | _, .nan | .infinity _, .infinity _ => .nan
  | .infinity _, _ => .infinity negative
  | _, .infinity _ => withSign negative (.finite 0)
  | x, y =>
    if y.isZero then (if x.isZero then .nan else .infinity negative)
    else withSign negative (round (|x.toRat| / |y.toRat|))

end Operators

/-- `Math.ceil(x)`. -/
def ceil : JsDouble → JsDouble
  | .finite q => if q < 0 ∧ ⌈q⌉ = 0 then .negZero else .finite ⌈q⌉
  | x => x

/-- `x <= y`. -/
def le : JsDouble → JsDouble → Bool
  | .nan, _ | _, .nan => false
  | .infinity a, .infinity b => a || !b
  | .infinity a, _ => a
  | _, .infinity b => !b
  | x, y => x.toRat ≤ y.toRat

/-- `x < y`. -/
def lt (x y : JsDouble) : Bool := x.le y && !y.le x

@[simp] theorem le_finite (a b : ℚ) : (finite a).le (.finite b) = decide (a ≤ b) := rfl

@[simp] theorem add_finite (round : ℚ → JsDouble) (a b : ℚ) :
    add round (.finite a) (.finite b) = round (a + b) := rfl

@[simp] theorem truthy_finite (q : ℚ) : (finite q).truthy = decide (q ≠ 0) := by
  simp [truthy, isZero]

theorem sub_finite (round : ℚ → JsDouble) (a : ℚ) {b : ℚ} (hb : b ≠ 0) :
    sub round (.finite a) (.finite b) = round (a - b) := by
  unfold sub
  rw [neg_finite_of_ne hb, add_finite, sub_eq_add_neg]

section Magnitudes

variable (round : ℚ → JsDouble) {a b : ℚ} (ha : 0 ≤ a)

include ha

theorem mul_finite (hb : 0 ≤ b) : mul round (.finite a) (.finite b) = round (a * b) := by
  simp [mul, withSign, isNegative, toRat, not_lt.mpr ha, not_lt.mpr hb, abs_of_nonneg ha,
    abs_of_nonneg hb]

theorem div_finite (hb : 0 < b) : div round (.finite a) (.finite b) = round (a / b) := by
  simp [div, withSign, isNegative, toRat, isZero, not_lt.mpr ha, not_lt.mpr hb.le, hb.ne',
    abs_of_nonneg ha, abs_of_pos hb]

theorem ceil_finite : (finite a).ceil = .finite ⌈a⌉ := if_neg fun h => not_lt.mpr ha h.1

end Magnitudes

/-- A rounded quotient of integers is finite. -/
theorem roundDouble_div {n o : ℕ} (hn : (n : ℚ) < limit) (hgrid : OnGrid n) (ho : 1 ≤ o) :
    roundDouble (n / o) = .finite (nearest (n / o)) := by
  have hnonneg : (0 : ℚ) ≤ n / o := div_nonneg (Nat.cast_nonneg n) (Nat.cast_nonneg o)
  have hle : nearest (n / o) ≤ n :=
    nearest_le hgrid hnonneg (div_le_self (Nat.cast_nonneg n) (Nat.one_le_cast.mpr ho))
  exact (roundDouble_eq_finite hnonneg).mpr ⟨rfl, hle.trans_lt hn⟩

/-- `Math.ceil(n / o)` is the ceiling of the quotient. -/
theorem ceil_div_natCast {n o : ℕ} (hn : n < 2 ^ 53) (ho : 1 ≤ o) (hdouble : (finite o).IsDouble) :
    (div roundDouble (.finite n) (.finite o)).ceil = .finite (n ⌈/⌉ o : ℕ) := by
  have hfinite := ((isDouble_finite_iff (Nat.cast_nonneg o)).mp hdouble).2
  have hnonneg : (0 : ℚ) ≤ n / o := div_nonneg (Nat.cast_nonneg n) (Nat.cast_nonneg o)
  rw [div_finite _ (Nat.cast_nonneg n) (Nat.cast_pos.mpr ho),
    roundDouble_div (lt_limit_natCast hn.le) (onGrid_natCast hn.le) ho,
    ceil_finite (nearest_nonneg hnonneg), ceil_nearest_div hn ho hfinite, Int.cast_natCast]

/-- Without a divisor there is no finite quotient. -/
theorem div_zero_ne_finite (round : ℚ → JsDouble) (a q : ℚ) :
    (div round (.finite a) (.finite 0)).ceil ≠ .finite q := by
  have hdiv : div round (.finite a) (.finite 0) =
      if (finite a).isZero then .nan else .infinity ((finite a).isNegative ^^ false) := rfl
  rw [hdiv]
  split
  · exact fun h => nomatch h
  · exact fun h => nomatch h

end JsDouble

end Common
