import NestTemplate.Common.NumberText

/-!
# Mixed arithmetic of JavaScript

Numbers, texts and `null` under the operators of JavaScript. `+` with a text
joins texts, the other operators read a text as a number. How numbers are
rounded and written is a parameter: `Arithmetic.double` is JavaScript's own,
`Arithmetic.exact` that of the integers it stands for.

* `parseFloat_decimal`, `toNumber_decimal_addOne`: the number of a decimal text,
  and of the text that `+ 1` makes of it.
* `counts_exact`, `counts_double`: for which counts the two agree.
-/

namespace Common

open JsDouble

/-- How results are rounded and numbers are written. -/
structure Arithmetic where
  round : ℚ → JsDouble
  toText : JsDouble → String

namespace Arithmetic

/-- Doubles. -/
def double : Arithmetic where
  round := roundDouble
  toText := JsDouble.toText

/-- No rounding; integers are written in full. -/
def exact : Arithmetic where
  round := .finite
  toText
    | .finite q => toString q.num
    | x => x.toText

end Arithmetic

/-- The values that occur. -/
inductive JsValue where
  | null
  | number (x : JsDouble)
  | text (s : String)
  deriving DecidableEq

namespace JsValue

/-- `Number(value)`. -/
def toNumber : JsValue → JsDouble
  | .null => .finite 0
  | .number x => x
  | .text s => JsDouble.number s

/-- `parseFloat(value)`. A number is written and read back, which takes the sign off -0. -/
def parseFloat : JsValue → JsDouble
  | .null => .nan
  | .number x => x.mapKey
  | .text s => JsDouble.parseFloat s

/-- Whether the value counts as true. -/
def truthy : JsValue → Bool
  | .null => false
  | .number x => x.truthy
  | .text s => s ≠ ""

/-- The decimal text of `n`. -/
def decimal (n : ℕ) : JsValue := .text (toString n)

/-- The number `n`. -/
def ofNat (n : ℕ) : JsValue := .number (.finite n)

section Operators

variable (A : Arithmetic)

/-- `String(value)`. -/
def toText : JsValue → String
  | .null => "null"
  | .number x => A.toText x
  | .text s => s

/-- `value + 1`. -/
def addOne : JsValue → JsValue
  | .text s => .text (s ++ "1")
  | v => .number (JsDouble.add A.round v.toNumber (.finite 1))

/-- `value - other`. -/
def sub (v w : JsValue) : JsDouble := JsDouble.sub A.round v.toNumber w.toNumber

/-- `value * other`. -/
def mul (v w : JsValue) : JsDouble := JsDouble.mul A.round v.toNumber w.toNumber

end Operators

@[simp] theorem toNumber_ofNat (n : ℕ) : (ofNat n).toNumber = .finite n := rfl

/-- A decimal text is read as the double nearest to the number it writes. -/
theorem parseFloat_decimal (n : ℕ) : (decimal n).parseFloat = roundDouble n := parseFloat_toString n

/-- `+ 1` writes a `1` behind the digits. -/
theorem toNumber_decimal_addOne (A : Arithmetic) (n : ℕ) :
    ((decimal n).addOne A).toNumber = roundDouble (10 * n + 1 : ℕ) := by
  show JsDouble.number (toString n ++ "1") = _
  have hdigits : toString n ++ "1" = String.ofList (Nat.toDigits 10 n ++ ['1']) := by
    rw [Nat.toString_eq_ofList_toDigits, String.ofList_append]
  have hvalue : Digits.value (Nat.toDigits 10 n ++ ['1']) = 10 * n + 1 := by
    rw [Digits.value_append, Digits.value_toDigits, Nat.mul_comm n]
    rfl
  rw [hdigits, number_of_digits _ (by simp), hvalue]
  exact Digits.areDigits_append (Digits.areDigits_toDigits n)
    (List.forall_mem_singleton.mpr (by decide))

theorem truthy_decimal (n : ℕ) : (decimal n).truthy = true := by
  refine decide_eq_true fun h => ?_
  rw [Nat.toString_eq_ofList_toDigits, ← String.toList_inj, String.toList_ofList] at h
  exact Nat.toDigits_ne_nil h

theorem truthy_ofNat {n : ℕ} : (ofNat n).truthy = true ↔ 1 ≤ n := by
  simp [truthy, ofNat]
  omega

end JsValue

namespace Arithmetic

/-- The arithmetic is that of the integers on what a count of `n` things takes, by portions of
    `o`. -/
structure Counts (A : Arithmetic) (n o : ℕ) : Prop where
  round_le : ∀ k : ℕ, k ≤ n + 2 → A.round k = .finite k
  round_mul : ∀ k : ℕ, k = 0 ∨ k * o < n → A.round ((k + 1) * o : ℕ) = .finite ((k + 1) * o : ℕ)
  portions : (JsDouble.div A.round (.finite n) (.finite o)).ceil = .finite (n ⌈/⌉ o : ℕ)
  toText : ∀ k : ℕ, k ≤ n + 2 → A.toText (.finite k) = toString k

section Counts

variable (n : ℕ) {o : ℕ} (ho : 1 ≤ o)

include ho

/-- The exact arithmetic is that of the integers everywhere. -/
theorem counts_exact : exact.Counts n o where
  round_le _ _ := rfl
  round_mul _ _ := rfl
  portions := by
    have hceil : ⌈(n : ℚ) / o⌉ = (n ⌈/⌉ o : ℕ) := Binary64.ceil_div ho n
    rw [JsDouble.div_finite _ (Nat.cast_nonneg n) (Nat.cast_pos.mpr ho)]
    show (JsDouble.finite _).ceil = _
    rw [JsDouble.ceil_finite (div_nonneg (Nat.cast_nonneg n) (Nat.cast_nonneg o)), hceil,
      Int.cast_natCast]
  toText _ _ := rfl

/-- Doubles are exact for up to 2^52 things, and any portion that is a double. -/
theorem counts_double (hn : n ≤ 2 ^ 52) (hdouble : (finite o).IsDouble) : double.Counts n o where
  round_le k hk := JsDouble.roundDouble_natCast (by omega)
  round_mul k hk := by
    rcases hk with rfl | hk
    · rw [Nat.zero_add, Nat.one_mul]
      exact hdouble
    · rcases Nat.eq_zero_or_pos k with rfl | hpos
      · rw [Nat.zero_add, Nat.one_mul]
        exact hdouble
      · refine JsDouble.roundDouble_natCast ?_
        have hle : o ≤ k * o := Nat.le_mul_of_pos_left o hpos
        rw [Nat.add_mul, Nat.one_mul]
        omega
  portions := JsDouble.ceil_div_natCast (by omega) ho hdouble
  toText k hk := JsDouble.toText_natCast (by omega)

end Counts

end Arithmetic

end Common
