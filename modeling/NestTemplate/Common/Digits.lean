import Mathlib.Algebra.Order.Ring.Nat
import Mathlib.Data.Char
import Mathlib.Data.List.Lex
import Mathlib.Tactic.GCongr
import Mathlib.Tactic.Positivity
import Mathlib.Tactic.Ring

/-!
# Texts of decimal digits and their order

* `lt_iff`: texts of digits are in the order of the decimal fractions they write.
* `value_append_twoDigits`: two more digits.
-/

namespace Common

namespace Digits

/-- The number a text of digits denotes. -/
def value (ds : List Char) : ℕ := Nat.ofDigitChars 10 ds 0

/-- The characters are digits. -/
def AreDigits (ds : List Char) : Prop := ∀ c ∈ ds, c.isDigit = true

/-- The last two digits of a number. -/
def twoDigits (n : ℕ) : List Char := [(n / 10 % 10).digitChar, (n % 10).digitChar]

theorem areDigits_append {ds es : List Char} (hds : AreDigits ds) (hes : AreDigits es) :
    AreDigits (ds ++ es) :=
  fun c hc => (List.mem_append.mp hc).elim (hds c) (hes c)

theorem areDigits_toDigits (n : ℕ) : AreDigits (Nat.toDigits 10 n) :=
  fun _ hc => Nat.isDigit_of_mem_toDigits (by decide) (by decide) hc

theorem areDigits_twoDigits (n : ℕ) : AreDigits (twoDigits n) := by
  have hdigit : ∀ k < 10, k.digitChar.isDigit = true :=
    fun k hk => Nat.isDigit_digitChar.trans (decide_eq_true hk)
  unfold twoDigits AreDigits
  simp only [List.forall_mem_cons, List.not_mem_nil, false_imp_iff, implies_true, and_true]
  exact ⟨hdigit _ (Nat.mod_lt _ (by decide)), hdigit _ (Nat.mod_lt _ (by decide))⟩

theorem toNat_of_isDigit {c : Char} (h : c.isDigit = true) : 48 ≤ c.toNat ∧ c.toNat ≤ 57 := by
  simpa [Char.isDigit, UInt32.le_iff_toNat_le] using h

/-! ## The number of a text -/

theorem value_cons (c : Char) (ds : List Char) :
    value (c :: ds) = (c.toNat - 48) * 10 ^ ds.length + value ds := by
  unfold value
  rw [Nat.ofDigitChars_cons, Nat.ofDigitChars_eq_ofDigitChars_zero, Nat.mul_zero, Nat.zero_add,
    Nat.mul_comm]
  rfl

theorem value_append (ds es : List Char) :
    value (ds ++ es) = value ds * 10 ^ es.length + value es := by
  unfold value
  rw [Nat.ofDigitChars_append, Nat.ofDigitChars_eq_ofDigitChars_zero, Nat.mul_comm]

theorem value_toDigits (n : ℕ) : value (Nat.toDigits 10 n) = n := Nat.ofDigitChars_ten_toDigits

theorem value_twoDigits {n : ℕ} (h : n < 100) : value (twoDigits n) = n := by
  unfold value twoDigits
  rw [Nat.ofDigitChars_cons_digitChar_of_lt_ten (Nat.mod_lt _ (by decide)),
    Nat.ofDigitChars_cons_digitChar_of_lt_ten (Nat.mod_lt _ (by decide)), Nat.ofDigitChars_nil]
  omega

/-- Two more digits. -/
theorem value_append_twoDigits (ds : List Char) {n : ℕ} (h : n < 100) :
    value (ds ++ twoDigits n) = value ds * 100 + n := by
  rw [value_append, value_twoDigits h]
  rfl

theorem value_lt {ds : List Char} (hds : AreDigits ds) : value ds < 10 ^ ds.length := by
  induction ds with
  | nil => decide
  | cons c ds ih =>
    have hc := toNat_of_isDigit (hds c (by simp))
    have ih := ih fun d hd => hds d (List.mem_cons_of_mem _ hd)
    rw [value_cons, List.length_cons]
    calc (c.toNat - 48) * 10 ^ ds.length + value ds
        < (c.toNat - 48) * 10 ^ ds.length + 10 ^ ds.length := by omega
      _ = (c.toNat - 48 + 1) * 10 ^ ds.length := by ring
      _ ≤ 10 * 10 ^ ds.length := Nat.mul_le_mul_right _ (by omega)
      _ = 10 ^ (ds.length + 1) := by ring

/-! ## The order -/

/-- A smaller first digit makes a smaller fraction. -/
theorem fraction_lt_of_lt {c d : Char} {ds : List Char} (hds : AreDigits ds) (es : List Char)
    (hcd : c.toNat - 48 < d.toNat - 48) :
    value (c :: ds) * 10 ^ (d :: es).length < value (d :: es) * 10 ^ (c :: ds).length := by
  have hlt := value_lt hds
  rw [value_cons, value_cons, List.length_cons, List.length_cons]
  calc ((c.toNat - 48) * 10 ^ ds.length + value ds) * 10 ^ (es.length + 1)
      < ((c.toNat - 48) * 10 ^ ds.length + 10 ^ ds.length) * 10 ^ (es.length + 1) := by gcongr
    _ = (c.toNat - 48 + 1) * 10 ^ es.length * 10 ^ (ds.length + 1) := by ring
    _ ≤ (d.toNat - 48) * 10 ^ es.length * 10 ^ (ds.length + 1) := by gcongr; omega
    _ ≤ ((d.toNat - 48) * 10 ^ es.length + value es) * 10 ^ (ds.length + 1) := by
        gcongr
        omega

/-- Under one first digit the fractions compare as the ones of the other digits. -/
theorem fraction_cons (c : Char) (ds es : List Char) :
    value (c :: ds) * 10 ^ (c :: es).length =
      (c.toNat - 48) * 10 ^ (ds.length + es.length + 1) + value ds * 10 ^ es.length * 10 := by
  rw [value_cons, List.length_cons]
  ring

/-- Texts of digits are in the order of the decimal fractions they write; of two that write one,
    the shorter is first. -/
theorem lt_iff {ds es : List Char} (hds : AreDigits ds) (hes : AreDigits es) : ds < es ↔
    value ds * 10 ^ es.length < value es * 10 ^ ds.length ∨
      value ds * 10 ^ es.length = value es * 10 ^ ds.length ∧ ds.length < es.length := by
  induction ds generalizing es with
  | nil =>
    cases es with
    | nil => simp
    | cons d es =>
      refine iff_of_true (List.nil_lt_cons _ _) ?_
      have hzero : value [] = 0 := rfl
      rw [hzero, Nat.zero_mul, List.length_nil, pow_zero, Nat.mul_one, List.length_cons]
      omega
  | cons c ds ih =>
    cases es with
    | nil => simp [value]
    | cons d es =>
      have hc := toNat_of_isDigit (hds c (by simp))
      have hd := toNat_of_isDigit (hes d (by simp))
      have hds' : AreDigits ds := fun e he => hds e (List.mem_cons_of_mem _ he)
      have hes' : AreDigits es := fun e he => hes e (List.mem_cons_of_mem _ he)
      rw [List.cons_lt_cons_iff]
      rcases lt_trichotomy c d with hlt | rfl | hgt
      · have hnat : c.toNat < d.toNat := hlt
        exact iff_of_true (.inl hlt) (.inl (fraction_lt_of_lt hds' es (by omega)))
      · simp only [lt_irrefl, false_or, true_and]
        rw [fraction_cons c ds es, fraction_cons c es ds, ih hds' hes', List.length_cons,
          List.length_cons, Nat.add_comm es.length]
        omega
      · have hnat : d.toNat < c.toNat := hgt
        have hback := fraction_lt_of_lt hes' ds (by omega : d.toNat - 48 < c.toNat - 48)
        refine iff_of_false ?_ (by omega)
        rintro (h | ⟨rfl, -⟩)
        · exact lt_asymm h hgt
        · exact lt_irrefl c hgt

end Digits

end Common
