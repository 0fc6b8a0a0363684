import Mathlib.Data.List.TakeDrop
import NestTemplate.Common.JsNumeral

/-!
# `String(x)`

A number is written with the fewest digits that denote it, of these the ones
nearest to its value, and of two as near the even one. A point or an exponent
is put where the value is small, large or no integer.

* `nearest_shortestDecimal`: the digits denote the number.
* `decimalLiteral_chars`: a numeral is read as its value.
* `number_toText`: reading undoes writing, but for the sign of -0.
* `toText_natCast`: an integer up to 2^53 is written with its decimal digits.
-/

namespace Common

namespace JsDouble

open Binary64

/-! ## The shortest decimal -/

/-- The exponent of the first digit, and one: `10 ^ (n - 1) ≤ q < 10 ^ n`. -/
def pointOf (q : ℚ) : ℤ := Int.log 10 q + 1

/-- The two multiples of `10 ^ e` around `q`, the nearer one first, of two as near the even one. -/
def candidates (q : ℚ) (e : ℤ) : List ℕ :=
  let below := ⌊q / 10 ^ e⌋₊
  let rest := q / 10 ^ e - below
  if rest < 1 / 2 ∨ rest = 1 / 2 ∧ below % 2 = 0 then [below, below + 1] else [below + 1, below]

/-- The decimal of `k` digits that denotes `q`, if there is one: an integer and the exponent of its
    last digit. -/
def decimalOf (q : ℚ) (k : ℕ) : Option (ℕ × ℤ) :=
  let e := pointOf q - k
  ((candidates q e).find? fun s : ℕ => nearest (s * 10 ^ e) = q).map fun s =>
    if s = 10 ^ k then (1, e + k) else (s, e)

/-- The decimal of the fewest digits that denotes `q`; with `pointOf q + 1074` digits a double is
    written in full. -/
def shortestDecimal (q : ℚ) : ℕ × ℤ :=
  ((List.range (pointOf q + 1074).toNat).findSome? fun k => decimalOf q (k + 1)).getD (0, 0)

section Shortest

variable {q : ℚ}

theorem nearest_of_decimalOf {k : ℕ} {d : ℕ × ℤ} (h : decimalOf q k = some d) :
    nearest (d.1 * 10 ^ d.2) = q := by
  obtain ⟨s, hs, rfl⟩ := Option.map_eq_some_iff.mp h
  have hreads : nearest (s * 10 ^ (pointOf q - k)) = q := by simpa using List.find?_some hs
  split
  · rename_i hpower
    rw [hpower] at hreads
    push_cast at hreads
    rw [Nat.cast_one, one_mul, zpow_add₀ (by norm_num), mul_comm]
    exact_mod_cast hreads
  · exact hreads

/-- A multiple of `2 ^ -b` is one of `10 ^ -b`. -/
theorem exists_decimal {m b : ℕ} {e : ℤ} (h : -b ≤ e) :
    ∃ s : ℕ, (m * 2 ^ e : ℚ) = s * 10 ^ (-b : ℤ) := by
  obtain ⟨j, rfl⟩ : ∃ j : ℕ, e = j - b := ⟨(e + b).toNat, by omega⟩
  refine ⟨m * 2 ^ j * 5 ^ b, ?_⟩
  have hten : (10 : ℚ) ^ b = 2 ^ b * 5 ^ b := by rw [← mul_pow]; norm_num
  rw [zpow_sub₀ two_ne_zero, zpow_neg, zpow_natCast, zpow_natCast, zpow_natCast, hten]
  push_cast
  field_simp

theorem decimalOf_full (hq : OnGrid q) {k : ℕ} (hk : pointOf q - k = -1074) :
    (decimalOf q k).isSome := by
  obtain ⟨s, hs⟩ : ∃ s : ℕ, q = s * 10 ^ (-1074 : ℤ) := by
    obtain ⟨m, e, -, he, rfl⟩ := hq
    exact exists_decimal he
  have hcandidates : candidates q (-1074) = [s, s + 1] := by
    have hquotient : q / 10 ^ (-1074 : ℤ) = s := by
      rw [hs, mul_div_cancel_right₀ _ (zpow_ne_zero _ (by norm_num))]
    unfold candidates
    rw [hquotient, Nat.floor_natCast]
    exact if_pos (.inl (by rw [sub_self]; norm_num))
  have hfind : [s, s + 1].find? (fun s : ℕ => nearest (s * 10 ^ (-1074 : ℤ)) = q) = some s :=
    List.find?_cons_of_pos (decide_eq_true (by rw [← hs, nearest_of_onGrid hq]))
  unfold decimalOf
  simp only [hk, hcandidates, hfind, Option.map_some, Option.isSome_some]

/-- The digits denote the number. -/
theorem nearest_shortestDecimal (hq : OnGrid q) (hpos : 0 < q) :
    nearest ((shortestDecimal q).1 * 10 ^ (shortestDecimal q).2) = q := by
  have hpoint : -1074 < pointOf q := by
    obtain ⟨m, e, -, he, rfl⟩ := hq
    have hm : 1 ≤ m := by
      by_contra hzero
      obtain rfl : m = 0 := by omega
      simp at hpos
    have hten : ((10 : ℕ) : ℚ) ^ (-1074 : ℤ) ≤ 2 ^ (-1074 : ℤ) := by
      rw [zpow_neg, zpow_neg]
      exact inv_anti₀ (zpow_pos_two _) (zpow_le_zpow_left₀ (by decide) (by norm_num) (by norm_num))
    have hlow : ((10 : ℕ) : ℚ) ^ (-1074 : ℤ) ≤ m * 2 ^ e := by
      calc ((10 : ℕ) : ℚ) ^ (-1074 : ℤ) ≤ 2 ^ e := hten.trans (zpow_le_zpow_right₀ one_le_two he)
        _ ≤ m * 2 ^ e := le_mul_of_one_le_left (zpow_pos_two e).le (by exact_mod_cast hm)
    have := (Int.zpow_le_iff_le_log (by decide) hpos).mp hlow
    unfold pointOf
    omega
  have hfound : (((List.range (pointOf q + 1074).toNat).findSome?
      fun k => decimalOf q (k + 1))).isSome := by
    rw [List.findSome?_isSome_iff]
    refine ⟨(pointOf q + 1074).toNat - 1, List.mem_range.mpr (by omega), ?_⟩
    exact decimalOf_full hq (by omega)
  obtain ⟨d, hd⟩ := Option.isSome_iff_exists.mp hfound
  obtain ⟨k, -, hk⟩ := List.exists_of_findSome?_eq_some hd
  unfold shortestDecimal
  rw [hd, Option.getD_some]
  exact nearest_of_decimalOf hk

end Shortest

/-! ## Numerals -/

/-- A numeral without a sign. -/
structure Numeral where
  whole : List Char
  fraction : List Char := []
  exponent : Option ℤ := none

namespace Numeral

/-- The point and what is behind it. -/
def fractionChars (fraction : List Char) : List Char :=
  if fraction = [] then [] else '.' :: fraction

/-- The exponent with its sign. -/
def exponentChars : Option ℤ → List Char
  | none => []
  | some e => 'e' :: (if 0 ≤ e then '+' else '-') :: Nat.toDigits 10 e.natAbs

def chars (d : Numeral) : List Char :=
  d.whole ++ (fractionChars d.fraction ++ exponentChars d.exponent)

def value (d : Numeral) : ℚ := decimalValue d.whole d.fraction (d.exponent.getD 0)

/-- Digits where digits belong, and no zero in front of others. -/
structure Valid (d : Numeral) : Prop where
  whole : Digits.AreDigits d.whole
  whole_ne_nil : d.whole ≠ []
  leading : d.whole.head? = some '0' → d.whole = ['0']
  fraction : Digits.AreDigits d.fraction

/-- The layout of `s * 10 ^ e`: where the point is put, and whether there is an exponent. -/
def ofDecimal (s : ℕ) (e : ℤ) : Numeral :=
  let ds := Nat.toDigits 10 s
  let n := e + ds.length
  if ds.length ≤ n ∧ n ≤ 21 then { whole := ds ++ List.replicate e.toNat '0' }
  else if 0 < n ∧ n ≤ 21 then { whole := ds.take n.toNat, fraction := ds.drop n.toNat }
  else if -6 < n ∧ n ≤ 0 then
    { whole := ['0'], fraction := List.replicate (-n).toNat '0' ++ ds }
  else { whole := ds.take 1, fraction := ds.drop 1, exponent := some (n - 1) }

theorem areDigits_replicate_zero (n : ℕ) : Digits.AreDigits (List.replicate n '0') := by
  intro c hc
  rw [List.eq_of_mem_replicate hc]
  decide

theorem value_replicate_zero (n : ℕ) : Digits.value (List.replicate n '0') = 0 := by
  unfold Digits.value
  rw [Nat.ofDigitChars_replicate_zero, Nat.mul_zero]

/-- A positive number does not start with a zero. -/
theorem head?_toDigits {s : ℕ} (hs : 0 < s) : (Nat.toDigits 10 s).head? ≠ some '0' := by
  intro h
  obtain ⟨ds, hds⟩ : ∃ ds, Nat.toDigits 10 s = '0' :: ds := List.head?_eq_some_iff.mp h
  have hvalue : Digits.value ds = s := by
    rw [← Digits.value_toDigits s, hds, Digits.value_cons]
    simp
  have hdigits : Digits.AreDigits ds := fun c hc =>
    Digits.areDigits_toDigits s c (hds ▸ List.mem_cons_of_mem _ hc)
  have hlt := Digits.value_lt hdigits
  rw [hvalue] at hlt
  rcases Nat.eq_zero_or_pos ds.length with hzero | hpos
  · rw [hzero] at hlt
    omega
  · have hle := (Nat.length_toDigits_le_iff (by decide) hpos).mpr hlt
    rw [hds, List.length_cons] at hle
    omega

theorem valid_ofDecimal {s : ℕ} (hs : 0 < s) (e : ℤ) : (ofDecimal s e).Valid := by
  have hdigits := Digits.areDigits_toDigits s
  have hne : Nat.toDigits 10 s ≠ [] := Nat.toDigits_ne_nil
  have htake : ∀ n : ℕ, 0 < n → (Nat.toDigits 10 s).take n ≠ [] ∧
      ((Nat.toDigits 10 s).take n).head? ≠ some '0' := by
    intro n hn
    obtain ⟨d, ds, hds⟩ := List.exists_cons_of_ne_nil hne
    have hhead := head?_toDigits hs
    rw [hds] at hhead ⊢
    obtain ⟨n, rfl⟩ := Nat.exists_eq_succ_of_ne_zero hn.ne'
    exact ⟨List.cons_ne_nil _ _, hhead⟩
  unfold ofDecimal
  dsimp only
  split
  · refine ⟨Digits.areDigits_append hdigits (areDigits_replicate_zero _), by simp [hne], ?_,
      List.forall_mem_nil _⟩
    intro h
    rw [List.head?_append_of_ne_nil _ hne] at h
    exact absurd h (head?_toDigits hs)
  split
  · obtain ⟨hnil, hhead⟩ := htake (e + (Nat.toDigits 10 s).length).toNat (by omega)
    exact ⟨fun c hc => hdigits c (List.mem_of_mem_take hc), hnil, fun h => absurd h hhead,
      fun c hc => hdigits c (List.mem_of_mem_drop hc)⟩
  split
  · refine ⟨?_, by simp, fun _ => rfl, ?_⟩
    · exact areDigits_replicate_zero 1
    · exact Digits.areDigits_append (areDigits_replicate_zero _) hdigits
  · obtain ⟨hnil, hhead⟩ := htake 1 (by decide)
    exact ⟨fun c hc => hdigits c (List.mem_of_mem_take hc), hnil, fun h => absurd h hhead,
      fun c hc => hdigits c (List.mem_of_mem_drop hc)⟩

/-- The layout does not change the value. -/
theorem value_ofDecimal {s : ℕ} (e : ℤ) : (ofDecimal s e).value = s * 10 ^ e := by
  have hvalue := Digits.value_toDigits s
  unfold ofDecimal
  dsimp only
  split
  · rename_i h
    have he : 0 ≤ e := by omega
    show (Digits.value ((Nat.toDigits 10 s ++ List.replicate e.toNat '0') ++ []) : ℚ) *
      10 ^ ((0 : ℤ) - (0 : ℕ)) = _
    rw [List.append_nil, Digits.value_append, hvalue, value_replicate_zero, List.length_replicate]
    obtain ⟨n, rfl⟩ := Int.eq_ofNat_of_zero_le he
    simp
  split
  · rename_i h
    show (Digits.value ((Nat.toDigits 10 s).take _ ++ (Nat.toDigits 10 s).drop _) : ℚ) *
      10 ^ ((0 : ℤ) - ((Nat.toDigits 10 s).drop _).length) = _
    rw [List.take_append_drop, hvalue, List.length_drop]
    congr 2
    omega
  split
  · show (Digits.value (['0'] ++ (List.replicate _ '0' ++ Nat.toDigits 10 s)) : ℚ) *
      10 ^ ((0 : ℤ) - (List.replicate _ '0' ++ Nat.toDigits 10 s).length) = _
    rw [← List.append_assoc, Digits.value_append, hvalue,
      show ['0'] = List.replicate 1 '0' from rfl, List.replicate_append_replicate,
      value_replicate_zero, zero_mul, zero_add, List.length_append, List.length_replicate]
    congr 2
    push_cast
    omega
  · show (Digits.value ((Nat.toDigits 10 s).take 1 ++ (Nat.toDigits 10 s).drop 1) : ℚ) *
      10 ^ (e + (Nat.toDigits 10 s).length - 1 - ((Nat.toDigits 10 s).drop 1).length) = _
    rw [List.take_append_drop, hvalue, List.length_drop]
    have hlength : 0 < (Nat.toDigits 10 s).length := Nat.length_toDigits_pos
    congr 2
    omega

end Numeral

/-! ## Reading a numeral -/

namespace Numeral

/-- The characters of a numeral and of its sign. -/
def IsNumeralChar (c : Char) : Prop := c.isDigit = true ∨ c ∈ ['.', 'e', '+', '-']

theorem isNumeralChar_chars {d : Numeral} (hd : d.Valid) : ∀ c ∈ d.chars, IsNumeralChar c := by
  intro c hc
  unfold chars fractionChars exponentChars at hc
  rcases List.mem_append.mp hc with hc | hc
  · exact .inl (hd.whole c hc)
  rcases List.mem_append.mp hc with hc | hc
  · split at hc
    · exact absurd hc List.not_mem_nil
    · rcases List.mem_cons.mp hc with rfl | hc
      · exact .inr (by decide)
      · exact .inl (hd.fraction c hc)
  · split at hc
    · exact absurd hc List.not_mem_nil
    · rename_i e _
      rcases List.mem_cons.mp hc with rfl | hc
      · exact .inr (by decide)
      rcases List.mem_cons.mp hc with rfl | hc
      · split
        · exact .inr (by decide)
        · exact .inr (by decide)
      · exact .inl (Digits.areDigits_toDigits e.natAbs c hc)

theorem IsNumeralChar.isSpace {c : Char} (h : IsNumeralChar c) : isSpace c = false := by
  rcases h with h | h
  · exact not_isSpace_of_isDigit h
  · simp only [List.mem_cons, List.not_mem_nil, or_false] at h
    rcases h with rfl | rfl | rfl | rfl <;> decide

theorem IsNumeralChar.radix {c : Char} (h : IsNumeralChar c) : radix c = none := by
  rcases h with h | h
  · exact radix_of_isDigit h
  · simp only [List.mem_cons, List.not_mem_nil, or_false] at h
    rcases h with rfl | rfl | rfl | rfl <;> decide

/-- Text that does not go on with digits. -/
def EndsDigits (cs : List Char) : Prop := ∀ c ∈ cs.head?, c.isDigit = false

theorem endsDigits_exponentChars (e : Option ℤ) : EndsDigits (exponentChars e) := by
  unfold exponentChars EndsDigits
  cases e with
  | none => simp
  | some e => simp

theorem endsDigits_tail (fraction : List Char) (e : Option ℤ) :
    EndsDigits (fractionChars fraction ++ exponentChars e) := by
  unfold fractionChars
  split
  · exact endsDigits_exponentChars e
  · simp [EndsDigits]

theorem takeWhile_digits {ds rest : List Char} (hds : Digits.AreDigits ds) (h : EndsDigits rest) :
    (ds ++ rest).takeWhile Char.isDigit = ds ∧ (ds ++ rest).dropWhile Char.isDigit = rest := by
  have hrest : rest.takeWhile Char.isDigit = [] ∧ rest.dropWhile Char.isDigit = rest := by
    cases rest with
    | nil => exact ⟨rfl, rfl⟩
    | cons c cs =>
      have hc : ¬ c.isDigit = true := by simp [h c rfl]
      exact ⟨List.takeWhile_cons_of_neg hc, List.dropWhile_cons_of_neg hc⟩
  rw [List.takeWhile_append_of_pos hds, List.dropWhile_append_of_pos hds, hrest.1, hrest.2,
    List.append_nil]
  exact ⟨rfl, rfl⟩

theorem exponentPart_exponentChars (e : Option ℤ) :
    exponentPart (exponentChars e) = (e.getD 0, []) := by
  cases e with
  | none => rfl
  | some e =>
    have hend : EndsDigits [] := by simp [EndsDigits]
    have hdigits := takeWhile_digits (Digits.areDigits_toDigits e.natAbs) hend
    rw [List.append_nil] at hdigits
    have hsign : signPart ((if 0 ≤ e then '+' else '-') :: Nat.toDigits 10 e.natAbs) =
        (decide (e < 0), Nat.toDigits 10 e.natAbs) := by
      by_cases he : 0 ≤ e
      · rw [if_pos he, decide_eq_false (by omega)]
        rfl
      · rw [if_neg he, decide_eq_true (by omega)]
        rfl
    have hvalue : (Nat.ofDigitChars 10 (Nat.toDigits 10 e.natAbs) 0 : ℤ) = |e| := by
      rw [Nat.ofDigitChars_ten_toDigits, Int.natCast_natAbs]
    unfold exponentChars exponentPart
    simp only [hsign, hdigits.1, hdigits.2, hvalue]
    rw [if_pos ⟨.inl trivial, Nat.toDigits_ne_nil⟩]
    by_cases he : e < 0
    · simp [he, abs_of_neg he]
    · simp [he, abs_of_nonneg (not_lt.mp he)]

theorem fractionPart_tail {fraction : List Char} (h : Digits.AreDigits fraction) (e : Option ℤ) :
    fractionPart (fractionChars fraction ++ exponentChars e) = (fraction, exponentChars e) := by
  unfold fractionChars
  split
  · rename_i hnil
    subst hnil
    cases e with
    | none => rfl
    | some e => rfl
  · have hdigits := takeWhile_digits h (endsDigits_exponentChars e)
    exact Prod.ext hdigits.1 hdigits.2

/-- A numeral is read as its value, up to its end. -/
theorem unsignedDecimal_chars {d : Numeral} (hd : d.Valid) :
    unsignedDecimal d.chars = some (d.value, []) := by
  have hdigits := takeWhile_digits hd.whole (endsDigits_tail d.fraction d.exponent)
  unfold unsignedDecimal chars
  simp only [hdigits.1, hdigits.2, fractionPart_tail hd.fraction, exponentPart_exponentChars]
  rw [if_neg fun h => hd.whole_ne_nil h.1]
  rfl

/-- The sign in front of a numeral. -/
def signed (negative : Bool) (cs : List Char) : List Char := if negative then '-' :: cs else cs

/-- The first character of a numeral is a digit. -/
theorem exists_head {d : Numeral} (hd : d.Valid) : ∃ c cs, d.chars = c :: cs ∧ c.isDigit = true := by
  obtain ⟨c, cs, hwhole⟩ := List.exists_cons_of_ne_nil hd.whole_ne_nil
  refine ⟨c, cs ++ (fractionChars d.fraction ++ exponentChars d.exponent), ?_,
    hd.whole c (hwhole ▸ List.mem_cons_self)⟩
  unfold chars
  rw [hwhole, List.cons_append]

theorem decimalLiteral_chars {d : Numeral} (hd : d.Valid) (negative : Bool) :
    decimalLiteral (signed negative d.chars) = some (withSign negative (roundDouble d.value), []) := by
  obtain ⟨c, cs, hchars, hc⟩ := exists_head hd
  have hsign : signPart (signed negative d.chars) = (negative, d.chars) := by
    cases negative with
    | true => rfl
    | false =>
      rw [hchars]
      exact signPart_of_isDigit hc cs
  have hinfinity : ¬ "Infinity".toList <+: d.chars := by
    rw [hchars]
    exact not_infinity_of_isDigit hc cs
  unfold decimalLiteral
  simp only [hsign]
  rw [if_neg hinfinity, unsignedDecimal_chars hd]
  rfl

theorem number_chars {d : Numeral} (hd : d.Valid) (negative : Bool) :
    number (String.ofList (signed negative d.chars)) =
      withSign negative (roundDouble d.value) := by
  have hchars : ∀ c ∈ signed negative d.chars, IsNumeralChar c := by
    intro c hc
    unfold signed at hc
    split at hc
    · rcases List.mem_cons.mp hc with rfl | hc
      · exact .inr (by decide)
      · exact isNumeralChar_chars hd c hc
    · exact isNumeralChar_chars hd c hc
  have hne : signed negative d.chars ≠ [] := by
    obtain ⟨c, cs, hcs, -⟩ := exists_head hd
    unfold signed
    split
    · exact List.cons_ne_nil _ _
    · rw [hcs]
      exact List.cons_ne_nil _ _
  have hradix : radixLiteral (signed negative d.chars) = none := by
    unfold radixLiteral
    split
    · rename_i c _ _ heq
      rw [(hchars c (by rw [heq]; simp)).radix, Option.bind_none]
    · rfl
  have hleft : (signed negative d.chars).dropWhile isSpace = signed negative d.chars := by
    obtain ⟨c, cs, hcs⟩ := List.exists_cons_of_ne_nil hne
    have hspace := (hchars c (by simp [hcs])).isSpace
    rw [hcs]
    exact List.dropWhile_cons_of_neg (by simp [hspace])
  have hright : (signed negative d.chars).rdropWhile isSpace = signed negative d.chars := by
    rw [List.rdropWhile_eq_self_iff]
    intro h
    rw [(hchars _ (List.getLast_mem h)).isSpace]
    decide
  unfold number
  simp only [String.toList_ofList, hleft, hright]
  rw [if_neg hne, hradix, decimalLiteral_chars hd]

end Numeral

/-! ## `String(x)` -/

/-- The characters of a finite number. -/
def finiteChars (q : ℚ) : List Char :=
  if q = 0 then ['0']
  else Numeral.signed (q < 0)
    (Numeral.ofDecimal (shortestDecimal |q|).1 (shortestDecimal |q|).2).chars

/-- `String(x)`. -/
def toText : JsDouble → String
  | .nan => "NaN"
  | .infinity false => "Infinity"
  | .infinity true => "-Infinity"
  | .negZero => "0"
  | .finite q => String.ofList (finiteChars q)

/-- The magnitude of a double is one of 53 bits, and not too large. -/
theorem onGrid_abs {q : ℚ} (hq : (finite q).IsDouble) : OnGrid |q| ∧ |q| < limit := by
  rw [← isDouble_finite_iff (abs_nonneg q)]
  by_cases hneg : q < 0
  · rw [abs_of_neg hneg, ← neg_finite_of_ne hneg.ne]
    exact isDouble_neg hq
  · rwa [abs_of_nonneg (not_lt.mp hneg)]

/-- The digits of a number are not all zero. -/
theorem shortestDecimal_pos {q : ℚ} (hq : OnGrid q) (hpos : 0 < q) : 0 < (shortestDecimal q).1 := by
  have hreads := nearest_shortestDecimal hq hpos
  rcases Nat.eq_zero_or_pos (shortestDecimal q).1 with hzero | h
  · rw [hzero, Nat.cast_zero, zero_mul, nearest_zero] at hreads
    exact absurd hreads hpos.ne
  · exact h

theorem valid_finite {q : ℚ} (hq : (finite q).IsDouble) (hne : q ≠ 0) :
    (Numeral.ofDecimal (shortestDecimal |q|).1 (shortestDecimal |q|).2).Valid :=
  Numeral.valid_ofDecimal (shortestDecimal_pos (onGrid_abs hq).1 (abs_pos.mpr hne)) _

/-- Reading undoes writing, but for the sign of -0. -/
theorem number_toText {x : JsDouble} (hx : x.IsDouble) : number (toText x) = x.mapKey := by
  match x, hx with
  | .nan, _ => rfl
  | .infinity true, _ | .infinity false, _ => rfl
  | .negZero, _ => exact (number_toString 0).trans isDouble_zero
  | .finite q, hx =>
    by_cases hq : q = 0
    · subst hq
      exact (number_toString 0).trans isDouble_zero
    · obtain ⟨hgrid, hlimit⟩ := onGrid_abs hx
      have hreads := nearest_shortestDecimal hgrid (abs_pos.mpr hq)
      have hround : roundDouble (Numeral.ofDecimal (shortestDecimal |q|).1
          (shortestDecimal |q|).2).value = .finite |q| := by
        rw [Numeral.value_ofDecimal, roundDouble_eq_finite
          (mul_nonneg (Nat.cast_nonneg _) (zpow_nonneg (by norm_num) _))]
        exact ⟨hreads, hlimit⟩
      show number (String.ofList (finiteChars q)) = .finite q
      unfold finiteChars
      rw [if_neg hq, Numeral.number_chars (valid_finite hx hq), hround]
      by_cases hneg : q < 0
      · rw [decide_eq_true hneg, abs_of_neg hneg]
        exact (neg_finite_of_ne (neg_ne_zero.mpr hq)).trans (by rw [InvolutiveNeg.neg_neg])
      · rw [decide_eq_false hneg, abs_of_nonneg (not_lt.mp hneg)]
        rfl

/-! ## Integers -/

/-- Zeros behind the digits multiply by ten. -/
theorem toDigits_mul_pow {s : ℕ} (hs : 0 < s) (e : ℕ) :
    Nat.toDigits 10 s ++ List.replicate e '0' = Nat.toDigits 10 (s * 10 ^ e) := by
  induction e with
  | zero => rw [List.replicate_zero, List.append_nil, Nat.pow_zero, Nat.mul_one]
  | succ e ih =>
    have hpos : 0 < s * 10 ^ e := by positivity
    have hdigit := Nat.toDigits_append_toDigits (b := 10) (by decide) hpos (d := 0) (by decide)
    rw [List.replicate_succ', ← List.append_assoc, ih]
    refine hdigit.trans ?_
    rw [Nat.add_zero, Nat.pow_succ, Nat.mul_comm 10, Nat.mul_assoc]

/-- With as many digits as it has, an integer is written in full. -/
theorem decimalOf_natCast {n k : ℕ} (hn : n ≤ 2 ^ 53) (hk : pointOf n = k) :
    (decimalOf n k).isSome := by
  have hcandidates : candidates n 0 = [n, n + 1] := by
    unfold candidates
    rw [zpow_zero, div_one, Nat.floor_natCast]
    exact if_pos (.inl (by rw [sub_self]; norm_num))
  have hfind : [n, n + 1].find? (fun s : ℕ => nearest (s * 10 ^ (0 : ℤ)) = n) = some n :=
    List.find?_cons_of_pos (decide_eq_true (by rw [zpow_zero, mul_one, nearest_natCast hn]))
  unfold decimalOf
  simp only [hk, sub_self, hcandidates, hfind, Option.map_some, Option.isSome_some]

/-- The shortest decimal of an integer has no fraction. -/
theorem shortestDecimal_nonneg {n : ℕ} (hn : n ≤ 2 ^ 53) :
    0 ≤ (shortestDecimal n).2 := by
  obtain ⟨k, hk⟩ : ∃ k : ℕ, pointOf n = (k + 1 : ℕ) := by
    have hlog : 0 ≤ Int.log 10 (n : ℚ) := by
      rw [Int.log_natCast]
      exact Int.natCast_nonneg _
    refine ⟨(Int.log 10 (n : ℚ)).toNat, ?_⟩
    unfold pointOf
    omega
  have hfull := decimalOf_natCast hn hk
  have hfound : (((List.range (pointOf n + 1074).toNat).findSome?
      fun k => decimalOf n (k + 1))).isSome := by
    rw [List.findSome?_isSome_iff]
    exact ⟨k, List.mem_range.mpr (by omega), hfull⟩
  obtain ⟨d, hd⟩ := Option.isSome_iff_exists.mp hfound
  obtain ⟨before, i, after, hrange, hi, hnone⟩ := List.findSome?_eq_some_iff.mp hd
  -- the search has not passed the number of digits that writes it in full
  have hik : i ≤ k := by
    by_contra hlt
    have hmem : k ∈ before := by
      have hk' : k ∈ before ++ i :: after := hrange ▸ List.mem_range.mpr (by omega)
      have hsorted : (before ++ i :: after).Pairwise (· < ·) := hrange ▸ List.pairwise_lt_range
      have hafter := (List.pairwise_cons.mp (List.pairwise_append.mp hsorted).2.1).1
      rcases List.mem_append.mp hk' with h | h
      · exact h
      · rcases List.mem_cons.mp h with rfl | h
        · omega
        · have := hafter k h
          omega
    rw [hnone k hmem] at hfull
    cases hfull
  unfold shortestDecimal
  rw [hd, Option.getD_some]
  obtain ⟨s, -, rfl⟩ := Option.map_eq_some_iff.mp hi
  split
  · show 0 ≤ pointOf n - (i + 1 : ℕ) + (i + 1 : ℕ)
    omega
  · show 0 ≤ pointOf n - (i + 1 : ℕ)
    omega

/-- An integer of up to 53 bits is written with its decimal digits. -/
theorem toText_natCast {n : ℕ} (hn : n < 2 ^ 53) : toText (.finite n) = toString n := by
  show String.ofList (finiteChars n) = toString n
  rw [Nat.toString_eq_ofList_toDigits]
  refine congrArg String.ofList ?_
  unfold finiteChars
  rcases Nat.eq_zero_or_pos n with rfl | hpos
  · rw [Nat.cast_zero, if_pos rfl]
    rfl
  have hq : (0 : ℚ) < n := Nat.cast_pos.mpr hpos
  have hgrid := onGrid_natCast hn.le
  have hreads := nearest_shortestDecimal hgrid hq
  have hs := shortestDecimal_pos hgrid hq
  obtain ⟨e, he⟩ := Int.eq_ofNat_of_zero_le (shortestDecimal_nonneg hn.le)
  rw [if_neg hq.ne', decide_eq_false (not_lt.mpr hq.le), Nat.abs_cast]
  show (Numeral.ofDecimal (shortestDecimal n).1 (shortestDecimal n).2).chars = _
  rw [he] at hreads ⊢
  generalize (shortestDecimal n).1 = s at hreads hs ⊢
  -- the decimal is an integer that is rounded to `n`, so it is `n`
  have hvalue : s * 10 ^ e = n := by
    have hcast : (s : ℚ) * 10 ^ (e : ℤ) = (s * 10 ^ e : ℕ) := by
      rw [zpow_natCast]
      push_cast
      rfl
    rw [hcast] at hreads
    have hle : s * 10 ^ e ≤ 2 ^ 53 := by
      by_contra hlarge
      have hround := le_nearest (onGrid_natCast le_rfl) (Nat.cast_nonneg (s * 10 ^ e))
        (by exact_mod_cast (not_le.mp hlarge).le)
      rw [hreads] at hround
      have : 2 ^ 53 ≤ n := by exact_mod_cast hround
      omega
    rw [nearest_natCast hle] at hreads
    exact_mod_cast hreads
  have hlength : (e : ℤ) + (Nat.toDigits 10 s).length ≤ 21 := by
    have hdigits := congrArg List.length (toDigits_mul_pow hs e)
    rw [hvalue, List.length_append, List.length_replicate] at hdigits
    have hbound := (Nat.length_toDigits_le_iff (b := 10) (n := n) (k := 16) (by decide)
      (by decide)).mpr (hn.trans (by norm_num))
    omega
  unfold Numeral.ofDecimal
  dsimp only
  rw [if_pos ⟨by omega, hlength⟩]
  show Nat.toDigits 10 s ++ List.replicate (e : ℤ).toNat '0' ++ ([] ++ []) = _
  rw [Int.toNat_natCast, toDigits_mul_pow hs, hvalue, List.append_nil, List.append_nil]

end JsDouble

end Common
