import Mathlib.Data.List.DropRight
import NestTemplate.Common.Bytes
import NestTemplate.Common.Digits
import NestTemplate.Common.JsDouble

/-!
# The numbers that texts denote

`Number(text)` and `parseFloat(text)`: the numeric literals of JavaScript and
the double nearest to their value.

* `isDouble_number`: a text denotes a double.
* `number_of_digits`, `number_toString`: what a text of decimal digits denotes.
-/

namespace Common

namespace JsDouble

/-! ## Literals -/

/-- White space and line terminators. -/
def isSpace (c : Char) : Bool :=
  c.toNat ∈ [0x09, 0x0a, 0x0b, 0x0c, 0x0d, 0x20, 0xa0, 0x1680, 0x2028, 0x2029, 0x202f, 0x205f,
      0x3000, 0xfeff] ∨
    0x2000 ≤ c.toNat ∧ c.toNat ≤ 0x200a

/-- The sign of a literal, and the rest. -/
def signPart : List Char → Bool × List Char
  | '-' :: cs => (true, cs)
  | '+' :: cs => (false, cs)
  | cs => (false, cs)

/-- The exponent that a text starts with, or 0, and the rest. -/
def exponentPart : List Char → ℤ × List Char
  | [] => (0, [])
  | c :: cs =>
    let (negative, ds) := signPart cs
    let digits := ds.takeWhile Char.isDigit
    if (c = 'e' ∨ c = 'E') ∧ digits ≠ [] then
      let n : ℤ := Nat.ofDigitChars 10 digits 0
      (if negative then -n else n, ds.dropWhile Char.isDigit)
    else (0, c :: cs)

/-- The digits behind a point, and the rest. -/
def fractionPart : List Char → List Char × List Char
  | '.' :: cs => (cs.takeWhile Char.isDigit, cs.dropWhile Char.isDigit)
  | cs => ([], cs)

/-- The value of a decimal literal: the digits before and behind the point, and the exponent. -/
def decimalValue (whole fraction : List Char) (exponent : ℤ) : ℚ :=
  Digits.value (whole ++ fraction) * 10 ^ (exponent - fraction.length)

/-- The unsigned decimal literal that a text starts with, and the rest. -/
def unsignedDecimal (cs : List Char) : Option (ℚ × List Char) :=
  let whole := cs.takeWhile Char.isDigit
  let (fraction, rest) := fractionPart (cs.dropWhile Char.isDigit)
  if whole = [] ∧ fraction = [] then none
  else
    let (exponent, rest) := exponentPart rest
    some (decimalValue whole fraction exponent, rest)

/-- The decimal literal that a text starts with, and the rest. -/
def decimalLiteral (cs : List Char) : Option (JsDouble × List Char) :=
  let (negative, cs) := signPart cs
  if "Infinity".toList <+: cs then some (.infinity negative, cs.drop 8)
  else (unsignedDecimal cs).map fun (q, rest) => (withSign negative (roundDouble q), rest)

/-- The base that the letter of a literal stands for. -/
def radix (c : Char) : Option ℕ :=
  if c = 'x' ∨ c = 'X' then some 16
  else if c = 'o' ∨ c = 'O' then some 8
  else if c = 'b' ∨ c = 'B' then some 2
  else none

/-- A literal such as `0x1f`. -/
def radixLiteral : List Char → Option ℕ
  | '0' :: c :: d :: ds => (radix c).bind fun base =>
    ((d :: ds).mapM fun c => (hexValue c).filter (· < base)).map
      (List.foldl (fun n digit => base * n + digit) 0)
  | _ => none

/-- `Number(text)`. -/
def number (text : String) : JsDouble :=
  let cs := (text.toList.dropWhile isSpace).rdropWhile isSpace
  if cs = [] then .finite 0
  else
    match radixLiteral cs, decimalLiteral cs with
    | some n, _ => roundDouble n
    | none, some (x, []) => x
    | none, _ => .nan

/-- `parseFloat(text)`. -/
def parseFloat (text : String) : JsDouble :=
  (decimalLiteral (text.toList.dropWhile isSpace)).elim .nan Prod.fst

/-- A literal denotes a double. -/
theorem isDouble_decimalLiteral {cs rest : List Char} {x : JsDouble}
    (h : decimalLiteral cs = some (x, rest)) : x.IsDouble := by
  unfold decimalLiteral at h
  dsimp only at h
  split at h
  · cases h
    trivial
  · obtain ⟨⟨q, r⟩, -, heq⟩ := Option.map_eq_some_iff.mp h
    cases heq
    exact isDouble_withSign (isDouble_roundDouble q) _

/-- A text denotes a double. -/
theorem isDouble_number (text : String) : (number text).IsDouble := by
  unfold number
  dsimp only
  split
  · exact isDouble_zero
  · split
    · exact isDouble_roundDouble _
    · rename_i hdecimal
      exact isDouble_decimalLiteral hdecimal
    · trivial

/-- The double nearest to a natural number. -/
def Double.ofNat (n : ℕ) : Double := ⟨roundDouble n, isDouble_roundDouble n⟩

/-- The number that a text denotes. -/
def Double.ofText (text : String) : Double := ⟨number text, isDouble_number text⟩

/-! ## Texts of decimal digits -/

section Digits

variable {ds : List Char} (hds : Digits.AreDigits ds)

theorem not_isSpace_of_isDigit {c : Char} (h : c.isDigit = true) : isSpace c = false := by
  have := Digits.toNat_of_isDigit h
  refine decide_eq_false ?_
  simp only [List.mem_cons, List.not_mem_nil, or_false]
  omega

/-- A digit is no sign. -/
theorem signPart_of_isDigit {c : Char} (h : c.isDigit = true) (cs : List Char) :
    signPart (c :: cs) = (false, c :: cs) := by
  unfold signPart
  split
  · rename_i heq
    cases heq
    exact absurd h (by decide)
  · rename_i heq
    cases heq
    exact absurd h (by decide)
  · rfl

theorem not_infinity_of_isDigit {c : Char} (h : c.isDigit = true) (cs : List Char) :
    ¬ "Infinity".toList <+: c :: cs := by
  intro hprefix
  obtain rfl : 'I' = c := (List.cons_prefix_cons.mp hprefix).1
  exact absurd h (by decide)

/-- A digit is not the letter of a base. -/
theorem radix_of_isDigit {c : Char} (h : c.isDigit = true) : radix c = none := by
  have hne : ∀ e : Char, e.isDigit = false → c ≠ e := by
    rintro e he rfl
    rw [h] at he
    cases he
  unfold radix
  rw [if_neg (not_or.mpr ⟨hne 'x' (by decide), hne 'X' (by decide)⟩),
    if_neg (not_or.mpr ⟨hne 'o' (by decide), hne 'O' (by decide)⟩),
    if_neg (not_or.mpr ⟨hne 'b' (by decide), hne 'B' (by decide)⟩)]

include hds

theorem unsignedDecimal_of_digits (hne : ds ≠ []) :
    unsignedDecimal ds = some ((Digits.value ds : ℚ), []) := by
  have hwhole : ds.takeWhile Char.isDigit = ds := List.takeWhile_eq_self_iff.mpr hds
  have hrest : ds.dropWhile Char.isDigit = [] := List.dropWhile_eq_nil_iff.mpr hds
  unfold unsignedDecimal
  rw [hwhole, hrest]
  simp [fractionPart, exponentPart, hne, decimalValue]

theorem decimalLiteral_of_digits (hne : ds ≠ []) :
    decimalLiteral ds = some (roundDouble (Digits.value ds), []) := by
  obtain ⟨d, ds, rfl⟩ := List.exists_cons_of_ne_nil hne
  have hd : d.isDigit = true := hds d (List.mem_cons_self ..)
  unfold decimalLiteral
  simp only [signPart_of_isDigit hd]
  rw [if_neg (not_infinity_of_isDigit hd ds), unsignedDecimal_of_digits hds hne]
  rfl

theorem radixLiteral_of_digits : radixLiteral ds = none := by
  unfold radixLiteral
  split
  · rename_i c d ds
    have hc : c.isDigit = true := hds c (by simp)
    rw [radix_of_isDigit hc, Option.bind_none]
  · rfl

/-- A text of decimal digits denotes the double nearest to its value. -/
theorem number_of_digits (hne : ds ≠ []) :
    number (String.ofList ds) = roundDouble (Digits.value ds) := by
  have hleft : ds.dropWhile isSpace = ds := by
    obtain ⟨d, ds, rfl⟩ := List.exists_cons_of_ne_nil hne
    exact List.dropWhile_cons_of_neg (by rw [not_isSpace_of_isDigit (hds d (by simp))]; decide)
  have hright : ds.rdropWhile isSpace = ds := by
    rw [List.rdropWhile_eq_self_iff]
    intro h
    rw [not_isSpace_of_isDigit (hds _ (List.getLast_mem h))]
    decide
  unfold number
  simp only [String.toList_ofList, hleft, hright]
  rw [if_neg hne, radixLiteral_of_digits hds, decimalLiteral_of_digits hds hne]

end Digits

/-- The decimal text of an integer denotes the double nearest to it. -/
theorem number_toString (n : ℕ) : number (toString n) = roundDouble n := by
  rw [Nat.toString_eq_ofList_toDigits, number_of_digits (Digits.areDigits_toDigits n)
    Nat.toDigits_ne_nil, Digits.value_toDigits]

theorem parseFloat_toString (n : ℕ) : parseFloat (toString n) = roundDouble n := by
  have hdigits := Digits.areDigits_toDigits n
  have hleft : (Nat.toDigits 10 n).dropWhile isSpace = Nat.toDigits 10 n := by
    obtain ⟨d, ds, hds⟩ := List.exists_cons_of_ne_nil (Nat.toDigits_ne_nil (n := n) (b := 10))
    have hd := not_isSpace_of_isDigit (hdigits d (by rw [hds]; exact List.mem_cons_self))
    rw [hds]
    exact List.dropWhile_cons_of_neg (by simp [hd])
  unfold parseFloat
  rw [Nat.toString_eq_ofList_toDigits, String.toList_ofList, hleft,
    decimalLiteral_of_digits hdigits Nat.toDigits_ne_nil, Digits.value_toDigits]
  rfl

end JsDouble

end Common
