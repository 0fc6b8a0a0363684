import NestTemplate.Http.PageTraversal

/-!
# The forms of a page and a page size

A page and a page size may be missing, a number, or the decimal text of one from
a query parameter. A model of PostgreSQL refuses a negative offset, which is
what a page that is missing or 0 asks for.

* `answer_of_ok`, `answer_number`: the values for a page size that is a number.
* `wellDefined_number_iff`, `wellDefined_text_iff`: a page that is a number, and one that is a text.
* `wellDefined_iff`: for which options the values are what they are for.
-/

namespace NestTemplate

open Common

/-- An integer that is a double. -/
structure JsNat where
  value : ℕ
  isDouble : (JsDouble.finite value).IsDouble

/-- A page or a page size: not given, a number, or its decimal text from a query parameter. -/
inductive PageOption where
  | absent
  | number (n : JsNat)
  | text (n : ℕ)

namespace PageOption

/-- The option that is passed. -/
def value : PageOption → Option JsValue
  | .absent => none
  | .number n => some (.ofNat n.value)
  | .text n => some (.decimal n)

/-- The option with the number that a text denotes. -/
def denoted : PageOption → Option JsValue
  | .text n => some (.number (JsDouble.number (toString n)))
  | o => o.value

/-- The page or page size is this number. -/
def IsNumber (o : PageOption) (p : ℕ) : Prop := ∃ n : JsNat, o = .number n ∧ n.value = p

/-- The page or page size is a text that denotes this number. -/
def IsText (o : PageOption) (p : ℕ) : Prop :=
  ∃ n : ℕ, o = .text n ∧ JsDouble.number (toString n) = .finite p

@[simp] theorem not_isNumber_absent (p : ℕ) : ¬ absent.IsNumber p := by
  rintro ⟨n, h, -⟩
  cases h

@[simp] theorem not_isText_absent (p : ℕ) : ¬ absent.IsText p := by
  rintro ⟨n, h, -⟩
  cases h

@[simp] theorem isNumber_number (n : JsNat) (p : ℕ) : (number n).IsNumber p ↔ n.value = p := by
  constructor
  · rintro ⟨n', h, rfl⟩
    cases h
    rfl
  · exact fun h => ⟨n, rfl, h⟩

@[simp] theorem not_isText_number (n : JsNat) (p : ℕ) : ¬ (number n).IsText p := by
  rintro ⟨n', h, -⟩
  cases h

@[simp] theorem not_isNumber_text (n p : ℕ) : ¬ (text n).IsNumber p := by
  rintro ⟨n', h, -⟩
  cases h

@[simp] theorem isText_text (n p : ℕ) :
    (text n).IsText p ↔ JsDouble.number (toString n) = .finite p := by
  constructor
  · rintro ⟨n', h, hp⟩
    cases h
    exact hp
  · exact fun h => ⟨n, rfl, h⟩

end PageOption

/-- A table of PostgreSQL with `total` rows: whenever it answers a query the count is this one, and
    it refuses a negative offset. -/
structure CountsRows {ε α : Type} (findAndCountAll : FindAndCountAll ε α) (total : JsNat) :
    Prop where
  count : ∀ {limit : JsValue} {start : JsDouble} {data : JsDouble × List α},
    findAndCountAll limit start = .ok data → data.1 = .finite total.value
  refuses : ∀ {limit : JsValue} {start : JsDouble} {data : JsDouble × List α},
    start.lt (.finite 0) = true → findAndCountAll limit start ≠ .ok data

section Answer

open OverwritePaginateService

variable {ε α : Type} (options : PaginateOptions) (findAndCountAll : FindAndCountAll ε α)

/-- `meta` of the payload for a page and a page size, with the registered `PAGINATE_OPTIONS`. -/
def answer (page offset : Option JsValue) : Except ε PaginateMeta :=
  (findAllPaginate .double {} { options with page, offset } findAndCountAll).map
    PaginatePayload.meta_

/-- The values of `meta` are what they are for. -/
structure PaginateMeta.Meaningful (m : PaginateMeta) : Prop where
  totalPages : ∃ t : ℕ, m.totalPages = .finite t ∧ (m.nextPage = .null ∨
    ∃ p : ℚ, m.page = .finite p ∧ m.nextPage = .number (.finite (p + 1)) ∧ p + 1 ≤ t)
  prevPage : m.prevPage = .null ∨
    ∃ p : ℚ, m.page = .finite p ∧ m.prevPage = .number (.finite (p - 1)) ∧ 1 ≤ p - 1

/-- There are values, they are what they are for, and a text gives those of the number it
    denotes. -/
def WellDefined (page offset : PageOption) : Prop :=
  ∃ m, answer options findAndCountAll page.value offset.value = .ok m ∧ m.Meaningful ∧
    answer options findAndCountAll page.denoted offset.denoted = .ok m

/-! ## What the options are used as -/

section Values

variable {options findAndCountAll} {total : JsNat} {page offset : Option JsValue}

/-- There is an answer where the database gives one, and this is its `meta`. -/
theorem answer_eq_ok (hfind : CountsRows findAndCountAll total) {m : PaginateMeta} :
    answer options findAndCountAll page offset = .ok m ↔
      (∃ data, findAndCountAll (firstOf offset none)
        (startOf .double (firstOf page none) (firstOf offset none)) = .ok data) ∧
      m = metaOf .double (firstOf page none) (firstOf offset none) (.finite total.value) := by
  unfold answer findAllPaginate
  dsimp only
  cases hdata : findAndCountAll (firstOf offset none)
      (startOf .double (firstOf page none) (firstOf offset none)) with
  | error e =>
    refine iff_of_false (fun h => nomatch h) ?_
    rintro ⟨⟨data, h⟩, -⟩
    cases h
  | ok data =>
    have hcount := hfind.count hdata
    constructor
    · intro h
      cases h
      exact ⟨⟨data, rfl⟩, by rw [← hcount]⟩
    · rintro ⟨-, rfl⟩
      rw [← hcount]
      rfl

theorem firstOf_of_falsy {v : JsValue} (h : ¬ v.truthy = true) : firstOf (some v) none = .null := by
  simp [firstOf, Option.filter, h]

theorem firstOf_ofNat (n : ℕ) : firstOf (some (.ofNat n)) none = if n = 0 then .null else .ofNat n := by
  split
  · rename_i hn
    subst hn
    rfl
  · exact firstOf_of_truthy (JsValue.truthy_ofNat.mpr (by omega)) none

/-- Without a page size the number of pages is no number. -/
theorem not_meaningful_of_null {page : JsValue} (total : JsNat) :
    ¬ (metaOf .double page .null (.finite total.value)).Meaningful := by
  rintro ⟨⟨t, ht, -⟩, -⟩
  exact JsDouble.div_zero_ne_finite _ _ _ ht

end Values

/-! ## A page size that is a number -/

section PageSize

variable {options findAndCountAll} {total : JsNat} {o : JsNat} (ho : 1 ≤ o.value)

/-- The quotient that is rounded up to the number of pages. -/
def quotient (total o : JsNat) : ℚ := Binary64.nearest (total.value / o.value)

theorem quotient_nonneg (total o : JsNat) : 0 ≤ quotient total o :=
  Binary64.nearest_nonneg (div_nonneg (Nat.cast_nonneg _) (Nat.cast_nonneg _))

/-- The number of pages. -/
def pages (total o : JsNat) : ℕ := ⌈quotient total o⌉.toNat

theorem pages_le_iff {total o : JsNat} (p : ℕ) : pages total o ≤ p ↔ quotient total o ≤ p := by
  unfold pages
  rw [Int.toNat_le, Int.ceil_le, Int.cast_natCast]

include ho

theorem totalPages_eq (page : JsValue) :
    (metaOf .double page (.ofNat o.value) (.finite total.value)).totalPages =
      .finite (pages total o) := by
  obtain ⟨hgrid, hlimit⟩ := (JsDouble.isDouble_finite_iff (Nat.cast_nonneg _)).mp total.isDouble
  have hdiv : JsDouble.div JsDouble.roundDouble (.finite total.value) (.finite o.value) =
      .finite (quotient total o) := by
    rw [JsDouble.div_finite _ (Nat.cast_nonneg _) (Nat.cast_pos.mpr ho)]
    exact JsDouble.roundDouble_div hlimit hgrid ho
  have hceil : 0 ≤ ⌈quotient total o⌉ := Int.ceil_nonneg (quotient_nonneg total o)
  show (JsDouble.div JsDouble.roundDouble (.finite total.value) (.finite o.value)).ceil = _
  rw [hdiv, JsDouble.ceil_finite (quotient_nonneg total o)]
  congr 1
  unfold pages
  rw [← Int.cast_natCast, Int.toNat_of_nonneg hceil]

theorem nextPage_eq (page : JsValue) :
    (metaOf .double page (.ofNat o.value) (.finite total.value)).nextPage =
      nextPage .double page (.finite (pages total o)) := by
  show nextPage .double page (metaOf .double page (.ofNat o.value) (.finite total.value)).totalPages = _
  rw [totalPages_eq ho]

/-- In a table that can be counted, the quotient is at most `p` where `p` pages hold all rows. -/
theorem quotient_le_iff (htotal : total.value < 2 ^ 53) (p : ℕ) :
    quotient total o ≤ p ↔ total.value ≤ p * o.value := by
  have hfinite := ((JsDouble.isDouble_finite_iff (Nat.cast_nonneg _)).mp o.isDouble).2
  have hceil : quotient total o ≤ p ↔ (total.value ⌈/⌉ o.value : ℕ) ≤ p := by
    rw [← Int.cast_natCast (R := ℚ) p, ← Int.ceil_le]
    unfold quotient
    rw [Binary64.ceil_nearest_div htotal ho hfinite, Nat.cast_le]
  rw [hceil, ceilDiv_le_iff_le_mul ho, mul_comm]

end PageSize

/-! ## The pages beside a page -/

section Beside

variable {page : JsValue} {p : ℕ}

/-- The page before is the number before, as far as integers are doubles. -/
theorem prevPage_meaningful_iff (hp : 1 ≤ p) (hdouble : (JsDouble.finite p).IsDouble)
    (hpage : page.toNumber = .finite p) :
    (prevPage .double page = .null ∨
      prevPage .double page = .number (.finite (p - 1)) ∧ (1 : ℚ) ≤ p - 1) ↔ p ≤ 2 ^ 53 := by
  have hcast : ((p - 1 : ℕ) : ℚ) = p - 1 := by
    rw [Nat.cast_sub hp, Nat.cast_one]
  constructor
  · intro h
    by_contra hlarge
    obtain ⟨hgrid, hlimit⟩ := (JsDouble.isDouble_finite_iff (Nat.cast_nonneg p)).mp hdouble
    have hnonneg : (0 : ℚ) ≤ (p - 1 : ℕ) := Nat.cast_nonneg _
    have habove : (2 ^ 53 : ℕ) ≤ Binary64.nearest ((p - 1 : ℕ) : ℚ) :=
      Binary64.le_nearest (Binary64.onGrid_natCast le_rfl) hnonneg (by exact_mod_cast (by omega))
    have hbelow : Binary64.nearest ((p - 1 : ℕ) : ℚ) ≤ p :=
      Binary64.nearest_le hgrid hnonneg (by exact_mod_cast Nat.sub_le p 1)
    have hround : JsDouble.roundDouble (p - 1 : ℕ) =
        .finite (Binary64.nearest ((p - 1 : ℕ) : ℚ)) :=
      (JsDouble.roundDouble_eq_finite hnonneg).mpr ⟨rfl, hbelow.trans_lt hlimit⟩
    have hprev : prevPage .double page =
        .number (.finite (Binary64.nearest ((p - 1 : ℕ) : ℚ))) := by
      rw [prevPage_of_toNumber hp hpage]
      show (if (JsDouble.finite 1).le (JsDouble.roundDouble (p - 1 : ℕ)) then
        JsValue.number (JsDouble.roundDouble (p - 1 : ℕ)) else .null) = _
      have hone : (1 : ℚ) ≤ (2 ^ 53 : ℕ) := by norm_num
      rw [hround, JsDouble.le_finite, decide_eq_true (hone.trans habove), if_pos rfl]
    -- of `p` and `p - 1` one is odd
    rw [hprev] at h
    rcases h with h | ⟨h, -⟩
    · cases h
    · have hsame : Binary64.nearest ((p - 1 : ℕ) : ℚ) = (p - 1 : ℕ) := by
        rw [hcast]
        exact JsDouble.finite.inj (JsValue.number.inj (hcast ▸ h))
      have hgrid' : Binary64.OnGrid (p - 1 : ℕ) := (Binary64.onGrid_iff hnonneg).mpr hsame
      have heven := Binary64.even_of_onGrid hgrid (by omega)
      by_cases hlast : p - 1 = 2 ^ 53
      · omega
      · have heven' := Binary64.even_of_onGrid hgrid' (by omega)
        omega
  · intro hle
    rw [prevPage_ofNat hp hpage (JsDouble.roundDouble_natCast (by omega))]
    split
    · refine .inr ⟨by rw [JsValue.ofNat, hcast], ?_⟩
      rw [← hcast]
      exact_mod_cast (by omega : 1 ≤ p - 1)
    · exact .inl rfl

/-- At the last integer the next page is the page itself. -/
theorem nextPage_two_pow (t : ℕ) : nextPage .double (.ofNat (2 ^ 53)) (.finite t) =
    if 2 ^ 53 ≤ t then .ofNat (2 ^ 53) else .null := by
  have hround : JsDouble.roundDouble (2 ^ 53 + 1 : ℕ) = .finite (2 ^ 53 : ℕ) :=
    (JsDouble.roundDouble_eq_finite (Nat.cast_nonneg _)).mpr
      ⟨Binary64.nearest_two_pow_add_one, JsDouble.lt_limit_natCast le_rfl⟩
  have hadd : (JsValue.ofNat (2 ^ 53)).addOne .double = .ofNat (2 ^ 53) := by
    rw [Nat.cast_add, Nat.cast_one] at hround
    exact congrArg JsValue.number hround
  unfold nextPage
  rw [hadd]
  simp only [JsValue.toNumber_ofNat, JsDouble.le_finite, Nat.cast_le, decide_eq_true_eq]

/-- The page behind a number is the next number, as far as that is a double; at the last integer
    there has to be none. -/
theorem nextPage_meaningful_iff (hp : p ≤ 2 ^ 53) (t : ℕ) :
    (nextPage .double (.ofNat p) (.finite t) = .null ∨
      nextPage .double (.ofNat p) (.finite t) = .number (.finite (p + 1)) ∧ (p : ℚ) + 1 ≤ t) ↔
      p < 2 ^ 53 ∨ t < 2 ^ 53 := by
  rcases hp.lt_or_eq with hlt | rfl
  · refine iff_of_true ?_ (.inl hlt)
    rw [nextPage_ofNat (JsDouble.roundDouble_natCast hlt)]
    split
    · rename_i hle
      exact .inr ⟨by rw [JsValue.ofNat, Nat.cast_add, Nat.cast_one], by exact_mod_cast hle⟩
    · exact .inl rfl
  · rw [nextPage_two_pow]
    by_cases hle : 2 ^ 53 ≤ t
    · rw [if_pos hle]
      refine iff_of_false ?_ (by omega)
      rintro (h | ⟨h, -⟩)
      · cases h
      · have := JsDouble.finite.inj (JsValue.number.inj h)
        linarith
    · rw [if_neg hle]
      exact iff_of_true (.inl rfl) (.inr (by omega))

/-- With a number for the page there is no next one where it is the last one, or behind it. -/
theorem nextPage_eq_null_iff (hp : p ≤ 2 ^ 53) (t : ℕ) :
    nextPage .double (.ofNat p) (.finite t) = .null ↔ t ≤ p ∧ t < 2 ^ 53 := by
  have hnumber : ∀ n : ℕ, JsValue.ofNat n ≠ .null := fun n h => nomatch h
  rcases hp.lt_or_eq with hlt | rfl
  · rw [nextPage_ofNat (JsDouble.roundDouble_natCast hlt), ite_eq_right_iff]
    simp only [hnumber, imp_false]
    omega
  · rw [nextPage_two_pow, ite_eq_right_iff]
    simp only [hnumber, imp_false]
    omega

/-- With a text for the page, what `nextPage` is compared with has one digit more. -/
theorem nextPage_decimal_eq_null {n t : ℕ} (ht : t ≤ n) (hsmall : t < 2 ^ 53) :
    nextPage .double (.decimal n) (.finite t) = .null := by
  have hround : (t + 1 : ℕ) ≤ Binary64.nearest (10 * n + 1 : ℕ) :=
    Binary64.le_nearest (Binary64.onGrid_natCast (by omega)) (Nat.cast_nonneg _)
      (by exact_mod_cast (by omega))
  unfold nextPage
  dsimp only
  rw [JsValue.toNumber_decimal_addOne, JsDouble.roundDouble_of_nonneg (Nat.cast_nonneg _)]
  refine if_neg ?_
  split
  · rw [JsDouble.le_finite, decide_eq_true_eq, not_le]
    refine lt_of_lt_of_le ?_ hround
    exact_mod_cast Nat.lt_succ_self t
  · exact Bool.false_ne_true

/-- What `+ 1` makes of a text is a text. -/
theorem nextPage_decimal_ne_number (n : ℕ) (t x : JsDouble) :
    nextPage .double (.decimal n) t ≠ .number x := by
  unfold nextPage
  dsimp only
  split
  · exact fun h => nomatch h
  · exact fun h => nomatch h

end Beside

/-! ## A page of a number -/

section Page

variable {options findAndCountAll} {total o : JsNat} {p : ℕ}

/-- The database answers the query for the page. -/
def Asked (findAndCountAll : FindAndCountAll ε α) (p : ℕ) (o : JsNat) : Prop :=
  ∃ data, findAndCountAll (.ofNat o.value) (startOf .double (.ofNat p) (.ofNat o.value)) = .ok data

variable (hfind : CountsRows findAndCountAll total) (ho : 1 ≤ o.value) (hp : 1 ≤ p)
  (hdouble : (JsDouble.finite p).IsDouble)

include ho hp hdouble

/-- The values for a page that counts as `p`. -/
theorem meaningful_iff {page : JsValue} (hpage : page.toNumber = .finite p)
    (hcurrent : page.parseFloat = .finite p) :
    (metaOf .double page (.ofNat o.value) (.finite total.value)).Meaningful ↔
      (nextPage .double page (.finite (pages total o)) = .null ∨
        nextPage .double page (.finite (pages total o)) = .number (.finite (p + 1)) ∧
          (p : ℚ) + 1 ≤ pages total o) ∧ p ≤ 2 ^ 53 := by
  have hpages : (metaOf .double page (.ofNat o.value) (.finite total.value)).totalPages =
      .finite (pages total o) := totalPages_eq ho page
  have hnext : (metaOf .double page (.ofNat o.value) (.finite total.value)).nextPage =
      nextPage .double page (.finite (pages total o)) := nextPage_eq ho page
  have hfinite : ∀ {q : ℚ}, (metaOf .double page (.ofNat o.value) (.finite total.value)).page =
      .finite q ↔ (p : ℚ) = q := by
    intro q
    show page.parseFloat = .finite q ↔ _
    rw [hcurrent, JsDouble.finite.injEq]
  rw [← prevPage_meaningful_iff hp hdouble hpage]
  constructor
  · rintro ⟨⟨t, ht, hbehind⟩, hbefore⟩
    obtain rfl : pages total o = t := by exact_mod_cast JsDouble.finite.inj (hpages.symm.trans ht)
    rw [hnext] at hbehind
    refine ⟨hbehind.imp_right ?_, hbefore.imp_right ?_⟩
    · rintro ⟨q, hq, h⟩
      rwa [hfinite.mp hq]
    · rintro ⟨q, hq, h⟩
      rwa [hfinite.mp hq]
  · rintro ⟨hbehind, hbefore⟩
    refine ⟨⟨pages total o, hpages, ?_⟩, hbefore.imp_right fun h => ⟨p, hfinite.mpr rfl, h⟩⟩
    rw [hnext]
    exact hbehind.imp_right fun h => ⟨p, hfinite.mpr rfl, h⟩

end Page

/-! ## The forms of the page -/

section Forms

variable {options findAndCountAll} {total o : JsNat} (hfind : CountsRows findAndCountAll total)
  (ho : 1 ≤ o.value)

include hfind ho

/-- What there is for a page that counts as `p`. -/
theorem answer_iff {page : Option JsValue} {v : JsValue} {p : ℕ} (hpage : firstOf page none = v)
    (hnumber : v.toNumber = .finite p) {m : PaginateMeta} :
    answer options findAndCountAll page (some (.ofNat o.value)) = .ok m ↔
      Asked findAndCountAll p o ∧ m = metaOf .double v (.ofNat o.value) (.finite total.value) := by
  have hoffset : firstOf (some (.ofNat o.value)) none = .ofNat o.value :=
    firstOf_of_truthy (JsValue.truthy_ofNat.mpr ho) none
  have hstart : startOf .double v (.ofNat o.value) = startOf .double (.ofNat p) (.ofNat o.value) := by
    unfold startOf JsValue.mul
    rw [hnumber, JsValue.toNumber_ofNat p]
  rw [answer_eq_ok hfind, hpage, hoffset, hstart]
  rfl

/-- A page that is a number. -/
theorem wellDefined_number_iff {P : JsNat} (hP : 1 ≤ P.value) :
    WellDefined options findAndCountAll (.number P) (.number o) ↔
      P.value ≤ 2 ^ 53 ∧ Asked findAndCountAll P.value o ∧
        (P.value < 2 ^ 53 ∨ pages total o < 2 ^ 53) := by
  have hpage : firstOf (some (.ofNat P.value)) none = .ofNat P.value :=
    firstOf_of_truthy (JsValue.truthy_ofNat.mpr hP) none
  have hmeaningful : (metaOf .double (.ofNat P.value) (.ofNat o.value)
      (.finite total.value)).Meaningful ↔ _ :=
    meaningful_iff ho hP P.isDouble (JsValue.toNumber_ofNat P.value) rfl
  constructor
  · rintro ⟨m, hm, hmean, -⟩
    obtain ⟨hasked, rfl⟩ := (answer_iff hfind ho hpage (JsValue.toNumber_ofNat P.value)).mp hm
    obtain ⟨hnext, hle⟩ := hmeaningful.mp hmean
    exact ⟨hle, hasked, (nextPage_meaningful_iff hle _).mp hnext⟩
  · rintro ⟨hle, hasked, hlast⟩
    have hm : answer options findAndCountAll (some (.ofNat P.value)) (some (.ofNat o.value)) = _ :=
      (answer_iff hfind ho hpage (JsValue.toNumber_ofNat P.value)).mpr ⟨hasked, rfl⟩
    exact ⟨_, hm, hmeaningful.mpr ⟨(nextPage_meaningful_iff hle _).mpr hlast, hle⟩, hm⟩

/-- A page that is a text stands for its number only on the last page and behind it. -/
theorem wellDefined_text_iff {n p : ℕ} (hn : JsDouble.number (toString n) = .finite p)
    (hp : 1 ≤ p) :
    WellDefined options findAndCountAll (.text n) (.number o) ↔
      p ≤ 2 ^ 53 ∧ Asked findAndCountAll p o ∧ pages total o ≤ p ∧ pages total o < 2 ^ 53 := by
  have hround : JsDouble.roundDouble n = .finite p := (JsDouble.number_toString n).symm.trans hn
  have hdouble : (JsDouble.finite p).IsDouble := hround ▸ JsDouble.isDouble_roundDouble n
  have hpage : firstOf (some (.decimal n)) none = .decimal n :=
    firstOf_of_truthy (JsValue.truthy_decimal n) none
  have hdenoted : firstOf (some (.number (JsDouble.number (toString n)))) none = .ofNat p := by
    rw [hn]
    exact firstOf_of_truthy (JsValue.truthy_ofNat.mpr hp) none
  have hmeaningful : (metaOf .double (.decimal n) (.ofNat o.value)
      (.finite total.value)).Meaningful ↔ _ :=
    meaningful_iff ho hp hdouble hn ((JsValue.parseFloat_decimal n).trans hround)
  constructor
  · rintro ⟨m, hm, hmean, hsame⟩
    obtain ⟨hasked, rfl⟩ := (answer_iff hfind ho hpage hn).mp hm
    obtain ⟨-, hsame⟩ := (answer_iff hfind ho hdenoted (JsValue.toNumber_ofNat p)).mp hsame
    obtain ⟨hnext, hle⟩ := hmeaningful.mp hmean
    have hnull : nextPage .double (.decimal n) (.finite (pages total o)) = .null :=
      hnext.resolve_right fun h => nextPage_decimal_ne_number n _ _ h.1
    have hnull' : nextPage .double (.ofNat p) (.finite (pages total o)) = .null := by
      rw [← nextPage_eq ho (.ofNat p), ← hsame, nextPage_eq ho]
      exact hnull
    exact ⟨hle, hasked, (nextPage_eq_null_iff hle _).mp hnull'⟩
  · rintro ⟨hle, hasked, hlast, hsmall⟩
    -- a text that denotes less than the last page would be that page
    have hbehind : pages total o ≤ n := by
      by_contra hlt
      have hexact := JsDouble.roundDouble_natCast (show n ≤ 2 ^ 53 by omega)
      have : n = p := by exact_mod_cast JsDouble.finite.inj (hexact.symm.trans hround)
      omega
    have hnull := nextPage_decimal_eq_null hbehind hsmall
    have hmean := hmeaningful.mpr ⟨.inl hnull, hle⟩
    refine ⟨_, (answer_iff hfind ho hpage hn).mpr ⟨hasked, rfl⟩, hmean, ?_⟩
    refine (answer_iff hfind ho hdenoted (JsValue.toNumber_ofNat p)).mpr ⟨hasked, ?_⟩
    ext1
    · show (JsValue.decimal n).parseFloat = (JsValue.ofNat p).parseFloat
      rw [JsValue.parseFloat_decimal, hround]
      rfl
    · rw [nextPage_eq ho, nextPage_eq ho, hnull, (nextPage_eq_null_iff hle _).mpr ⟨hlast, hsmall⟩]
    · show prevPage .double (.decimal n) = prevPage .double (.ofNat p)
      have hnumber : (JsValue.decimal n).toNumber = .finite p := hn
      rw [prevPage_of_toNumber hp hnumber, prevPage_of_toNumber hp (JsValue.toNumber_ofNat p)]
    all_goals rfl

/-- A page that counts as 0 asks for a negative offset. -/
theorem not_wellDefined_of_zero {page : PageOption}
    (hpage : (firstOf page.value none).toNumber = .finite 0) :
    ¬ WellDefined options findAndCountAll page (.number o) := by
  rintro ⟨m, hm, -⟩
  have hpage' : (firstOf page.value none).toNumber = .finite (0 : ℕ) := by
    rw [hpage, Nat.cast_zero]
  obtain ⟨⟨data, hdata⟩, -⟩ := (answer_iff hfind ho rfl hpage').mp hm
  refine hfind.refuses ?_ hdata
  have hne : (o.value : ℚ) ≠ 0 := Nat.cast_ne_zero.mpr (by omega)
  have hpos : (0 : ℚ) < o.value := Nat.cast_pos.mpr ho
  have hround : JsDouble.roundDouble o.value = .finite o.value := o.isDouble
  have hstart : startOf .double (.ofNat 0) (.ofNat o.value) = .finite (-o.value) := by
    have hend : (JsValue.ofNat 0).mul .double (.ofNat o.value) = .finite 0 := by
      unfold JsValue.mul
      rw [JsValue.toNumber_ofNat, JsValue.toNumber_ofNat,
        JsDouble.mul_finite _ (Nat.cast_nonneg _) hpos.le, Nat.cast_zero, zero_mul]
      exact JsDouble.isDouble_zero
    unfold startOf JsValue.sub
    rw [hend]
    show JsDouble.sub JsDouble.roundDouble (.finite 0) (.finite o.value) = _
    rw [JsDouble.sub_finite _ _ hne, zero_sub, JsDouble.roundDouble_neg hne, hround,
      JsDouble.neg_finite_of_ne hne]
  rw [hstart]
  have hneg : ¬ (0 : ℚ) ≤ -o.value := by linarith
  simp [JsDouble.lt, hneg, hpos.le]

omit ho in
/-- Before a text that is too large for a double there is no number. -/
theorem not_wellDefined_of_infinity {n : ℕ} (hn : JsDouble.number (toString n) = .infinity false) :
    ¬ WellDefined options findAndCountAll (.text n) (.number o) := by
  rintro ⟨m, hm, ⟨-, hprev⟩, -⟩
  obtain ⟨-, rfl⟩ := (answer_eq_ok hfind).mp hm
  have hpage : firstOf (some (.decimal n)) none = .decimal n :=
    firstOf_of_truthy (JsValue.truthy_decimal n) none
  have hsub : (JsValue.decimal n).sub .double (.ofNat 1) = .infinity false := by
    have hnumber : (JsValue.decimal n).toNumber = .infinity false := hn
    unfold JsValue.sub JsDouble.sub
    rw [hnumber, JsValue.toNumber_ofNat, JsDouble.neg_finite_of_ne (by simp)]
    rfl
  have hbefore : prevPage .double (.decimal n) = .number (.infinity false) := by
    unfold prevPage
    rw [hsub]
    rfl
  rcases hprev with h | ⟨q, -, h, -⟩
  · have hnull : prevPage .double (firstOf (some (.decimal n)) none) = .null := h
    rw [hpage, hbefore] at hnull
    cases hnull
  · have hfinite : prevPage .double (firstOf (some (.decimal n)) none) = .number (.finite (q - 1)) := h
    rw [hpage, hbefore] at hfinite
    cases hfinite

/-- A page that is a number, 0 among them. -/
theorem wellDefined_numberPage_iff (P : JsNat) :
    WellDefined options findAndCountAll (.number P) (.number o) ↔ 1 ≤ P.value ∧ P.value ≤ 2 ^ 53 ∧
      Asked findAndCountAll P.value o ∧
        (P.value < 2 ^ 53 ∨ pages total o ≤ P.value ∧ pages total o < 2 ^ 53) := by
  rcases Nat.eq_zero_or_pos P.value with hzero | hP
  · refine iff_of_false (not_wellDefined_of_zero hfind ho ?_) (by omega)
    show (firstOf (some (.ofNat P.value)) none).toNumber = _
    rw [hzero]
    rfl
  · rw [wellDefined_number_iff hfind ho hP, and_iff_right (show 1 ≤ P.value from hP)]
    refine and_congr_right fun hle => and_congr_right fun _ => ?_
    omega

/-- A page that is a text, also one that denotes 0 or is too large for a double. -/
theorem wellDefined_textPage_iff (n : ℕ) :
    WellDefined options findAndCountAll (.text n) (.number o) ↔ ∃ p : ℕ, 1 ≤ p ∧ p ≤ 2 ^ 53 ∧
      Asked findAndCountAll p o ∧
        JsDouble.number (toString n) = .finite p ∧ pages total o ≤ p ∧ pages total o < 2 ^ 53 := by
  have hround := JsDouble.number_toString n
  rw [JsDouble.roundDouble_of_nonneg (Nat.cast_nonneg n)] at hround
  obtain ⟨p, hp⟩ := Binary64.exists_nearest_natCast n
  by_cases hlimit : Binary64.nearest n < Binary64.limit
  · rw [if_pos hlimit, hp] at hround
    have hdenotes : ∀ p' : ℕ, JsDouble.number (toString n) = .finite p' ↔ p' = p := by
      intro p'
      rw [hround, JsDouble.finite.injEq, Nat.cast_inj, eq_comm]
    simp only [hdenotes]
    rcases Nat.eq_zero_or_pos p with rfl | hpos
    · refine iff_of_false (not_wellDefined_of_zero hfind ho ?_) ?_
      · have hpage : firstOf (some (.decimal n)) none = .decimal n :=
          firstOf_of_truthy (JsValue.truthy_decimal n) none
        show (firstOf (some (.decimal n)) none).toNumber = _
        rw [hpage, ← Nat.cast_zero]
        exact hround
      · rintro ⟨p', hp', -, -, rfl, -⟩
        omega
    · rw [wellDefined_text_iff hfind ho hround hpos]
      constructor
      · rintro ⟨hle, hasked, hlast⟩
        exact ⟨p, hpos, hle, hasked, rfl, hlast⟩
      · rintro ⟨p', -, hle, hasked, rfl, hlast⟩
        exact ⟨hle, hasked, hlast⟩
  · rw [if_neg hlimit] at hround
    refine iff_of_false (not_wellDefined_of_infinity hfind hround) ?_
    rintro ⟨p', -, -, -, hdenotes, -⟩
    cases hround.symm.trans hdenotes

/-- For which pages the values are what they are for. -/
theorem wellDefined_iff_of_pageSize (page : PageOption) :
    WellDefined options findAndCountAll page (.number o) ↔ ∃ p : ℕ, 1 ≤ p ∧ p ≤ 2 ^ 53 ∧
      Asked findAndCountAll p o ∧
        (page.IsNumber p ∧ p < 2 ^ 53 ∨ (page.IsNumber p ∨ page.IsText p) ∧
          pages total o ≤ p ∧ pages total o < 2 ^ 53) := by
  cases page with
  | absent =>
    refine iff_of_false (not_wellDefined_of_zero hfind ho rfl) ?_
    simp
  | number P =>
    rw [wellDefined_numberPage_iff hfind ho]
    simp only [PageOption.isNumber_number, PageOption.not_isText_number, or_false, ← and_or_left]
    constructor
    · rintro ⟨hpos, hle, hasked, hlast⟩
      exact ⟨P.value, hpos, hle, hasked, rfl, hlast⟩
    · rintro ⟨p, hpos, hle, hasked, rfl, hlast⟩
      exact ⟨hpos, hle, hasked, hlast⟩
  | text n =>
    rw [wellDefined_textPage_iff hfind ho]
    simp only [PageOption.not_isNumber_text, PageOption.isText_text, false_and, false_or]

end Forms

/-- A page size that is a text is handed back as a text. -/
theorem not_wellDefined_of_text {total : JsNat} (hfind : CountsRows findAndCountAll total)
    (page : PageOption) (n : ℕ) : ¬ WellDefined options findAndCountAll page (.text n) := by
  rintro ⟨m, hm, -, hsame⟩
  obtain ⟨-, rfl⟩ := (answer_eq_ok hfind).mp hm
  obtain ⟨-, hsame⟩ := (answer_eq_ok hfind).mp hsame
  have htext : firstOf (some (.decimal n)) none = .decimal n :=
    firstOf_of_truthy (JsValue.truthy_decimal n) none
  have hoffset : firstOf (some (.decimal n)) none =
      firstOf (some (.number (JsDouble.number (toString n)))) none :=
    congrArg PaginateMeta.offset hsame
  rw [htext] at hoffset
  by_cases htruthy : (JsValue.number (JsDouble.number (toString n))).truthy = true
  · rw [firstOf_of_truthy htruthy] at hoffset
    cases hoffset
  · rw [firstOf_of_falsy htruthy] at hoffset
    cases hoffset

end Answer

/-- The values are what they are for iff the page size is a positive number, the page is a positive
    number or a text of one, up to 2^53, for which the database answers, and a text, or 2^53, is the
    last page or one behind it. -/
theorem wellDefined_iff {ε α : Type} {findAndCountAll : FindAndCountAll ε α} {total : JsNat}
    (hfind : CountsRows findAndCountAll total) (options : PaginateOptions)
    (page offset : PageOption) :
    WellDefined options findAndCountAll page offset ↔
      ∃ o : JsNat, offset = .number o ∧ 1 ≤ o.value ∧ ∃ p : ℕ, 1 ≤ p ∧ p ≤ 2 ^ 53 ∧
        Asked findAndCountAll p o ∧
          (page.IsNumber p ∧ p < 2 ^ 53 ∨ (page.IsNumber p ∨ page.IsText p) ∧
            quotient total o ≤ p ∧ quotient total o ≤ (2 ^ 53 - 1 : ℕ)) := by
  have hpages : ∀ (o : JsNat) (p : ℕ), quotient total o ≤ p ∧
      quotient total o ≤ (2 ^ 53 - 1 : ℕ) ↔ pages total o ≤ p ∧ pages total o < 2 ^ 53 := by
    intro o p
    rw [← pages_le_iff, ← pages_le_iff]
    omega
  simp only [hpages]
  cases offset with
  | absent =>
    refine iff_of_false ?_ ?_
    · rintro ⟨m, hm, hmean, -⟩
      obtain ⟨-, rfl⟩ := (answer_eq_ok hfind).mp hm
      exact not_meaningful_of_null total hmean
    · rintro ⟨o, h, -⟩
      cases h
  | text n =>
    refine iff_of_false (not_wellDefined_of_text options findAndCountAll hfind page n) ?_
    rintro ⟨o, h, -⟩
    cases h
  | number o =>
    rcases Nat.eq_zero_or_pos o.value with hzero | ho
    · refine iff_of_false ?_ ?_
      · rintro ⟨m, hm, hmean, -⟩
        obtain ⟨-, rfl⟩ := (answer_eq_ok hfind).mp hm
        have hnull : OverwritePaginateService.firstOf (PageOption.number o).value none = .null :=
          (firstOf_ofNat o.value).trans (if_pos hzero)
        rw [hnull] at hmean
        exact not_meaningful_of_null total hmean
      · rintro ⟨o', h, ho', -⟩
        cases h
        omega
    · rw [wellDefined_iff_of_pageSize hfind ho]
      constructor
      · intro h
        exact ⟨o, rfl, ho, h⟩
      · rintro ⟨o', h, -, hp⟩
        cases h
        exact hp

/-! ## Thirty rows -/

/-- An integer of up to 53 bits. -/
def JsNat.ofNat (n : ℕ) (h : n ≤ 2 ^ 53) : JsNat := ⟨n, JsDouble.roundDouble_natCast h⟩

/-- A table that is read by windows counts its rows. -/
theorem countsRows_windowsOf {rows : List ℕ} (h : rows.length ≤ 2 ^ 53) :
    CountsRows (windowsOf rows) (.ofNat rows.length h) where
  count := by
    intro limit start data hdata
    unfold windowsOf at hdata
    split at hdata
    · split at hdata
      · cases hdata
      · cases hdata
        rfl
    · cases hdata
  refuses := by
    intro limit start data hstart hdata
    unfold windowsOf at hdata
    split at hdata
    · rename_i start
      split at hdata
      · cases hdata
      · rename_i hnonneg
        have hle : (0 : ℚ) ≤ start := not_lt.mp hnonneg
        simp [JsDouble.lt, hle] at hstart
    · cases hdata

/-- A page of a table that is read by windows is answered. -/
theorem asked_windowsOf {rows : List ℕ} (h : rows.length ≤ 2 ^ 52) {k : ℕ} {o : JsNat}
    (ho : 1 ≤ o.value) (hk : k = 0 ∨ k * o.value < rows.length) :
    Asked (windowsOf rows) (k + 1) o := by
  have hstart : OverwritePaginateService.startOf .double (.ofNat (k + 1)) (.ofNat o.value) =
      .finite (k * o.value : ℕ) :=
    startOf_ofNat (Arithmetic.counts_double _ ho h o.isDouble) ho hk
  unfold Asked
  rw [hstart]
  refine ⟨_, if_neg (not_lt.mpr (Nat.cast_nonneg _))⟩

/-- The second page of ten rows has the values that it is to have. -/
theorem wellDefined_iff_sample : WellDefined {} (windowsOf (List.range 30))
    (.number (.ofNat 2 (by decide))) (.number (.ofNat 10 (by decide))) := by
  have hasked : Asked (windowsOf (List.range 30)) 2 (.ofNat 10 (by decide)) :=
    asked_windowsOf (by decide) (by decide) (.inr (by decide))
  refine (wellDefined_iff (countsRows_windowsOf (by decide)) {} _ _).mpr ?_
  exact ⟨_, rfl, by decide, 2, by decide, by decide, hasked, .inl ⟨⟨_, rfl, rfl⟩, by decide⟩⟩

/-- The second of thirty pages, asked for by a query parameter, is followed by page `21`. -/
theorem not_wellDefined_text : ¬ WellDefined {} (windowsOf (List.range 30)) (.text 2)
    (.number (.ofNat 1 (by decide))) := by
  have hnumber : JsDouble.number (toString 2) = .finite (2 : ℕ) :=
    (JsDouble.number_toString 2).trans (JsDouble.roundDouble_natCast (by decide))
  rw [wellDefined_text_iff (countsRows_windowsOf (by decide)) (by decide) hnumber (by decide)]
  rintro ⟨-, -, hlast, -⟩
  rw [pages_le_iff, quotient_le_iff (by decide) (by decide)] at hlast
  exact absurd hlast (by decide)

end NestTemplate
