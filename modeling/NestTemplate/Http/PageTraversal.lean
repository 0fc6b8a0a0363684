import NestTemplate.Http.Paginate

/-!
# From page to page

A client starts with the first page and asks for `nextPage` until there is none.

* `flatMap_windows`: windows side by side are one window.
* `request_eq`, `pageOf_nextPage`, `pageOf_links`: what one request gives.
* `walk_range`, `Walk.unique`: which requests are made.
* `walk_traverses`: the rows, the links and the number of requests of a walk.
-/

namespace NestTemplate

open Common OverwritePaginateService

/-- The first `m` windows of `o` rows each are the first `m * o` rows. -/
theorem flatMap_windows {α : Type} (rows : List α) (o m : ℕ) :
    (List.range m).flatMap (fun i => (rows.drop (i * o)).take o) = rows.take (m * o) := by
  induction m with
  | zero => rw [Nat.zero_mul, List.take_zero]; rfl
  | succ m ih =>
    rw [List.range_succ, List.flatMap_append, ih, List.flatMap_singleton, Nat.succ_mul, List.take_add]

/-- `findAndCountAll` of a table: the count of the rows, and those in `[start, start + limit)`. -/
def FindsWindows {ε α : Type} (rows : List α) (findAndCountAll : FindAndCountAll ε α) : Prop :=
  ∀ limit start : ℕ, findAndCountAll (.ofNat limit) (.finite start) =
    .ok (.finite rows.length, (rows.drop start).take limit)

/-- A page that was asked for, and the answer. -/
structure PageVisit (α : Type) where
  page : JsValue
  payload : PaginatePayload α

/-- The visits of a client that starts with a page and follows `nextPage`. -/
inductive Walk {ε α : Type} (request : JsValue → Except ε (PaginatePayload α)) :
    JsValue → List (PageVisit α) → Prop
  | last {page : JsValue} {payload : PaginatePayload α} : request page = .ok payload →
      payload.meta_.nextPage = .null → Walk request page [⟨page, payload⟩]
  | next {page : JsValue} {payload : PaginatePayload α} {visits : List (PageVisit α)} :
      request page = .ok payload → payload.meta_.nextPage ≠ .null →
        Walk request payload.meta_.nextPage visits → Walk request page (⟨page, payload⟩ :: visits)

/-- A walk is determined by where it starts. -/
theorem Walk.unique {ε α : Type} {request : JsValue → Except ε (PaginatePayload α)} {page : JsValue}
    {visits visits' : List (PageVisit α)} (h : Walk request page visits)
    (h' : Walk request page visits') : visits' = visits := by
  induction h generalizing visits' with
  | last hanswer hlast =>
    cases h' with
    | last hanswer' _ => rw [Except.ok.inj (hanswer'.symm.trans hanswer)]
    | next hanswer' hnext _ =>
      rw [Except.ok.inj (hanswer'.symm.trans hanswer)] at hnext
      exact absurd hlast hnext
  | next hanswer hnext _ ih =>
    cases h' with
    | last hanswer' hlast =>
      rw [Except.ok.inj (hanswer'.symm.trans hanswer)] at hlast
      exact absurd hlast hnext
    | next hanswer' _ h' =>
      obtain rfl := Except.ok.inj (hanswer'.symm.trans hanswer)
      rw [ih h']

/-- The link names the page, or there is neither. -/
def Names (url suffix : String) (page : JsValue) (link : Option String) : Prop :=
  (page = .null ∧ link = none) ∨
    ∃ q : ℕ, page = .ofNat q ∧ link = some (url ++ toString q ++ suffix)

/-- A link that is made names its page. -/
theorem names_linkTo {A : Arithmetic} (url : String) (allowOffset : Bool) (o : ℕ) {page : JsValue}
    (hpage : page = .null ∨ ∃ q : ℕ, 1 ≤ q ∧ A.toText (.finite q) = toString q ∧ page = .ofNat q) :
    Names url (if allowOffset then "&offset=" ++ A.toText (.finite o) else "") page
      (linkTo A url allowOffset (.ofNat o) page) := by
  rcases hpage with rfl | ⟨q, hq, htext, rfl⟩
  · exact .inl ⟨rfl, rfl⟩
  · refine .inr ⟨q, rfl, ?_⟩
    unfold linkTo
    rw [if_pos (JsValue.truthy_ofNat.mpr hq), ← htext]
    rfl

section Traversal

variable {ε α : Type} (A : Arithmetic) (module : PaginateModuleOptions) (options : PaginateOptions)
  (rows : List α) (findAndCountAll : FindAndCountAll ε α) (o : ℕ)

/-- The request for a page, with the page size `o`. -/
def request (page : JsValue) : Except ε (PaginatePayload α) :=
  findAllPaginate A module { options with page := some page, offset := some (.ofNat o) }
    findAndCountAll

/-- What stands behind the page in a link. -/
def linkSuffix : String :=
  if firstFlag options.showOffset module.showOffset then "&offset=" ++ A.toText (.finite o) else ""

/-- What a walk through all pages is to be. -/
structure Traverses (visits : List (PageVisit α)) : Prop where
  length : visits.length = max 1 (rows.length ⌈/⌉ o)
  rows : visits.flatMap (·.payload.items) = rows
  /-- The page before is the one visited before. -/
  prevPage : visits.map (·.payload.meta_.prevPage) = (.null :: visits.map (·.page)).dropLast
  links : firstFlag options.showUrl module.showUrl = true → ∀ v ∈ visits, ∃ links,
    v.payload.links = some links ∧
      Names (urlOf module options) (linkSuffix A module options o) v.payload.meta_.nextPage
        links.nextUrl ∧
      Names (urlOf module options) (linkSuffix A module options o) v.payload.meta_.prevPage
        links.prevUrl

/-- The answer for page `k + 1`. -/
def pageOf (k : ℕ) : PaginatePayload α :=
  let meta_ := metaOf A (.ofNat (k + 1)) (.ofNat o) (.finite rows.length)
  { segmented := firstText options.structure_ module.structure_ = some "segmented"
    meta_ := meta_
    items := (rows.drop (k * o)).take o
    links :=
      if firstFlag options.showUrl module.showUrl then
        some (linksOf A (urlOf module options) (firstFlag options.showOffset module.showOffset) meta_)
      else none }

/-! ## One request -/

section Request

variable {A module options rows findAndCountAll o} (hcounts : A.Counts rows.length o)
  (hmodel : FindsWindows rows findAndCountAll) (ho : 1 ≤ o) {k : ℕ} (hk : k = 0 ∨ k * o < rows.length)

theorem firstOf_page (k : ℕ) : firstOf (some (.ofNat (k + 1))) module.defaultPage = .ofNat (k + 1) :=
  firstOf_of_truthy (JsValue.truthy_ofNat.mpr (by omega)) _

include hk

/-- The pages that there are are few enough to be counted. -/
theorem le_length_of_page (ho : 1 ≤ o) : k ≤ rows.length := by
  rcases hk with rfl | hk
  · omega
  · exact (Nat.le_mul_of_pos_right k ho).trans hk.le

include hcounts ho

/-- Page `k + 1` starts with row `k * o`. -/
theorem startOf_ofNat : startOf A (.ofNat (k + 1)) (.ofNat o) = .finite (k * o : ℕ) := by
  have hend : (JsValue.ofNat (k + 1)).mul A (.ofNat o) = .finite ((k + 1) * o : ℕ) := by
    unfold JsValue.mul
    rw [JsValue.toNumber_ofNat, JsValue.toNumber_ofNat,
      JsDouble.mul_finite _ (Nat.cast_nonneg _) (Nat.cast_nonneg _), ← Nat.cast_mul]
    exact hcounts.round_mul k hk
  have hle : k * o ≤ rows.length + 2 := by
    rcases hk with rfl | hk
    · rw [Nat.zero_mul]
      omega
    · omega
  have hpos : (o : ℚ) ≠ 0 := Nat.cast_ne_zero.mpr (by omega)
  unfold startOf JsValue.sub
  rw [hend]
  show JsDouble.sub A.round (.finite ((k + 1) * o : ℕ)) (.finite o) = _
  rw [JsDouble.sub_finite _ _ hpos, ← hcounts.round_le _ hle]
  congr 1
  push_cast
  ring

include hmodel in
theorem request_eq : request A module options findAndCountAll o (.ofNat (k + 1)) =
    .ok (pageOf A module options rows o k) := by
  have hoffset : firstOf (some (.ofNat o)) module.defaultOffset = .ofNat o :=
    firstOf_of_truthy (JsValue.truthy_ofNat.mpr ho) _
  unfold request findAllPaginate
  simp only [firstOf_page, hoffset, startOf_ofNat hcounts ho hk]
  rw [hmodel o (k * o)]
  rfl

theorem pageOf_nextPage : (pageOf A module options rows o k).meta_.nextPage =
    if k + 2 ≤ rows.length ⌈/⌉ o then .ofNat (k + 2) else .null := by
  have hle := le_length_of_page hk ho
  show nextPage A (.ofNat (k + 1)) (JsDouble.div A.round (.finite rows.length) (.finite o)).ceil = _
  rw [hcounts.portions, nextPage_ofNat (hcounts.round_le _ (by omega))]

theorem pageOf_prevPage : (pageOf A module options rows o k).meta_.prevPage =
    if 1 ≤ k then .ofNat k else .null := by
  have hle := le_length_of_page hk ho
  show prevPage A (.ofNat (k + 1)) = _
  rw [prevPage_ofNat (by omega) (JsValue.toNumber_ofNat (k + 1)) (hcounts.round_le _ (by omega))]
  simp

/-- The links name the pages beside. -/
theorem pageOf_links (hshow : firstFlag options.showUrl module.showUrl = true) : ∃ links,
    (pageOf A module options rows o k).links = some links ∧
      Names (urlOf module options) (linkSuffix A module options o)
        (pageOf A module options rows o k).meta_.nextPage links.nextUrl ∧
      Names (urlOf module options) (linkSuffix A module options o)
        (pageOf A module options rows o k).meta_.prevPage links.prevUrl := by
  have hle := le_length_of_page hk ho
  refine ⟨_, if_pos hshow, names_linkTo _ _ _ ?_, names_linkTo _ _ _ ?_⟩
  · rw [pageOf_nextPage hcounts ho hk]
    split
    · exact .inr ⟨k + 2, by omega, hcounts.toText _ (by omega), rfl⟩
    · exact .inl rfl
  · rw [pageOf_prevPage hcounts ho hk]
    split
    · exact .inr ⟨k, by omega, hcounts.toText _ (by omega), rfl⟩
    · exact .inl rfl

end Request

/-! ## The walk -/

/-- The visits of the first `m` pages from page `k + 1` on. -/
def visitsFrom (k m : ℕ) : List (PageVisit α) :=
  (List.range m).map fun i => ⟨.ofNat (k + i + 1), pageOf A module options rows o (k + i)⟩

variable {A module options rows findAndCountAll o}

theorem visitsFrom_succ (k m : ℕ) : visitsFrom A module options rows o k (m + 1) =
    ⟨.ofNat (k + 1), pageOf A module options rows o k⟩ ::
      visitsFrom A module options rows o (k + 1) m := by
  unfold visitsFrom
  rw [List.range_succ_eq_map, List.map_cons, List.map_map]
  refine congrArg₂ _ rfl (List.map_congr_left fun i _ => ?_)
  simp only [Function.comp_apply, show k + i.succ = k + 1 + i by omega]

/-- The pages up to the last one start with a row, but for the first one. -/
theorem lt_length_of_page (ho : 1 ≤ o) {k : ℕ} (h : k < max 1 (rows.length ⌈/⌉ o)) :
    k = 0 ∨ k * o < rows.length := by
  rcases Nat.eq_zero_or_pos k with hzero | hpos
  · exact .inl hzero
  · have hlt : k < rows.length ⌈/⌉ o := by omega
    refine .inr (not_le.mp fun hle => not_le.mpr hlt ?_)
    rw [ceilDiv_le_iff_le_mul ho, mul_comm]
    exact hle

section

variable (hcounts : A.Counts rows.length o) (ho : 1 ≤ o)

include hcounts ho

/-- From every page that there is, the walk goes on to the last one. The induction is on the number
    of pages behind it. -/
theorem walk_range (hmodel : FindsWindows rows findAndCountAll) (m k : ℕ)
    (hm : k + m + 1 = max 1 (rows.length ⌈/⌉ o)) :
    Walk (request A module options findAndCountAll o) (.ofNat (k + 1))
      (visitsFrom A module options rows o k (m + 1)) := by
  have hk : k = 0 ∨ k * o < rows.length := lt_length_of_page ho (by omega)
  have hanswer : request A module options findAndCountAll o (.ofNat (k + 1)) =
      .ok (pageOf A module options rows o k) := request_eq hcounts hmodel ho hk
  induction m generalizing k with
  | zero =>
    refine .last hanswer ?_
    show (pageOf A module options rows o k).meta_.nextPage = .null
    rw [pageOf_nextPage hcounts ho hk, if_neg (by omega)]
  | succ m ih =>
    have hnext : (pageOf A module options rows o k).meta_.nextPage = .ofNat (k + 2) := by
      rw [pageOf_nextPage hcounts ho hk, if_pos (by omega)]
    rw [visitsFrom_succ]
    refine .next hanswer ?_ ?_
    · rw [hnext]
      exact fun h => nomatch h
    · have hk' : k + 1 = 0 ∨ (k + 1) * o < rows.length := lt_length_of_page ho (by omega)
      rw [hnext]
      exact ih (k + 1) (by omega) hk' (request_eq hcounts hmodel ho hk')

/-- The pages before are those visited before. -/
theorem map_prevPage_visitsFrom {m : ℕ} (hm : m + 1 = max 1 (rows.length ⌈/⌉ o)) :
    (visitsFrom A module options rows o 0 (m + 1)).map (·.payload.meta_.prevPage) =
      (.null :: (visitsFrom A module options rows o 0 (m + 1)).map (·.page)).dropLast := by
  have hpages : (visitsFrom A module options rows o 0 (m + 1)).map (·.page) =
      (List.range m).map (fun i => JsValue.ofNat (i + 1)) ++ [.ofNat (m + 1)] := by
    unfold visitsFrom
    rw [List.map_map, List.range_succ, List.map_append]
    simp [Function.comp_def]
  rw [hpages, ← List.cons_append, List.dropLast_concat, visitsFrom_succ, List.map_cons]
  refine congrArg₂ _ ?_ ?_
  · rw [pageOf_prevPage hcounts ho (.inl rfl), if_neg (by omega)]
  · unfold visitsFrom
    rw [List.map_map]
    refine List.map_congr_left fun i hi => ?_
    have hlt := List.mem_range.mp hi
    show (pageOf A module options rows o (0 + 1 + i)).meta_.prevPage = _
    rw [pageOf_prevPage hcounts ho (lt_length_of_page ho (by omega)), if_pos (by omega),
      Nat.add_comm (0 + 1) i]

omit hcounts in
/-- The windows of the pages are the rows. -/
theorem flatMap_items_visitsFrom {m : ℕ} (hm : rows.length ⌈/⌉ o ≤ m) :
    (visitsFrom A module options rows o 0 m).flatMap (·.payload.items) = rows := by
  unfold visitsFrom
  rw [List.flatMap_map]
  simp only [pageOf, Nat.zero_add]
  rw [flatMap_windows]
  refine List.take_of_length_le ?_
  rw [mul_comm]
  exact (ceilDiv_le_iff_le_mul ho).mp hm

end

end Traversal

/-- The walk from the first page ends after as many requests as there are pages, and yields every
    row once and in order; its links name the pages beside. Numbers are exact, or they are doubles
    and there are at most 2^52 rows. -/
theorem walk_traverses {ε α : Type} {A : Arithmetic} {rows : List α} {o : ℕ} (ho : 1 ≤ o)
    (hA : A = .exact ∨
      A = .double ∧ rows.length ≤ 2 ^ 52 ∧ (JsDouble.finite o).IsDouble)
    {findAndCountAll : FindAndCountAll ε α} (hmodel : FindsWindows rows findAndCountAll)
    (module : PaginateModuleOptions) (options : PaginateOptions) :
    ∃ visits, Traverses A module options rows o visits ∧ ∀ visits',
      Walk (request A module options findAndCountAll o) (.ofNat 1) visits' ↔ visits' = visits := by
  have hcounts : A.Counts rows.length o := by
    rcases hA with rfl | ⟨rfl, hrows, hdouble⟩
    · exact Arithmetic.counts_exact _ ho
    · exact Arithmetic.counts_double _ ho hrows hdouble
  obtain ⟨m, hm⟩ : ∃ m, 0 + m + 1 = max 1 (rows.length ⌈/⌉ o) := ⟨max 1 (rows.length ⌈/⌉ o) - 1, by omega⟩
  have hwalk : Walk (request A module options findAndCountAll o) (.ofNat 1)
      (visitsFrom A module options rows o 0 (m + 1)) := walk_range hcounts ho hmodel m 0 hm
  refine ⟨visitsFrom A module options rows o 0 (m + 1), ⟨?_, ?_, ?_, ?_⟩, ?_⟩
  · unfold visitsFrom
    rw [List.length_map, List.length_range, ← hm, Nat.zero_add]
  · exact flatMap_items_visitsFrom ho (by omega)
  · exact map_prevPage_visitsFrom hcounts ho (by omega)
  · intro hshow v hv
    obtain ⟨i, hi, rfl⟩ := List.mem_map.mp hv
    have hlt := List.mem_range.mp hi
    exact pageOf_links hcounts ho (lt_length_of_page ho (by omega)) hshow
  · intro visits'
    constructor
    · exact hwalk.unique
    · rintro rfl
      exact hwalk

/-- A table that is read by windows; a negative offset is refused. -/
def windowsOf (rows : List ℕ) : FindAndCountAll String ℕ
  | .number (.finite limit), .finite start =>
    if start < 0 then .error "OFFSET must not be negative"
    else .ok (.finite rows.length, (rows.drop start.num.toNat).take limit.num.toNat)
  | _, _ => .error "invalid LIMIT"

/-- Five rows in pages of two are three requests. -/
theorem walk_traverses_sample : ∃ visits,
    Walk (request .double {} { showUrl := some true } (windowsOf [1, 2, 3, 4, 5]) 2) (.ofNat 1)
      visits ∧ visits.length = 3 ∧ visits.flatMap (·.payload.items) = [1, 2, 3, 4, 5] := by
  have hmodel : FindsWindows [1, 2, 3, 4, 5] (windowsOf [1, 2, 3, 4, 5]) := by
    intro limit start
    show (if ((start : ℕ) : ℚ) < 0 then _ else _) = _
    rw [if_neg (not_lt.mpr (Nat.cast_nonneg start))]
    rfl
  obtain ⟨visits, htraverses, hwalk⟩ := walk_traverses (A := .double) (o := 2) (by decide)
    (.inr ⟨rfl, by decide, JsDouble.roundDouble_natCast (by decide)⟩) hmodel {}
    { showUrl := some true }
  exact ⟨visits, (hwalk visits).mpr rfl, htraverses.length.trans (by decide), htraverses.rows⟩

end NestTemplate
