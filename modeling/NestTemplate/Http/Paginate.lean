import NestTemplate.Common.JsValue

/-!
# `OverwritePaginateService`

Page and page size come from a controller, as numbers or, taken from a query
parameter, as texts. `page * offset` and `page - 1` read a text as a number,
`page + 1` joins texts, and without a page size the division is by zero.

* `nextPage_ofNat`, `prevPage_ofNat`: the pages beside a page that is a number.
-/

namespace NestTemplate

open Common

/-- `PaginateModuleOptions`, the provided `PAGINATE_OPTIONS`. -/
structure PaginateModuleOptions where
  url : Option String := none
  showUrl : Option Bool := none
  structure_ : Option String := none
  defaultOffset : Option JsValue := none
  defaultPage : Option JsValue := none
  showOffset : Option Bool := none

/-- `PaginateOptions`, without the model. -/
structure PaginateOptions where
  url : Option String := none
  showUrl : Option Bool := none
  structure_ : Option String := none
  offset : Option JsValue := none
  page : Option JsValue := none
  path : Option String := none
  showOffset : Option Bool := none

/-- `meta`. -/
@[ext]
structure PaginateMeta where
  page : JsDouble
  nextPage : JsValue
  prevPage : JsValue
  offset : JsValue
  totalItems : JsDouble
  itemCount : JsValue
  totalPages : JsDouble

/-- `links`. -/
structure PaginateLinks where
  nextUrl : Option String
  prevUrl : Option String
  firstUrl : String
  lastUrl : String

/-- The payload. `segmented` tells whether `meta` and `links` are members of it or spread into it. -/
structure PaginatePayload (α : Type) where
  segmented : Bool
  meta_ : PaginateMeta
  items : List α
  links : Option PaginateLinks

/-- `findAndCountAll` of a model, from the limit and the offset to the count and the rows. The
    database may refuse the query. -/
abbrev FindAndCountAll (ε α : Type) := JsValue → JsDouble → Except ε (JsDouble × List α)

namespace OverwritePaginateService

/-- `iu(a) || iu(b) || null`. -/
def firstOf (a b : Option JsValue) : JsValue :=
  ((a.filter JsValue.truthy).or (b.filter JsValue.truthy)).getD .null

/-- `iu(a) || iu(b) || null` of texts. -/
def firstText (a b : Option String) : Option String := (a.filter (· ≠ "")).or (b.filter (· ≠ ""))

/-- `iu(a) || iu(b) || null` of flags. -/
def firstFlag (a b : Option Bool) : Bool := a.getD false || b.getD false

section

variable (A : Arithmetic)

/-- `nextPage`. -/
def nextPage (page : JsValue) (totalPages : JsDouble) : JsValue :=
  let aux := page.addOne A
  if aux.toNumber.le totalPages then aux else .null

/-- `prevPage`. -/
def prevPage (page : JsValue) : JsValue :=
  let aux := page.sub A (.ofNat 1)
  if (JsDouble.finite 1).le aux then .number aux else .null

/-- `meta`, of a count. -/
def metaOf (page offset : JsValue) (totalItems : JsDouble) : PaginateMeta :=
  let totalPages := (JsDouble.div A.round totalItems offset.toNumber).ceil
  { page := page.parseFloat
    nextPage := nextPage A page totalPages
    prevPage := prevPage A page
    offset := offset
    totalItems := totalItems
    itemCount := offset
    totalPages := totalPages }

/-- The link to a page: none where `page` counts as false. -/
def linkTo (url : String) (allowOffset : Bool) (offset page : JsValue) : Option String :=
  if page.truthy then
    some (url ++ page.toText A ++ if allowOffset then "&offset=" ++ offset.toText A else "")
  else none

/-- `links`. -/
def linksOf (url : String) (allowOffset : Bool) (meta_ : PaginateMeta) : PaginateLinks where
  nextUrl := linkTo A url allowOffset meta_.offset meta_.nextPage
  prevUrl := linkTo A url allowOffset meta_.offset meta_.prevPage
  firstUrl := url ++ "1"
  lastUrl := url ++ A.toText meta_.totalPages

/-- `url` after `url += path + '?page='`, where what is not set is joined as `null`. -/
def urlOf (module : PaginateModuleOptions) (options : PaginateOptions) : String :=
  (firstText options.url module.url).getD "null" ++
    ((firstText options.path none).getD "null" ++ "?page=")

/-- `start`: the number of rows before the page. -/
def startOf (page offset : JsValue) : JsDouble :=
  let end_ := page.mul A offset
  (JsValue.number end_).sub A offset

/-- `findAllPaginate`. -/
def findAllPaginate {ε α : Type} (module : PaginateModuleOptions) (options : PaginateOptions)
    (findAndCountAll : FindAndCountAll ε α) : Except ε (PaginatePayload α) := do
  let offset := firstOf options.offset module.defaultOffset
  let page := firstOf options.page module.defaultPage
  let data ← findAndCountAll offset (startOf A page offset)
  let meta_ := metaOf A page offset data.1
  return {
    segmented := firstText options.structure_ module.structure_ = some "segmented"
    meta_ := meta_
    items := data.2
    links :=
      if firstFlag options.showUrl module.showUrl then
        some (linksOf A (urlOf module options) (firstFlag options.showOffset module.showOffset) meta_)
      else none }

end

/-! ## A page and a page size that are numbers -/

theorem firstOf_of_truthy {v : JsValue} (h : v.truthy = true) (b : Option JsValue) :
    firstOf (some v) b = v := by
  simp [firstOf, Option.filter, h]

section Numbers

variable {A : Arithmetic}

theorem nextPage_ofNat {p : ℕ} (hround : A.round (p + 1 : ℕ) = .finite (p + 1 : ℕ)) (t : ℕ) :
    nextPage A (.ofNat p) (.finite t) = if p + 1 ≤ t then .ofNat (p + 1) else .null := by
  have hadd : (JsValue.ofNat p).addOne A = .ofNat (p + 1) := by
    rw [Nat.cast_add, Nat.cast_one] at hround
    show JsValue.number (A.round (p + 1)) = .number (.finite (p + 1 : ℕ))
    rw [hround, Nat.cast_add, Nat.cast_one]
  unfold nextPage
  rw [hadd]
  simp only [JsValue.toNumber_ofNat, JsDouble.le_finite, Nat.cast_le, decide_eq_true_eq]

theorem prevPage_of_toNumber {page : JsValue} {p : ℕ} (hp : 1 ≤ p) (hpage : page.toNumber = .finite p) :
    prevPage A page =
      if (JsDouble.finite 1).le (A.round (p - 1 : ℕ)) then .number (A.round (p - 1 : ℕ))
      else .null := by
  have hsub : page.sub A (.ofNat 1) = A.round (p - 1 : ℕ) := by
    unfold JsValue.sub
    rw [hpage, JsValue.toNumber_ofNat, JsDouble.sub_finite _ _ (by simp), Nat.cast_sub hp]
  unfold prevPage
  rw [hsub]

theorem prevPage_ofNat {page : JsValue} {p : ℕ} (hp : 1 ≤ p) (hpage : page.toNumber = .finite p)
    (hround : A.round (p - 1 : ℕ) = .finite (p - 1 : ℕ)) :
    prevPage A page = if 2 ≤ p then .ofNat (p - 1) else .null := by
  have hle : (JsDouble.finite 1).le (.finite (p - 1 : ℕ)) = decide (2 ≤ p) := by
    rw [JsDouble.le_finite, decide_eq_decide, Nat.one_le_cast]
    omega
  rw [prevPage_of_toNumber hp hpage, hround, hle]
  simp only [decide_eq_true_eq]
  rfl

end Numbers

end OverwritePaginateService

end NestTemplate
