import NestTemplate.Common.Action
import NestTemplate.Common.JsObject
import NestTemplate.Common.Template
import NestTemplate.Common.Url
import NestTemplate.Http.Pages
import NestTemplate.Http.Validation

/-!
# `UrlBuilderService`

A URL of the application: a path with parameters, resolved against the
configured address, and the query parameters appended to it.

* `appendQueryParams_isOk`: when every parameter converts to a text.
* `value_appendQueryParams`: a query reads back what was appended.
-/

namespace NestTemplate

open Common

/-! ## Path parameters -/

/-- `text.replace(pattern, value)`. -/
def replaceFirst (pattern value text : List Char) : List Char :=
  match splitFirst pattern text with
  | none => text
  | some (before, after) => before ++ replacement before pattern after value ++ after

namespace UrlBuilderService

/-- `getReplacedPathParameters`, where a value is the text that `value.toString()` gives. -/
def getReplacedPathParameters (pathParams : JsObject String) (baseUrl : String) : String :=
  String.ofList (pathParams.entries.foldl
    (fun replacedString (key, value) => replaceFirst (':' :: key.toList) value.toList replacedString)
    baseUrl.toList)

@[simp] theorem getReplacedPathParameters_empty (baseUrl : String) :
    getReplacedPathParameters ∅ baseUrl = baseUrl := String.ofList_toList

/-! ## Query parameters -/

/-- A parameter as pairs: a list has one for each element. -/
def queryValues : String × Json → List (String × Json)
  | (queryKey, .arr values) => values.map (queryKey, ·)
  | (queryKey, queryValue) => [(queryKey, queryValue)]

/-- `queryValue?.toString() ?? ''`. -/
def queryText (queryValue : Json) : Except Failure String :=
  match queryValue, templateText queryValue with
  | .null, _ => .ok ""
  | _, some text => .ok text
  | .obj _, none => .error (.error "queryValue?.toString is not a function")
  | _, none => .error (.error "Cannot convert object to primitive value")

/-- `url.searchParams.append(queryKey, queryValue?.toString() ?? '')`. -/
def appendPair (url : Url) (e : String × Json) : Except Failure Url :=
  (queryText e.2).map (url.append e.1)

/-- `appendQueryParams`. -/
def appendQueryParams (queryParams : JsObject Json) (url : Url) : Except Failure Url :=
  (queryParams.entries.flatMap queryValues).foldlM appendPair url

end UrlBuilderService

/-- `UrlBuilderService` over `new URL(input, system.url)`; `none` where that throws. -/
structure UrlBuilderService where
  resolve : String → Option Url

namespace UrlBuilderService

/-- `url`. -/
def url (urlBuilder : UrlBuilderService) (baseUrl : String) (pathParameters : JsObject String)
    (queryParameters : JsObject Json) : Except Failure String :=
  match urlBuilder.resolve (getReplacedPathParameters pathParameters baseUrl) with
  | none => .error (.error "Invalid URL")
  | some url => (appendQueryParams queryParameters url).map Url.toString

/-! ## What is appended -/

theorem queryText_isOk {v : Json} : (∃ s, queryText v = .ok s) ↔ hasText v = true := by
  rw [← isSome_templateText]
  unfold queryText
  split
  · rw [templateText]
    simp
  all_goals
    rename_i h
    rw [h]
    simp

/-- What is appended for a pair. -/
def IsText (e : String × Json) (p : String × String) : Prop := e.1 = p.1 ∧ queryText e.2 = .ok p.2

theorem appendPair_eq_ok {url url' : Url} {e : String × Json} :
    appendPair url e = .ok url' ↔ ∃ p, IsText e p ∧ url' = url.append p.1 p.2 := by
  unfold appendPair
  rw [Action.map_eq_ok]
  constructor
  · rintro ⟨s, hs, rfl⟩
    exact ⟨(e.1, s), ⟨rfl, hs⟩, rfl⟩
  · rintro ⟨⟨key, s⟩, ⟨rfl, hs⟩, rfl⟩
    exact ⟨s, hs, rfl⟩

/-- The pairs are appended in their order. -/
theorem foldlM_appendPair_eq_ok {es : List (String × Json)} {url url' : Url} :
    es.foldlM appendPair url = .ok url' ↔
      ∃ ps, List.Forall₂ IsText es ps ∧ url' = ps.foldl (fun url p => url.append p.1 p.2) url := by
  induction es generalizing url with
  | nil => simp [pure, Except.pure, eq_comm]
  | cons e es ih =>
    rw [List.foldlM_cons]
    simp only [Action.except_bind_eq_ok, appendPair_eq_ok, ih, List.forall₂_cons_left_iff]
    constructor
    · rintro ⟨_, ⟨p, hp, rfl⟩, ps, hps, rfl⟩
      exact ⟨p :: ps, ⟨p, ps, hp, hps, rfl⟩, rfl⟩
    · rintro ⟨_, ⟨p, ps, hp, hps, rfl⟩, rfl⟩
      exact ⟨_, ⟨p, hp, rfl⟩, ps, hps, rfl⟩

theorem searchParams_foldl_append (ps : List (String × String)) (url : Url) :
    (ps.foldl (fun url p => url.append p.1 p.2) url).searchParams = url.searchParams ++ ps := by
  induction ps generalizing url with
  | nil => simp
  | cons p ps ih => rw [List.foldl_cons, ih, Url.searchParams_append, List.append_assoc]; rfl

/-- The query of the new URL. -/
theorem searchParams_of_appendQueryParams {queryParams : JsObject Json} {url url' : Url}
    (h : appendQueryParams queryParams url = .ok url') :
    ∃ ps, List.Forall₂ IsText (queryParams.entries.flatMap queryValues) ps ∧
      url'.searchParams = url.searchParams ++ ps := by
  obtain ⟨ps, hps, rfl⟩ := foldlM_appendPair_eq_ok.mp h
  exact ⟨ps, hps, searchParams_foldl_append ps url⟩

theorem exists_forall₂_isText {es : List (String × Json)} :
    (∃ ps, List.Forall₂ IsText es ps) ↔ ∀ e ∈ es, hasText e.2 = true := by
  induction es with
  | nil => simp
  | cons e es ih =>
    rw [List.forall_mem_cons, ← ih, ← queryText_isOk]
    constructor
    · rintro ⟨_, _ | ⟨⟨-, hs⟩, hps⟩⟩
      exact ⟨⟨_, hs⟩, _, hps⟩
    · rintro ⟨⟨s, hs⟩, ps, hps⟩
      exact ⟨(e.1, s) :: ps, .cons ⟨rfl, hs⟩ hps⟩

theorem hasText_queryValues {e : String × Json} :
    (∀ p ∈ queryValues e, hasText p.2 = true) ↔ hasText e.2 = true := by
  obtain ⟨key, v⟩ := e
  cases v with
  | arr vs => simp [queryValues, hasText, haveTexts_iff]
  | _ => simp [queryValues]

/-- The parameters are appended iff each of them has a text. -/
theorem appendQueryParams_isOk {queryParams : JsObject Json} {url : Url} :
    (∃ url', appendQueryParams queryParams url = .ok url') ↔
      ∀ e ∈ queryParams, hasText e.2 = true := by
  simp only [appendQueryParams, foldlM_appendPair_eq_ok]
  rw [exists_comm]
  simp only [exists_and_left, exists_eq, and_true]
  rw [exists_forall₂_isText, List.forall_mem_flatMap]
  simp only [hasText_queryValues, JsObject.mem_entries]

/-! ## What a query reads back -/

/-- What a query has under a name: a text, or a list of at least two. -/
def IsQueryValue (v : Json) : Prop :=
  (∃ s, v = .str s) ∨ ∃ s t ss, v = .arr ((s :: t :: ss).map .str)

theorem isQueryValue {query : Query} {name : String} {v : Json} (h : v ∈ query.value name) :
    IsQueryValue v := by
  unfold Query.value at h
  match hvs : query.values name with
  | [] => rw [hvs] at h; cases h
  | [s] => rw [hvs] at h; exact .inl ⟨s, (Option.some.inj h).symm⟩
  | s :: t :: ss => rw [hvs] at h; exact .inr ⟨s, t, ss, (Option.some.inj h).symm⟩

theorem fst_of_mem_queryValues {e p : String × Json} (h : p ∈ queryValues e) : p.1 = e.1 := by
  unfold queryValues at h
  split at h
  · obtain ⟨v, -, rfl⟩ := List.mem_map.mp h
    rfl
  · rw [List.mem_singleton.mp h]

/-- The pairs with a key are those of the parameter with this key. -/
theorem filter_flatMap_queryValues (queryParams : JsObject Json) (key : String) :
    (queryParams.entries.flatMap queryValues).filter (·.1 = key) =
      ((queryParams.get? key).map fun v => queryValues (key, v)).getD [] := by
  have hfilter : ∀ es : List (String × Json), (es.flatMap queryValues).filter (·.1 = key) =
      (es.filter (·.1 = key)).flatMap queryValues := by
    intro es
    induction es with
    | nil => rfl
    | cons e es ih =>
      rw [List.flatMap_cons, List.filter_append, ih, List.filter_cons]
      by_cases hkey : e.1 = key
      · rw [if_pos (by simpa using hkey), List.flatMap_cons, List.filter_eq_self.mpr]
        intro p hp
        simpa [fst_of_mem_queryValues hp] using hkey
      · rw [if_neg (by simpa using hkey), List.filter_eq_nil_iff.mpr, List.nil_append]
        intro p hp
        simpa [fst_of_mem_queryValues hp] using hkey
  rw [hfilter, JsObject.filter_entries]
  cases queryParams.get? key <;> simp

theorem forall₂_isText_map_str {key : String} (ss : List String) {ps : List (String × String)}
    (h : List.Forall₂ IsText (ss.map fun s => (key, .str s)) ps) : ps.map Prod.snd = ss := by
  induction ss generalizing ps with
  | nil => cases h; rfl
  | cons s ss ih =>
    cases h with
    | cons hp hps =>
      rw [List.map_cons, ih hps]
      exact congrArg (· :: ss) (Except.ok.inj hp.2).symm

/-- The texts that are appended for a parameter of a query. -/
theorem value_of_isText {query : Query} {key : String} {v : Json} (hv : IsQueryValue v)
    (h : List.Forall₂ IsText (queryValues (key, v)) (query.filter (·.1 = key))) :
    query.value key = some v := by
  unfold Query.value Query.values
  rcases hv with ⟨s, rfl⟩ | ⟨s, t, ss, rfl⟩
  · rw [forall₂_isText_map_str [s] h]
  · rw [queryValues, List.map_map] at h
    rw [forall₂_isText_map_str _ h]

/-- **Main theorem**: the query of the new URL has the parameter that was appended, if a query can
    have it at all, and no other one. -/
theorem value_appendQueryParams {queryParams : JsObject Json} {url url' : Url} {key : String}
    (h : appendQueryParams queryParams url = .ok url') (hurl : url.searchParams = [])
    (hv : ∀ v ∈ queryParams.get? key, IsQueryValue v) :
    Query.value url'.searchParams key = queryParams.get? key := by
  obtain ⟨ps, hps, hparams⟩ := searchParams_of_appendQueryParams h
  rw [hurl, List.nil_append] at hparams
  have hkeys : Relator.LiftFun IsText (· ↔ ·) (fun e : String × Json => decide (e.1 = key) = true)
      (fun p : String × String => decide (p.1 = key) = true) := by
    rintro e p ⟨hkey, -⟩
    simp only [hkey]
  have hfilter := List.rel_filter hkeys hps
  rw [filter_flatMap_queryValues] at hfilter
  rw [hparams]
  cases hget : queryParams.get? key with
  | none =>
    rw [hget, Option.map_none, Option.getD_none, List.forall₂_nil_left_iff] at hfilter
    rw [Query.value, Query.values, hfilter]
    rfl
  | some v =>
    rw [hget, Option.map_some, Option.getD_some] at hfilter
    exact value_of_isText (hv v hget) hfilter

end UrlBuilderService

end NestTemplate
