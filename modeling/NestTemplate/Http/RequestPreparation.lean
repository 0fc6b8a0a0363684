import Mathlib
import NestTemplate.Common.Action
import NestTemplate.Http.Validation

/-!
# What every request passes through

`MethodChangeMiddleware` and, before the handler, `ContextInterceptor`. Each
reads the body under an assumption of its own: the first that `typeof body ===
'object'` means there are members and that `_method` is a string where it is
set, the second that a request that is no `GET` has a body.

* `overrideOf_eq_ok`: when the middleware goes on, and with which method.
* `assignContext_eq_ok`: which bodies take the context.
* `passesOn_iff`: which requests get through.
-/

namespace NestTemplate

open Common

/-- What the two steps read and write of a request. `body` is `none` for `undefined`. -/
structure HttpRequest where
  method : String
  body : Option Json
  params : Json
  query : Json
  /-- `request.user.id`. -/
  user : Option ℕ

/-- A request on its way, and what was passed on to the handler. -/
structure RequestFlow where
  request : HttpRequest
  handled : List HttpRequest

/-- A step of the way. -/
abbrev RequestStep := Action Failure RequestFlow Unit

/-- `next.handle()`. -/
def RequestFlow.handle : RequestStep :=
  Action.write fun flow => .ok { flow with handled := flow.handled ++ [flow.request] }

/-- The step after the request was changed to `request`. -/
def RequestFlow.continueWith (request : HttpRequest) (next : RequestStep) : RequestStep := fun flow =>
  next { flow with request := request }

/-- `text.toUpperCase()`. Methods are ASCII. -/
def toUpperCase (text : String) : String := String.ofList (text.toList.map Char.toUpper)

/-! ## `MethodChangeMiddleware` -/

namespace MethodChangeMiddleware

def allowedMethods : List String := ["put", "get", "delete", "post", "patch", "head"]

/-- `this.allowedMethods.includes(method.toLowerCase())`. -/
def allows (method : String) : Bool :=
  allowedMethods.contains (String.ofList (method.toList.map Char.toLower))

/-- The override of `use`, where the body has members. -/
def overrideOf (request : HttpRequest) (body : Json) : Except Failure String :=
  let override := body.get? "_method"
  if Json.truthy override = false then .ok request.method
  else
    match override with
    | some (.str method) => .ok (if allows method then method else request.method)
    | _ => .error (.error "overrideMethod.toLowerCase is not a function")

/-- `overrideMethod` at the end of `use`. -/
def overrideMethod (request : HttpRequest) : Except Failure String :=
  match request.body with
  | some .null => .error (.error "Cannot read properties of null (reading '_method')")
  | some (.obj members) => overrideOf request (.obj members)
  -- the elements of an array are no members
  | some (.arr elements) => overrideOf request (.arr elements)
  | none | some (.bool _) | some (.num _) | some (.str _) => .ok request.method

/-- `use`. -/
def use (next : RequestStep) : RequestStep := fun flow =>
  match overrideMethod flow.request with
  | .ok method => flow.continueWith { flow.request with method := toUpperCase method } next
  | .error e => (.error e, flow)

end MethodChangeMiddleware

/-! ## `ContextInterceptor` -/

namespace ContextInterceptor

/-- The context of a request. -/
def context (id : String) (request : HttpRequest) : Json :=
  .obj [("params", request.params), ("query", request.query),
    ("user", (request.user.map fun user => Json.num (.ofNat user)).getD .null), ("id", .str id)]

/-- The assignment to `request.body.__CONTEXT`. A class body is strict code, in which a value
    without members of its own refuses it. -/
def assignContext (context : Json) : Option Json → Except Failure Json
  | none => .error (.error "Cannot set properties of undefined (setting '__CONTEXT')")
  | some .null => .error (.error "Cannot set properties of null (setting '__CONTEXT')")
  | some (.bool b) =>
    .error (.error ("Cannot create property '__CONTEXT' on boolean '" ++ toString b ++ "'"))
  | some (.num x) =>
    .error (.error ("Cannot create property '__CONTEXT' on number '" ++ x.val.toText ++ "'"))
  | some (.str s) => .error (.error ("Cannot create property '__CONTEXT' on string '" ++ s ++ "'"))
  -- the context stands beside the elements
  | some (.arr elements) => .ok (.arr elements)
  | some (.obj members) => .ok (.obj (Json.setMember "__CONTEXT" context members))

/-- `intercept`; `id` is the `randomUUID()`. -/
def intercept (id : String) (next : RequestStep) : RequestStep := fun flow =>
  if toUpperCase flow.request.method = "GET" then next flow
  else
    match assignContext (context id flow.request) flow.request.body with
    | .ok body => flow.continueWith { flow.request with body := some body } next
    | .error e => (.error e, flow)

end ContextInterceptor

/-- `MethodChangeMiddleware.use`, then `ContextInterceptor.intercept`, then the handler. -/
def prepare (id : String) : RequestStep :=
  MethodChangeMiddleware.use (ContextInterceptor.intercept id RequestFlow.handle)

/-! ## What it is for -/

/-- The method a request counts as: the one it asks for in its body, where that is a method. -/
def effectiveMethod (request : HttpRequest) : String :=
  match request.body.bind fun body => (body.get? "_method").bind Json.str? with
  | some method =>
    if MethodChangeMiddleware.allows method then toUpperCase method else toUpperCase request.method
  | none => toUpperCase request.method

/-- The request is handled once, as the method it counts as. -/
def PassesOn (id : String) (request : HttpRequest) : Prop :=
  ∃ handled, prepare id ⟨request, []⟩ = (.ok (), ⟨handled, [handled]⟩) ∧
    handled.method = effectiveMethod request

/-- The requests that both steps can deal with. -/
def Preparable (request : HttpRequest) : Prop :=
  match request.body with
  | none | some (.bool _) | some (.num _) | some (.str _) => toUpperCase request.method = "GET"
  | some .null => False
  | some (.arr _) => True
  | some (.obj members) =>
    Json.truthy (Json.lookup "_method" members) = false ∨
      ∃ method, Json.lookup "_method" members = some (.str method)

/-! ## The two steps -/

theorem toUpperCase_toUpperCase (s : String) : toUpperCase (toUpperCase s) = toUpperCase s := by
  unfold toUpperCase
  rw [String.toList_ofList, List.map_map]
  exact congrArg _ (List.map_congr_left fun c _ => c.toUpper_toUpper_eq_toUpper)

section Steps

variable {request : HttpRequest} {id : String}

namespace MethodChangeMiddleware

/-- The empty text names no method. -/
theorem not_allows_empty : ¬ allows "" = true := by decide

theorem overrideOf_of_str {body : Json} {method : String}
    (h : body.get? "_method" = some (.str method)) :
    overrideOf request body = .ok (if allows method then method else request.method) := by
  unfold overrideOf
  rw [h]
  by_cases hempty : method = ""
  · -- the empty text counts as unset, and names no method either
    subst hempty
    rw [if_neg not_allows_empty]
    exact if_pos (by decide)
  · have htruthy : ¬ Json.truthy (some (.str method)) = false := by
      rw [Json.truthy, decide_eq_true hempty]
      decide
    exact if_neg htruthy

/-- A member that is set and no text stops it. -/
theorem overrideOf_of_not_str {body : Json} (htruthy : Json.truthy (body.get? "_method") = true)
    (h : ∀ method, body.get? "_method" ≠ some (.str method)) :
    overrideOf request body = .error (.error "overrideMethod.toLowerCase is not a function") := by
  refine (if_neg (by rw [htruthy]; decide)).trans ?_
  split
  · rename_i method hm
    exact absurd hm (h method)
  · rfl

/-- The middleware goes on where `_method` is unset or a text. -/
theorem overrideOf_eq_ok {body : Json} {method : String} :
    overrideOf request body = .ok method ↔
      (Json.truthy (body.get? "_method") = false ∧ method = request.method) ∨
        ∃ s, body.get? "_method" = some (.str s) ∧
          method = if allows s then s else request.method := by
  constructor
  · intro h
    cases htruthy : Json.truthy (body.get? "_method") with
    | false =>
      have hunset : overrideOf request body = .ok request.method := if_pos htruthy
      exact .inl ⟨rfl, (Except.ok.inj (hunset.symm.trans h)).symm⟩
    | true =>
      have hset : ¬ Json.truthy (body.get? "_method") = false := by rw [htruthy]; decide
      have h := (if_neg hset).symm.trans h
      split at h
      · rename_i s hs
        exact .inr ⟨s, hs, (Except.ok.inj h).symm⟩
      · cases h
  · rintro (⟨hfalsy, rfl⟩ | ⟨s, hs, rfl⟩)
    · exact if_pos hfalsy
    · exact overrideOf_of_str hs

/-- What is unset names no method. -/
theorem str?_of_falsy {value : Option Json} (h : Json.truthy value = false) :
    value.bind Json.str? = none ∨ value.bind Json.str? = some "" := by
  match value with
  | none | some .null | some (.bool _) | some (.num _) => exact .inl rfl
  | some (.arr _) | some (.obj _) => cases h
  | some (.str s) =>
    have hs : s = "" := by simpa [Json.truthy] using h
    exact .inr (congrArg some hs)

theorem use_of_ok {flow : RequestFlow} {next : RequestStep} {method : String}
    (h : overrideMethod flow.request = .ok method) : use next flow =
      next { flow with request := { flow.request with method := toUpperCase method } } := by
  unfold use
  rw [h]
  rfl

theorem use_of_error {flow : RequestFlow} {next : RequestStep} {e : Failure}
    (h : overrideMethod flow.request = .error e) : use next flow = (.error e, flow) := by
  unfold use
  rw [h]

/-- Where the middleware goes on, it goes on with the method the request counts as. -/
theorem toUpperCase_overrideOf {body : Json} {method : String} (hbody : request.body = some body)
    (h : overrideOf request body = .ok method) : toUpperCase method = effectiveMethod request := by
  unfold effectiveMethod
  rw [hbody, Option.bind_some]
  rcases overrideOf_eq_ok.mp h with ⟨hfalsy, rfl⟩ | ⟨s, hs, rfl⟩
  · rcases str?_of_falsy hfalsy with hs | hs
    · rw [hs]
    · rw [hs]
      exact (if_neg not_allows_empty).symm
  · rw [show (body.get? "_method").bind Json.str? = some s by rw [hs]; rfl]
    exact apply_ite toUpperCase _ _ _

/-- A body without the member leaves the method alone. -/
theorem effectiveMethod_of_not_set (h : ∀ body, request.body = some body → body.get? "_method" = none) :
    effectiveMethod request = toUpperCase request.method := by
  unfold effectiveMethod
  cases hbody : request.body with
  | none => rfl
  | some body => rw [Option.bind_some, h body hbody]; rfl

end MethodChangeMiddleware

namespace ContextInterceptor

/-- Only a body with members takes the context. -/
theorem assignContext_eq_ok (context : Json) {body : Option Json} :
    (∃ body', assignContext context body = .ok body') ↔
      (∃ elements, body = some (.arr elements)) ∨ ∃ members, body = some (.obj members) := by
  unfold assignContext
  split <;> simp

theorem intercept_of_ok (flow : RequestFlow) {next : RequestStep} {body : Json}
    (hget : toUpperCase flow.request.method ≠ "GET")
    (h : assignContext (context id flow.request) flow.request.body = .ok body) :
    intercept id next flow =
      next { flow with request := { flow.request with body := some body } } := by
  unfold intercept
  rw [if_neg hget, h]
  rfl

theorem intercept_of_error (flow : RequestFlow) {next : RequestStep} {e : Failure}
    (hget : toUpperCase flow.request.method ≠ "GET")
    (h : assignContext (context id flow.request) flow.request.body = .error e) :
    intercept id next flow = (.error e, flow) := by
  unfold intercept
  rw [if_neg hget, h]

end ContextInterceptor

/-! ## The whole way -/

/-- What the middleware stops is not handled. -/
theorem not_passesOn_of_error {e : Failure}
    (h : MethodChangeMiddleware.overrideMethod request = .error e) : ¬ PassesOn id request := by
  rintro ⟨handled, hprepare, -⟩
  unfold prepare at hprepare
  rw [MethodChangeMiddleware.use_of_error h] at hprepare
  cases hprepare

/-- What the middleware passes on is handled iff it is a `GET` or its body takes the context. -/
theorem passesOn_iff_of_ok (id : String) {method : String}
    (h : MethodChangeMiddleware.overrideMethod request = .ok method)
    (heffective : toUpperCase method = effectiveMethod request) :
    PassesOn id request ↔ toUpperCase method = "GET" ∨
      (∃ elements, request.body = some (.arr elements)) ∨
        ∃ members, request.body = some (.obj members) := by
  let overridden : HttpRequest := { request with method := toUpperCase method }
  have hupper : toUpperCase overridden.method = toUpperCase method := toUpperCase_toUpperCase method
  have hprepare : prepare id ⟨request, []⟩ =
      ContextInterceptor.intercept id RequestFlow.handle ⟨overridden, []⟩ :=
    MethodChangeMiddleware.use_of_ok h
  unfold PassesOn
  rw [hprepare, ← heffective,
    ← ContextInterceptor.assignContext_eq_ok (ContextInterceptor.context id overridden)]
  by_cases hget : toUpperCase method = "GET"
  · have hhandle : ContextInterceptor.intercept id RequestFlow.handle ⟨overridden, []⟩ =
        (.ok (), ⟨overridden, [overridden]⟩) := if_pos (hupper.trans hget)
    exact iff_of_true ⟨overridden, hhandle, rfl⟩ (.inl hget)
  · have hget' : toUpperCase overridden.method ≠ "GET" := by rwa [hupper]
    cases hbody : ContextInterceptor.assignContext (ContextInterceptor.context id overridden)
        request.body with
    | ok body =>
      refine iff_of_true ⟨{ overridden with body := some body }, ?_, rfl⟩ (.inr ⟨body, rfl⟩)
      rw [ContextInterceptor.intercept_of_ok ⟨overridden, []⟩ hget' hbody]
      rfl
    | error e =>
      refine iff_of_false ?_ ?_
      · rintro ⟨handled, hhandled, -⟩
        rw [ContextInterceptor.intercept_of_error ⟨overridden, []⟩ hget' hbody] at hhandled
        exact nomatch (Prod.mk.inj hhandled).1
      · rintro (h | ⟨body, h⟩)
        · exact hget h
        · exact nomatch h

/-- Without members in the body, only a `GET` is handled. -/
theorem passesOn_iff_of_primitive (id : String)
    (hok : MethodChangeMiddleware.overrideMethod request = .ok request.method)
    (hunset : ∀ body, request.body = some body → body.get? "_method" = none)
    (hbody : ∀ context body, ContextInterceptor.assignContext context request.body ≠ .ok body) :
    PassesOn id request ↔ toUpperCase request.method = "GET" := by
  rw [passesOn_iff_of_ok id hok (MethodChangeMiddleware.effectiveMethod_of_not_set hunset).symm,
    ← ContextInterceptor.assignContext_eq_ok .null]
  exact or_iff_left fun ⟨body, h⟩ => hbody _ body h

/-- With members, every method is handled that `use` goes on with. -/
theorem passesOn_iff_of_members (id : String) {body : Json} (hbody : request.body = some body)
    (hover : MethodChangeMiddleware.overrideMethod request =
      MethodChangeMiddleware.overrideOf request body)
    (hmembers : (∃ elements, body = .arr elements) ∨ ∃ members, body = .obj members) :
    PassesOn id request ↔ Json.truthy (body.get? "_method") = false ∨
      ∃ method, body.get? "_method" = some (.str method) := by
  constructor
  · intro h
    cases hof : MethodChangeMiddleware.overrideOf request body with
    | error e => exact absurd h (not_passesOn_of_error (hover.trans hof))
    | ok method =>
      rcases MethodChangeMiddleware.overrideOf_eq_ok.mp hof with ⟨hfalsy, -⟩ | ⟨s, hs, -⟩
      · exact .inl hfalsy
      · exact .inr ⟨s, hs⟩
  · intro h
    obtain ⟨method, hof⟩ : ∃ method, MethodChangeMiddleware.overrideOf request body = .ok method := by
      rcases h with hfalsy | ⟨s, hs⟩
      · exact ⟨_, MethodChangeMiddleware.overrideOf_eq_ok.mpr (.inl ⟨hfalsy, rfl⟩)⟩
      · exact ⟨_, MethodChangeMiddleware.overrideOf_eq_ok.mpr (.inr ⟨s, hs, rfl⟩)⟩
    refine (passesOn_iff_of_ok id (hover.trans hof)
      (MethodChangeMiddleware.toUpperCase_overrideOf hbody hof)).mpr (.inr ?_)
    rw [hbody]
    exact hmembers.imp (fun ⟨_, h⟩ => ⟨_, congrArg some h⟩) fun ⟨_, h⟩ => ⟨_, congrArg some h⟩

/-- A request is handled once, as the method it counts as, iff both steps can deal with it. -/
theorem passesOn_iff (id : String) (request : HttpRequest) :
    PassesOn id request ↔ Preparable request := by
  obtain ⟨method, body, params, query, user⟩ := request
  match body with
  | none => exact passesOn_iff_of_primitive id rfl (fun _ h => nomatch h) fun _ _ h => nomatch h
  | some (.bool _) | some (.num _) | some (.str _) =>
    exact passesOn_iff_of_primitive id rfl (by rintro _ ⟨⟩; rfl) fun _ _ h => nomatch h
  | some .null => exact iff_of_false (not_passesOn_of_error rfl) fun h => h
  | some (.arr elements) =>
    exact iff_of_true ((passesOn_iff_of_members id rfl rfl (.inl ⟨elements, rfl⟩)).mpr (.inl rfl))
      trivial
  | some (.obj members) => exact passesOn_iff_of_members id rfl rfl (.inr ⟨members, rfl⟩)

end Steps

/-- The override `1` of the tests' request. -/
def numericOverride : HttpRequest where
  method := "get"
  body := some (.obj [("_method", .num (.ofNat 1))])
  params := .obj []
  query := .obj []
  user := none

/-- It is stopped by a `TypeError`. -/
theorem not_passesOn_numericOverride : ¬ PassesOn "" numericOverride := by
  have hmember : (Json.obj [("_method", .num (.ofNat 1))]).get? "_method" = some (.num (.ofNat 1)) := rfl
  have htruthy : (JsDouble.roundDouble (1 : ℕ)).truthy = true := by
    rw [JsDouble.roundDouble_natCast (by decide), JsDouble.truthy_finite]
    decide
  have hover : MethodChangeMiddleware.overrideOf numericOverride (.obj [("_method", .num (.ofNat 1))]) =
      .error (.error "overrideMethod.toLowerCase is not a function") :=
    MethodChangeMiddleware.overrideOf_of_not_str (by rw [hmember]; exact htruthy)
      (by rw [hmember]; exact fun _ h => nomatch Option.some.inj h)
  exact not_passesOn_of_error hover

end NestTemplate
