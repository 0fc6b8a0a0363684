import Mathlib.Data.List.Infix
import NestTemplate.Common.Action
import NestTemplate.Http.ErrorFormat

/-!
# The session of a page request

connect-flash's messages and the previous URL in a request's session, the
interceptors that write the previous URL and destroy the session of an API call,
and the filter that answers a failed validation.

`request.session` is `none` once the session is destroyed.

* `KillForApiInterceptor.intercept_session`, `SessionMapPreviousUrlInterceptor.intercept_htmlGet`:
  what the interceptors leave.
* `ErrorValidationFormatFilter.catchException_html`, `catchException_destroyed`: the answer of the
  filter to a page request, with and without a session.
-/

namespace NestTemplate

open Common

def SESSION_VALIDATION_ERROR_KEY : String := "validationErrors"

def SESSION_VALIDATION_INPUTS : String := "validationAllInputs"

theorem keys_ne : SESSION_VALIDATION_ERROR_KEY ≠ SESSION_VALIDATION_INPUTS := by decide

/-- The members of a session that these components use. -/
structure PageSession where
  /-- `session._previous` and its `url`. -/
  previous : Option (Option String) := none
  /-- The flash messages by key. -/
  flash : String → List String := fun _ => []

/-- The parts of a request that these components use. -/
structure PageRequest where
  method : String
  /-- The path and the query. -/
  url : String
  xhr : Bool
  /-- `request.accepts(['html', 'text', 'json']) === 'json'`. -/
  acceptsJson : Bool
  /-- `request.header('referrer')`. -/
  referrer : Option String
  body : Option Json

/-- What a request does to its session. -/
abbrev PageAction := Action Failure (Option PageSession)

/-- `text.includes(marker)`. -/
abbrev includes (text marker : String) : Prop := marker.toList <:+: text.toList

/-! ## connect-flash -/

namespace PageSession

/-- The session with these messages under `key`. -/
def setFlash (session : PageSession) (key : String) (messages : List String) : PageSession :=
  { session with flash := Function.update session.flash key messages }

@[simp] theorem setFlash_flash_self (session : PageSession) (key : String)
    (messages : List String) : (session.setFlash key messages).flash key = messages :=
  Function.update_self ..

@[simp] theorem setFlash_flash_of_ne (session : PageSession) {key key' : String} (h : key' ≠ key)
    (messages : List String) :
    (session.setFlash key messages).flash key' = session.flash key' :=
  Function.update_of_ne h ..

@[simp] theorem setFlash_setFlash (session : PageSession) (key : String)
    (messages messages' : List String) :
    (session.setFlash key messages).setFlash key messages' = session.setFlash key messages' := by
  simp [setFlash]

theorem setFlash_comm (session : PageSession) {key key' : String} (h : key ≠ key')
    (messages messages' : List String) :
    (session.setFlash key messages).setFlash key' messages' =
      (session.setFlash key' messages').setFlash key messages := by
  simp [setFlash, Function.update_comm h]

end PageSession

/-- `request.flash(key)`: the messages are returned, and removed. -/
def flash (key : String) : PageAction (List String) := fun
  | none => (.error (.error "req.flash() requires sessions"), none)
  | some session => (.ok (session.flash key), some (session.setFlash key []))

/-- `request.flash(key, message)`; an empty message, as well as none, reads instead. -/
def flashMessage (key : String) (message : Option String) : PageAction Unit := fun
  | none => (.error (.error "req.flash() requires sessions"), none)
  | some session =>
    let messages := (message.filter (· ≠ "")).elim [] fun message => session.flash key ++ [message]
    (.ok (), some (session.setFlash key messages))

/-! ## The interceptors -/

/-- `SessionMapPreviousUrlInterceptor.intercept`, before the handler. -/
def SessionMapPreviousUrlInterceptor.intercept (request : PageRequest) : PageAction Unit := fun s =>
  if includes request.url "api/v1" ∨ includes request.url "oauth/token" ∨
      includes request.url "oauth/refresh" then (.ok (), s)
  else
    match s with
    | none => (.error (.error "Cannot read properties of undefined (reading '_previous')"), none)
    | some session =>
      let previous := session.previous.getD none
      if request.method.toUpper = "GET" ∧ request.acceptsJson = false ∧ request.xhr = false then
        (.ok (), some { session with previous := some (some request.url) })
      else (.ok (), some { session with previous := some previous })

section

open SessionMapPreviousUrlInterceptor

variable {request : PageRequest}

/-- The session of an API call stays. -/
theorem SessionMapPreviousUrlInterceptor.intercept_of_includes
    (h : includes request.url "api/v1" ∨ includes request.url "oauth/token" ∨
      includes request.url "oauth/refresh") (s : Option PageSession) :
    intercept request s = (.ok (), s) := if_pos h

/-- Every other request is mapped: a navigation to its own URL. -/
theorem SessionMapPreviousUrlInterceptor.intercept_of_not_includes
    (h : ¬ (includes request.url "api/v1" ∨ includes request.url "oauth/token" ∨
      includes request.url "oauth/refresh")) (session : PageSession) :
    intercept request (some session) = (.ok (), some { session with
      previous := some (
        if request.method.toUpper = "GET" ∧ request.acceptsJson = false ∧ request.xhr = false then
          some request.url
        else session.previous.getD none) }) := by
  refine (if_neg h).trans ?_
  dsimp only
  split <;> rfl

end

/-- The URLs whose session `KillForApiInterceptor` destroys. -/
def KillForApiInterceptor.Kills (url : String) : Prop :=
  includes url "api" ∨ includes url "oauth/token" ∨ includes url "oauth/refresh"

instance (url : String) : Decidable (KillForApiInterceptor.Kills url) :=
  inferInstanceAs (Decidable (_ ∨ _ ∨ _))

/-- `KillForApiInterceptor.intercept`: the session is destroyed behind the handler, also where it
    throws. -/
def KillForApiInterceptor.intercept {α : Type} (url : String) (next : PageAction α) :
    PageAction α := fun s =>
  if Kills url then
    match next s with
    | (result, some _) => (result, none)
    | (_, none) => (.error (.error "Cannot read properties of undefined (reading 'destroy')"), none)
  else next s

/-- Behind the interceptor the session is gone, or as the handler left it. -/
theorem KillForApiInterceptor.intercept_session {α : Type} (url : String) (next : PageAction α)
    (s : Option PageSession) :
    (intercept url next s).2 = if Kills url then none else (next s).2 := by
  unfold intercept
  split
  · rcases next s with ⟨_, _ | _⟩ <;> rfl
  · rfl

/-! ## The filter -/

/-- The response of an `UnprocessableEntityException`. -/
structure DefaultValidationError where
  statusCode : ℕ
  error : String
  message : List ValidationError

/-- The answer of the filter. -/
inductive ErrorResponse where
  | json (status : ℕ) (errors : ValidationErrorsFormat) (message : String)
  | redirect (url : String)

/-- The errors as a JSON object. -/
def ValidationErrorsFormat.toJson (errors : ValidationErrorsFormat) : Json :=
  .obj (errors.entries.map fun e => (e.1, .arr (e.2.map .str)))

/-- An object has a text, which connect-flash takes. -/
theorem filter_stringify_obj (ms : List (String × Json)) :
    (some (Json.obj ms).stringify).filter (· ≠ "") = some (Json.obj ms).stringify := by
  have hne : (Json.obj ms).stringify ≠ "" := by
    intro h
    have hprint := congrArg String.toList h
    rw [Json.stringify, String.toList_ofList] at hprint
    cases ms <;> cases hprint
  rw [Option.filter_some, if_pos (decide_eq_true hne)]

namespace ErrorValidationFormatFilter

/-- `session._previous?.url || '/'`. -/
def sessionPreviousUrl (session : PageSession) : String :=
  ((session.previous.join).filter (· ≠ "")).getD "/"

/-- `request.header('referrer') || sessionPreviousUrl`. -/
def previousUrl (request : PageRequest) : PageAction String := fun
  | none => (.error (.error "Cannot read properties of undefined (reading '_previous')"), none)
  | some session =>
    (.ok ((request.referrer.filter (· ≠ "")).getD (sessionPreviousUrl session)), some session)

/-- `catch`. -/
def catchException (errorResponse : DefaultValidationError) (request : PageRequest) :
    PageAction ErrorResponse :=
  let errors := formattedErrors errorResponse.message
  if request.acceptsJson then pure (.json errorResponse.statusCode errors errorResponse.error)
  else do
    let _ ← flash SESSION_VALIDATION_ERROR_KEY
    let _ ← flash SESSION_VALIDATION_INPUTS
    flashMessage SESSION_VALIDATION_ERROR_KEY (some errors.toJson.stringify)
    flashMessage SESSION_VALIDATION_INPUTS (request.body.map Json.stringify)
    let previousUrl ← previousUrl request
    return .redirect previousUrl

variable {errorResponse : DefaultValidationError} {request : PageRequest}

/-- What the filter leaves under its two keys. -/
def flashed (errorResponse : DefaultValidationError) (request : PageRequest)
    (session : PageSession) : PageSession :=
  (session.setFlash SESSION_VALIDATION_ERROR_KEY
    [(formattedErrors errorResponse.message).toJson.stringify]).setFlash SESSION_VALIDATION_INPUTS
      ((request.body.map Json.stringify).filter (· ≠ "")).toList

/-- A page request is redirected, and the session has the errors and the inputs of this request
    alone. -/
theorem catchException_html (hhtml : request.acceptsJson = false) (session : PageSession) :
    catchException errorResponse request (some session) =
      (.ok (.redirect ((request.referrer.filter (· ≠ "")).getD (sessionPreviousUrl session))),
        some (flashed errorResponse request session)) := by
  have hmessage := filter_stringify_obj
    ((formattedErrors errorResponse.message).entries.map fun e => (e.1, .arr (e.2.map .str)))
  have hinputs : ∀ inputs : Option String,
      (inputs.elim ([] : List String) fun message => [message]) = inputs.toList := by
    rintro (_ | _) <;> rfl
  -- both keys are empty when the messages are added
  rw [catchException, if_neg (by simp [hhtml])]
  simp only [Action.bind_run, flash, flashMessage, previousUrl, ValidationErrorsFormat.toJson,
    hmessage, PageSession.setFlash_flash_of_ne _ keys_ne,
    PageSession.setFlash_flash_of_ne _ keys_ne.symm, PageSession.setFlash_flash_self,
    List.nil_append, hinputs, PageSession.setFlash_comm _ keys_ne.symm,
    PageSession.setFlash_setFlash]
  rfl

/-- Without a session nothing is flashed, and there is no redirect. -/
theorem catchException_destroyed (hhtml : request.acceptsJson = false) :
    catchException errorResponse request none =
      (.error (.error "req.flash() requires sessions"), none) := by
  rw [catchException, if_neg (by simp [hhtml])]
  rfl

end ErrorValidationFormatFilter

end NestTemplate
