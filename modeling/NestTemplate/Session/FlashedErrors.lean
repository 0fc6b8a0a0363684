import Mathlib.Data.List.Induction
import NestTemplate.Http.Pages
import NestTemplate.Session.PageSession

/-!
# The errors and inputs on the next page

The filter leaves the errors and the body of a refused form in the session's flash
messages, and two interceptors put them into the context of the next page.

* `flash_after`: what the flash messages are after any sequence of refused forms and pages.
* `render_delivers`: every page gets the errors and inputs of the last form that was
  refused since the page before, or none; the inputs as their JSON text carries them.
-/

namespace NestTemplate

open Common

/-! ## The interceptors -/

/-- `Object.entries(value)` of a parsed value. The keys of a string are taken to be those of its
    characters. -/
def objectEntries : Json → Except Failure (List (String × Json))
  | .obj ms => .ok (JsObject.ofList ms).entries
  | .arr vs => .ok (vs.zipIdx.map fun v => (toString v.2, v.1))
  | .str s => .ok (s.toList.zipIdx.map fun c => (toString c.2, .str (String.singleton c.1)))
  | .null => .error (.error "Cannot convert undefined or null to object")
  | .bool _ | .num _ => .ok []

/-- `errors.concat(value)`: the elements of an array, or the value. -/
def concatValue : Json → List Json
  | .arr vs => vs
  | v => [v]

namespace SessionErrorValidationInterceptor

/-- The `errorBag` of a flash message; without one it is empty. -/
def errorBag : Option String → Except Failure Json
  | none => .ok (.obj [("all", .arr []), ("errors", .obj [])])
  | some text =>
    match Json.parse text with
    | none => .error .syntaxError
    | some validationErrors => (objectEntries validationErrors).map fun es =>
      .obj [("all", .arr (es.flatMap fun e => concatValue e.2)), ("errors", validationErrors)]

/-- `intercept`; `none` stands for a handler's result that is no object. -/
def intercept (next : PageAction (Option (JsObject Json))) :
    PageAction (Option (JsObject Json)) := do
  let flashMessage ← flash SESSION_VALIDATION_ERROR_KEY
  let errorBag ← Action.lift (errorBag flashMessage.head?)
  let templateContext ← next
  return templateContext.map (·.assign "_errorBag" errorBag)

end SessionErrorValidationInterceptor

namespace OldInputsInterceptor

/-- The `oldInputs` of a flash message. -/
def oldInputs : Option String → Except Failure Json
  | none => .ok (.obj [])
  | some text =>
    match Json.parse text with
    | none => .error .syntaxError
    | some (.obj ms) => .ok (.obj ms)
    | some (.arr vs) => .ok (.arr vs)
    | some .null => .ok .null
    | some _ => .ok (.obj [])

/-- `intercept`. -/
def intercept (next : PageAction (Option (JsObject Json))) :
    PageAction (Option (JsObject Json)) := do
  let flashMessage ← flash SESSION_VALIDATION_INPUTS
  let oldInputs ← Action.lift (oldInputs flashMessage.head?)
  let templateContext ← next
  return templateContext.map (·.assign "_oldInputs" oldInputs)

end OldInputsInterceptor

/-! ## Forms and pages -/

namespace FlashedErrors

/-- A form that the filter refuses: a request of a page whose body is an object. -/
structure FailedForm where
  request : PageRequest
  errorResponse : DefaultValidationError
  body : List (String × Json)
  html : request.acceptsJson = false
  sent : request.body = some (.obj body)

/-- A request of the session. -/
inductive Event where
  | failure (form : FailedForm)
  /-- A page, with the object that its handler returns. -/
  | render (templateContext : JsObject Json)

/-- What a request does; a page has a context in the end. -/
def perform : Event → PageAction (Option (JsObject Json))
  | .failure form => do
    let _ ← ErrorValidationFormatFilter.catchException form.errorResponse form.request
    return none
  | .render templateContext => SessionErrorValidationInterceptor.intercept
      (OldInputsInterceptor.intercept (pure (some templateContext)))

/-- The session after the requests `events`, which start a new one. -/
def after (events : List Event) : Option PageSession :=
  events.foldl (fun s event => (perform event s).2) (some {})

/-- The form that was refused last, unless a page came after it. -/
def pending (events : List Event) : Option FailedForm :=
  match events.getLast? with
  | some (.failure form) => some form
  | _ => none

/-! ## What the flash messages are -/

/-- The texts that the filter leaves for a form. -/
def FailedForm.errorsText (form : FailedForm) : String :=
  (ErrorValidationFormatFilter.formattedErrors form.errorResponse.message).toJson.stringify

def FailedForm.inputsText (form : FailedForm) : String := (Json.obj form.body).stringify

/-- The flash messages are those of the form. -/
structure Holds (session : PageSession) (form : Option FailedForm) : Prop where
  errors : session.flash SESSION_VALIDATION_ERROR_KEY = (form.map FailedForm.errorsText).toList
  inputs : session.flash SESSION_VALIDATION_INPUTS = (form.map FailedForm.inputsText).toList

/-- The filter leaves the texts of this form, whatever there was. -/
theorem perform_failure (form : FailedForm) (session : PageSession) :
    ∃ session', (perform (.failure form) (some session)).2 = some session' ∧
      Holds session' (some form) := by
  refine ⟨ErrorValidationFormatFilter.flashed form.errorResponse form.request session, ?_, ?_, ?_⟩
  · rw [perform, Action.bind_of_ok (ErrorValidationFormatFilter.catchException_html form.html _)]
    rfl
  · rw [ErrorValidationFormatFilter.flashed, PageSession.setFlash_flash_of_ne _ keys_ne,
      PageSession.setFlash_flash_self]
    rfl
  · rw [ErrorValidationFormatFilter.flashed, PageSession.setFlash_flash_self, form.sent]
    exact congrArg Option.toList (filter_stringify_obj form.body)

/-- The error bag for a form. -/
def errorBagOf : Option FailedForm → Json
  | none => .obj [("all", .arr []), ("errors", .obj [])]
  | some form =>
    let errors := ErrorValidationFormatFilter.formattedErrors form.errorResponse.message
    .obj [("all", .arr ((errors.entries.flatMap fun e => e.2).map .str)), ("errors", errors.toJson)]

/-- The old inputs for a form: what comes back of its body. -/
def oldInputsOf (form : Option FailedForm) : Json :=
  form.elim (.obj []) fun form => (Json.obj form.body).carried

theorem toJson_noNumber (errors : ValidationErrorsFormat) : errors.toJson.noNumber = true := by
  show Json.noNumberMembers (errors.entries.map fun e => (e.1, .arr (e.2.map .str))) = true
  induction errors.entries with
  | nil => rfl
  | cons e es ih =>
    rw [List.map_cons, Json.noNumberMembers, ih, Json.noNumber, noNumberElements_map_str]
    rfl

/-- The errors are read back, and the messages are all there in the order of the keys. -/
theorem errorBag_errorsText (form : Option FailedForm) :
    SessionErrorValidationInterceptor.errorBag (form.map FailedForm.errorsText) =
      .ok (errorBagOf form) := by
  cases form with
  | none => rfl
  | some form =>
    let errors := ErrorValidationFormatFilter.formattedErrors form.errorResponse.message
    have hparse : Json.parse form.errorsText = some errors.toJson :=
      Json.parse_stringify (toJson_noNumber errors)
    have hentries : objectEntries errors.toJson =
        .ok (errors.entries.map fun e => (e.1, .arr (e.2.map .str))) :=
      congrArg Except.ok
        (JsObject.entries_ofList_map errors fun messages => Json.arr (messages.map .str))
    have hall : ((errors.entries.map fun e => (e.1, Json.arr (e.2.map .str))).flatMap
        fun e => concatValue e.2) = (errors.entries.flatMap fun e => e.2).map .str := by
      simp [List.flatMap_map, List.map_flatMap, concatValue]
    rw [Option.map_some, SessionErrorValidationInterceptor.errorBag, hparse]
    dsimp only
    rw [hentries, Except.map, hall]
    rfl

theorem oldInputs_inputsText (form : Option FailedForm) :
    OldInputsInterceptor.oldInputs (form.map FailedForm.inputsText) = .ok (oldInputsOf form) := by
  cases form with
  | none => rfl
  | some form =>
    have hparse : Json.parse form.inputsText = some (.obj (Json.carriedMembers form.body)) :=
      Json.parse_stringify_eq_carried _
    rw [Option.map_some, OldInputsInterceptor.oldInputs, hparse]
    rfl

/-- A page gets what there is, and leaves nothing. -/
theorem perform_render {session : PageSession} {form : Option FailedForm} (h : Holds session form)
    (templateContext : JsObject Json) :
    ∃ session', perform (.render templateContext) (some session) =
        (.ok (some ((templateContext.assign "_oldInputs" (oldInputsOf form)).assign "_errorBag"
          (errorBagOf form))), some session') ∧ Holds session' none := by
  let session₁ := session.setFlash SESSION_VALIDATION_ERROR_KEY []
  have herrors : flash SESSION_VALIDATION_ERROR_KEY (some session) =
      (.ok (form.map FailedForm.errorsText).toList, some session₁) := by
    rw [flash, h.errors]
  have hinputs : flash SESSION_VALIDATION_INPUTS (some session₁) =
      (.ok (form.map FailedForm.inputsText).toList,
        some (session₁.setFlash SESSION_VALIDATION_INPUTS [])) := by
    rw [flash, PageSession.setFlash_flash_of_ne _ keys_ne.symm, h.inputs]
  have hold : OldInputsInterceptor.intercept (pure (some templateContext)) (some session₁) =
      (.ok (some (templateContext.assign "_oldInputs" (oldInputsOf form))),
        some (session₁.setFlash SESSION_VALIDATION_INPUTS [])) := by
    rw [OldInputsInterceptor.intercept, Action.bind_of_ok hinputs, Option.head?_toList,
      oldInputs_inputsText]
    rfl
  refine ⟨session₁.setFlash SESSION_VALIDATION_INPUTS [], ?_, ?_, ?_⟩
  · rw [perform, SessionErrorValidationInterceptor.intercept, Action.bind_of_ok herrors,
      Option.head?_toList, errorBag_errorsText]
    exact Action.bind_of_ok hold _
  · rw [PageSession.setFlash_flash_of_ne _ keys_ne, PageSession.setFlash_flash_self]
    rfl
  · rw [PageSession.setFlash_flash_self]
    rfl

/-- After any sequence of forms and pages the flash messages are those of the form that was refused
    last. -/
theorem flash_after (events : List Event) :
    ∃ session, after events = some session ∧ Holds session (pending events) := by
  induction events using List.reverseRecOn with
  | nil => exact ⟨{}, rfl, rfl, rfl⟩
  | append_singleton events event ih =>
    obtain ⟨session, hafter, hholds⟩ := ih
    have hstep : after (events ++ [event]) = (perform event (some session)).2 := by
      rw [after, List.foldl_append, ← after, hafter]
      rfl
    rw [hstep, pending, List.getLast?_concat]
    cases event with
    | failure form => exact perform_failure form session
    | render templateContext =>
      obtain ⟨session', hperform, hempty⟩ := perform_render hholds templateContext
      exact ⟨session', congrArg Prod.snd hperform, hempty⟩

/-- What a page gets after these requests. -/
theorem exists_page (events : List Event) (templateContext : JsObject Json) :
    ∃ page, (perform (.render templateContext) (after events)).1 = .ok (some page) ∧
      page.get? "_errorBag" = some (errorBagOf (pending events)) ∧
        page.get? "_oldInputs" = some (oldInputsOf (pending events)) := by
  obtain ⟨session, hafter, hholds⟩ := flash_after events
  obtain ⟨session', hperform, -⟩ := perform_render hholds templateContext
  rw [hafter, hperform]
  refine ⟨_, rfl, ?_, ?_⟩
  · rw [JsObject.assign_of_ne (by decide), JsObject.get?_set_self]
  · rw [JsObject.assign_of_ne (by decide), JsObject.get?_set_of_ne (by decide),
      JsObject.assign_of_ne (by decide), JsObject.get?_set_self]

/-- **Main theorem**: a page gets the errors and the inputs of the last form that was refused since
    the page before it, and none where there is no such form. The inputs are the body as its text
    carries it, which is the body itself if its numbers are finite and none is -0. -/
theorem render_delivers (events : List Event) (templateContext : JsObject Json) :
    ∃ page, (perform (.render templateContext) (after events)).1 = .ok (some page) ∧
      page.get? "_errorBag" = some (errorBagOf (pending events)) ∧
        page.get? "_oldInputs" = some (oldInputsOf (pending events)) ∧
          ∀ form ∈ pending events, (page.get? "_oldInputs" = some (.obj form.body) ↔
            (Json.obj form.body).survives = true) := by
  obtain ⟨page, hperform, herrors, hinputs⟩ := exists_page events templateContext
  refine ⟨page, hperform, herrors, hinputs, ?_⟩
  intro form hform
  rw [hinputs, Option.mem_def.mp hform, Option.some.injEq]
  exact Json.carried_eq_self_iff (.obj form.body)

/-! ## A number that does not survive -/

theorem limit_le_ten_pow : Binary64.limit ≤ 10 ^ 400 := by
  unfold Binary64.limit
  calc (2 : ℚ) ^ 1024 ≤ 2 ^ (3 * 342) := pow_le_pow_right₀ one_le_two (by decide)
    _ = 8 ^ 342 := by rw [pow_mul]; norm_num
    _ ≤ 10 ^ 342 := pow_le_pow_left₀ (by decide) (by decide) 342
    _ ≤ 10 ^ 400 := pow_le_pow_right₀ (by decide) (by decide)

/-- The literal `1e+400` is too large for a double. -/
theorem number_overflow : JsDouble.number "1e+400" = .infinity false := by
  let d : JsDouble.Numeral := { whole := ['1'], exponent := some 400 }
  have hd : d.Valid := by
    refine ⟨?_, List.cons_ne_nil _ _, by simp [d], List.forall_mem_nil _⟩
    exact List.forall_mem_singleton.mpr (by decide)
  have htext : "1e+400" = String.ofList (JsDouble.Numeral.signed false d.chars) := by decide
  have hvalue : d.value = 10 ^ 400 := by
    show ((Digits.value (['1'] ++ []) : ℕ) : ℚ) * 10 ^ ((400 : ℤ) - (0 : ℕ)) = 10 ^ 400
    rw [show Digits.value (['1'] ++ []) = 1 from rfl, Nat.cast_one, one_mul, Nat.cast_zero,
      sub_zero, zpow_ofNat]
  rw [htext, JsDouble.Numeral.number_chars hd, hvalue,
    JsDouble.roundDouble_of_limit_le limit_le_ten_pow]
  rfl

/-- A form whose body is `{"n": 1e+400}`. -/
def overflowForm : FailedForm where
  request :=
    { method := "POST", url := "/", xhr := false, acceptsJson := false, referrer := none,
      body := some (.obj [("n", .num (.ofText "1e+400"))]) }
  errorResponse := { statusCode := 422, error := "The given data was invalid.", message := [] }
  body := [("n", .num (.ofText "1e+400"))]
  html := rfl
  sent := rfl

/-- The number comes back as `null`, so not every page gets the body that was sent. -/
theorem not_delivers_overflow : ¬ ∀ (events : List Event) (templateContext : JsObject Json),
    ∃ page, (perform (.render templateContext) (after events)).1 = .ok (some page) ∧
      page.get? "_errorBag" = some (errorBagOf (pending events)) ∧
        page.get? "_oldInputs" =
          some ((pending events).elim (.obj []) fun form => .obj form.body) := by
  intro h
  obtain ⟨page, hperform, -, hsent⟩ := h [.failure overflowForm] {}
  obtain ⟨page', hperform', -, hinputs⟩ := exists_page [.failure overflowForm] {}
  obtain rfl : page = page' := Option.some.inj (Except.ok.inj (hperform.symm.trans hperform'))
  have hsame : (Json.obj overflowForm.body).carried = .obj overflowForm.body :=
    Option.some.inj (hinputs.symm.trans hsent)
  have hsurvives := (Json.carried_eq_self_iff _).mp hsame
  have hnumber : JsDouble.Double.ofText "1e+400" = ⟨.infinity false, trivial⟩ :=
    Subtype.ext number_overflow
  have hlost : (Json.obj overflowForm.body).survives = false := by
    show (Json.survives (.num (JsDouble.Double.ofText "1e+400")) && true) = false
    rw [hnumber]
    rfl
  rw [hlost] at hsurvives
  cases hsurvives

end FlashedErrors

end NestTemplate
