import NestTemplate.Auth.ClientAnswer
import NestTemplate.Session.PageSession

/-!
# Where a failed validation redirects to

The global interceptors run before the pipe: when the pipe rejects a page, its
URL is already the session's previous one, and the filter falls back to it.
`pipe` is the verdict of the `ValidationPipe` on the query and the parameters of
a URL. Only the filter's redirects and only requests without a Referer header
are followed.

* `step_rejected`, `step_answered`, `step_killed`: one request.
* `redirects_end_iff`: from which requests the redirects end.
* `login_page_redirects_to_itself`: the login page without a query.
-/

namespace NestTemplate

open Common

namespace ValidationRedirects

/-- A GET request of a page, without a Referer header. -/
def htmlGet (xhr : Bool) (url : String) : PageRequest where
  method := "GET"
  url := url
  xhr := xhr
  acceptsJson := false
  referrer := none
  body := none

/-- What `exceptionFactory` of the global pipe makes of the errors. -/
def exceptionFactory (errors : List ValidationError) : DefaultValidationError :=
  { statusCode := 422, error := "The given data was invalid.", message := errors }

/-- The pipe in front of the handler. -/
def validated (pipe : String → Option (List ValidationError)) (url : String) : PageAction Unit :=
  (pipe url).elim (pure ()) fun errors => Action.fail (.unprocessable errors)

/-- The interceptors around it. -/
def intercepted (pipe : String → Option (List ValidationError)) (request : PageRequest) :
    PageAction Unit := do
  SessionMapPreviousUrlInterceptor.intercept request
  KillForApiInterceptor.intercept request.url (validated pipe request.url)

/-- The filter around both; `none` stands for the handler's answer, be it a page or a redirect of
    the handler's own, as that of `restartLoginFlow`. -/
def respond (pipe : String → Option (List ValidationError)) (request : PageRequest) :
    PageAction (Option ErrorResponse) := fun s =>
  match intercepted pipe request s with
  | (.ok (), s) => (.ok none, s)
  | (.error (.unprocessable errors), s) =>
    match ErrorValidationFormatFilter.catchException (exceptionFactory errors) request s with
    | (.ok response, s) => (.ok (some response), s)
    | (.error e, s) => (.error e, s)
  | (.error e, s) => (.error e, s)

/-- The URL that the filter sends a browser to, and the session it finds there. A redirect that the
    handler makes is not followed. -/
def step (pipe : String → Option (List ValidationError)) (xhr : Bool) :
    String × PageSession → Option (String × PageSession) := fun (url, session) =>
  match respond pipe (htmlGet xhr url) (some session) with
  | (.ok (some (.redirect target)), some session) => some (target, session)
  | _ => none

/-- The page after `n` redirects of the filter. -/
def visit (pipe : String → Option (List ValidationError)) (xhr : Bool)
    (start : String × PageSession) : ℕ → Option (String × PageSession)
  | 0 => some start
  | n + 1 => (visit pipe xhr start n).bind (step pipe xhr)

/-- No redirect of the page leads to the page. -/
def NoSelfRedirect (pipe : String → Option (List ValidationError)) (xhr : Bool)
    (start : String × PageSession) : Prop :=
  ∀ target, step pipe xhr start = some target → target.1 ≠ start.1

/-- Following the redirects comes to no URL twice. -/
def NoCycle (pipe : String → Option (List ValidationError)) (xhr : Bool)
    (start : String × PageSession) : Prop :=
  ∀ m n p q, m < n → visit pipe xhr start m = some p → visit pipe xhr start n = some q → p.1 ≠ q.1

variable {pipe : String → Option (List ValidationError)} {xhr : Bool} {url : String}
  {session : PageSession}

/-! ## One request -/

/-- The session behind `SessionMapPreviousUrlInterceptor`. -/
def mapped (xhr : Bool) (url : String) (session : PageSession) : PageSession :=
  { session with previous := some (if xhr then session.previous.getD none else some url) }

/-- A URL without the markers of an API call is mapped. -/
theorem intercept_htmlGet (hkills : ¬ KillForApiInterceptor.Kills url) :
    SessionMapPreviousUrlInterceptor.intercept (htmlGet xhr url) (some session) =
      (.ok (), some (mapped xhr url session)) := by
  have hmarkers : ¬ (includes (htmlGet xhr url).url "api/v1" ∨
      includes (htmlGet xhr url).url "oauth/token" ∨
        includes (htmlGet xhr url).url "oauth/refresh") := by
    rintro (h | h | h)
    · exact hkills (.inl ((show "api".toList <:+: "api/v1".toList by decide).trans h))
    · exact hkills (.inr (.inl h))
    · exact hkills (.inr (.inr h))
  have hget : "GET".toUpper = "GET" := by decide +kernel
  rw [SessionMapPreviousUrlInterceptor.intercept_of_not_includes hmarkers]
  cases xhr <;> simp [htmlGet, mapped, hget]

/-- The interceptor never fails on a session. -/
theorem intercept_some (request : PageRequest) (session : PageSession) : ∃ session',
    SessionMapPreviousUrlInterceptor.intercept request (some session) = (.ok (), some session') := by
  by_cases h : includes request.url "api/v1" ∨ includes request.url "oauth/token" ∨
      includes request.url "oauth/refresh"
  · exact ⟨session, SessionMapPreviousUrlInterceptor.intercept_of_includes h _⟩
  · exact ⟨_, SessionMapPreviousUrlInterceptor.intercept_of_not_includes h session⟩

/-- The handler answers a page that the pipe accepts. -/
theorem step_answered (hpipe : pipe url = none) : step pipe xhr (url, session) = none := by
  obtain ⟨session', hmap⟩ := intercept_some (htmlGet xhr url) session
  have hvalidated : validated pipe url = pure () := by rw [validated, hpipe, Option.elim_none]
  have hkill : ∃ s, KillForApiInterceptor.intercept url (validated pipe url) (some session') =
      (.ok (), s) := by
    rw [hvalidated, KillForApiInterceptor.intercept]
    split <;> exact ⟨_, rfl⟩
  obtain ⟨s, hkill⟩ := hkill
  have hintercepted : intercepted pipe (htmlGet xhr url) (some session) = (.ok (), s) :=
    (Action.bind_of_ok hmap _).trans hkill
  simp only [step, respond, hintercepted]

/-- Without a session the filter fails. -/
theorem step_killed (hkills : KillForApiInterceptor.Kills url) :
    step pipe xhr (url, session) = none := by
  cases hpipe : pipe url with
  | none => exact step_answered hpipe
  | some errors =>
    obtain ⟨session', hmap⟩ := intercept_some (htmlGet xhr url) session
    have hkill : KillForApiInterceptor.intercept url (validated pipe url) (some session') =
        (.error (.unprocessable errors), none) := by
      rw [validated, hpipe, KillForApiInterceptor.intercept, if_pos hkills]
      rfl
    have hintercepted : intercepted pipe (htmlGet xhr url) (some session) =
        (.error (.unprocessable errors), none) := (Action.bind_of_ok hmap _).trans hkill
    have hfilter := @ErrorValidationFormatFilter.catchException_destroyed
      (exceptionFactory errors) (htmlGet xhr url) rfl
    simp only [step, respond, hintercepted, hfilter]

/-- A rejected page redirects to the previous URL, which is its own unless the request is an
    XMLHttpRequest. -/
theorem step_rejected {errors : List ValidationError} (hpipe : pipe url = some errors)
    (hkills : ¬ KillForApiInterceptor.Kills url) : step pipe xhr (url, session) =
      some (ErrorValidationFormatFilter.sessionPreviousUrl (mapped xhr url session),
        ErrorValidationFormatFilter.flashed (exceptionFactory errors) (htmlGet xhr url)
          (mapped xhr url session)) := by
  have hkept : KillForApiInterceptor.intercept url (validated pipe url)
      (some (mapped xhr url session)) =
        (.error (.unprocessable errors), some (mapped xhr url session)) := by
    rw [validated, hpipe, KillForApiInterceptor.intercept, if_neg hkills]
    rfl
  have hintercepted : intercepted pipe (htmlGet xhr url) (some session) =
      (.error (.unprocessable errors), some (mapped xhr url session)) :=
    (Action.bind_of_ok (intercept_htmlGet hkills) _).trans hkept
  have hfilter := @ErrorValidationFormatFilter.catchException_html
    (exceptionFactory errors) (htmlGet xhr url) rfl
  simp only [step, respond, hintercepted, hfilter]
  rfl

/-! ## Following the redirects -/

/-- The page that an XMLHttpRequest falls back to. -/
theorem sessionPreviousUrl_mapped_xhr : ErrorValidationFormatFilter.sessionPreviousUrl
    (mapped true url session) = ErrorValidationFormatFilter.sessionPreviousUrl session := by
  cases h : session.previous <;> simp [ErrorValidationFormatFilter.sessionPreviousUrl, mapped, h]

/-- Every other page falls back to itself. -/
theorem sessionPreviousUrl_mapped (hurl : url ≠ "") :
    ErrorValidationFormatFilter.sessionPreviousUrl (mapped false url session) = url := by
  have hkept : (some url).filter (· ≠ "") = some url := by
    rw [Option.filter_some, if_pos (decide_eq_true hurl)]
  exact congrArg (·.getD "/") hkept

/-- Where there is no redirect, no URL comes twice. -/
theorem noCycle_of_step_eq_none {start : String × PageSession} (h : step pipe xhr start = none) :
    NoSelfRedirect pipe xhr start ∧ NoCycle pipe xhr start := by
  have hvisit : ∀ n, visit pipe xhr start (n + 1) = none := by
    intro n
    induction n with
    | zero => exact h
    | succ n ih => rw [visit, ih, Option.bind_none]
  refine ⟨fun target htarget => ?_, fun m n p q hmn hp hq => ?_⟩
  · rw [h] at htarget
    cases htarget
  · obtain ⟨n, rfl⟩ := Nat.exists_eq_add_of_lt hmn
    rw [hvisit] at hq
    cases hq

/-- Nor where one redirect leads to another page, which has none. -/
theorem noCycle_of_step_eq_some {start page : String × PageSession}
    (h : step pipe xhr start = some page) (hpage : step pipe xhr page = none)
    (hne : page.1 ≠ start.1) : NoSelfRedirect pipe xhr start ∧ NoCycle pipe xhr start := by
  have hvisit : ∀ n, visit pipe xhr start (n + 2) = none := by
    intro n
    induction n with
    | zero => exact (congrArg (·.bind (step pipe xhr)) h).trans hpage
    | succ n ih => rw [visit, ih, Option.bind_none]
  refine ⟨fun target htarget => ?_, fun m n p q hmn hp hq => ?_⟩
  · rw [h] at htarget
    cases htarget
    exact hne
  · rcases n with _ | _ | n
    · exact absurd hmn (Nat.not_lt_zero m)
    · obtain rfl : m = 0 := by omega
      cases hp
      rw [visit, visit, Option.bind_some, h] at hq
      cases hq
      exact hne.symm
    · rw [hvisit] at hq
      cases hq

/-- A rejected page of a session redirects to itself. -/
theorem not_noSelfRedirect (hurl : url ≠ "") (hpipe : pipe url ≠ none)
    (hkills : ¬ KillForApiInterceptor.Kills url) : ¬ NoSelfRedirect pipe false (url, session) := by
  obtain ⟨errors, herrors⟩ := Option.ne_none_iff_exists'.1 hpipe
  exact fun hself => hself _ (step_rejected herrors hkills) (sessionPreviousUrl_mapped hurl)

/-- Nor does a rejected XMLHttpRequest get further than the page before it, which is rejected as well
    and falls back to itself. -/
theorem not_noCycle_xhr (hpipe : pipe url ≠ none) (hkills : ¬ KillForApiInterceptor.Kills url)
    (hpipe' : pipe (ErrorValidationFormatFilter.sessionPreviousUrl session) ≠ none)
    (hkills' : ¬ KillForApiInterceptor.Kills
      (ErrorValidationFormatFilter.sessionPreviousUrl session)) :
    ¬ NoCycle pipe true (url, session) := by
  intro hcycle
  obtain ⟨errors, hpipe⟩ := Option.ne_none_iff_exists'.1 hpipe
  obtain ⟨errors', hpipe'⟩ := Option.ne_none_iff_exists'.1 hpipe'
  have hstep := @step_rejected _ true _ session _ hpipe hkills
  rw [sessionPreviousUrl_mapped_xhr] at hstep
  have hstep' := @step_rejected _ true _ (ErrorValidationFormatFilter.flashed
    (exceptionFactory errors) (htmlGet true url) (mapped true url session)) _ hpipe' hkills'
  have hvisit' := congrArg (·.bind (step pipe true)) hstep
  refine hcycle 1 2 _ _ (by omega) hstep (hvisit'.trans hstep') ?_
  rw [sessionPreviousUrl_mapped_xhr]
  exact sessionPreviousUrl_mapped_xhr.symm

/-- If that page is answered or its session destroyed, it does. -/
theorem noCycle_xhr (hpipe : pipe url ≠ none) (hkills : ¬ KillForApiInterceptor.Kills url)
    (hprevious : pipe (ErrorValidationFormatFilter.sessionPreviousUrl session) = none ∨
      KillForApiInterceptor.Kills (ErrorValidationFormatFilter.sessionPreviousUrl session)) :
    NoSelfRedirect pipe true (url, session) ∧ NoCycle pipe true (url, session) := by
  obtain ⟨errors, herrors⟩ := Option.ne_none_iff_exists'.1 hpipe
  have hstep := @step_rejected _ true _ session _ herrors hkills
  rw [sessionPreviousUrl_mapped_xhr] at hstep
  refine noCycle_of_step_eq_some hstep ?_ ?_
  · exact hprevious.elim step_answered step_killed
  · intro heq
    dsimp only at heq
    rw [heq] at hprevious
    exact hprevious.elim hpipe hkills

/-- **Main theorem**: the redirects from a page end iff there is none: the pipe accepts the page or
    its session is destroyed; or, for an XMLHttpRequest, that is so for the page before it. -/
theorem redirects_end_iff (pipe : String → Option (List ValidationError)) (xhr : Bool)
    {url : String} (hurl : url ≠ "") (session : PageSession) :
    (NoSelfRedirect pipe xhr (url, session) ∧ NoCycle pipe xhr (url, session)) ↔
      pipe url = none ∨ KillForApiInterceptor.Kills url ∨
        (xhr = true ∧
          (pipe (ErrorValidationFormatFilter.sessionPreviousUrl session) = none ∨
            KillForApiInterceptor.Kills
              (ErrorValidationFormatFilter.sessionPreviousUrl session))) := by
  by_cases hpipe : pipe url = none
  · exact iff_of_true (noCycle_of_step_eq_none (step_answered hpipe)) (.inl hpipe)
  by_cases hkills : KillForApiInterceptor.Kills url
  · exact iff_of_true (noCycle_of_step_eq_none (step_killed hkills)) (.inr (.inl hkills))
  rw [or_iff_right hpipe, or_iff_right hkills]
  constructor
  · rintro ⟨hself, hcycle⟩
    cases xhr with
    | false => exact absurd hself (not_noSelfRedirect hurl hpipe hkills)
    | true =>
      by_contra hprevious
      rw [eq_self_iff_true, true_and, not_or] at hprevious
      exact not_noCycle_xhr hpipe hkills hprevious.1 hprevious.2 hcycle
  · rintro ⟨rfl, hprevious⟩
    exact noCycle_xhr hpipe hkills hprevious

/-- The errors of a validation that failed. -/
def validationErrors : Except Failure String → Option (List ValidationError)
  | .error (.unprocessable errors) => some errors
  | _ => none

/-- The verdict on the query of `showLogin`. -/
def showLoginPipe (app : App) (st : Store) (url : String) : Option (List ValidationError) :=
  validationErrors (AuthorizationController.showLogin app st (Url.queryOf url))

/-- The login page of a client, with `Sample.query`. -/
def clientLoginUrl : String :=
  "/oauth/authorization?grant_type=pkce&client_id=11111111-1111-4111-8111-111111111111" ++
    "&code_challenge=E9Melhoa2OwvFrEMTJguCHaoeK1t8URWbuGJSstw-cM&algorithm=sha256" ++
      "&redirect_url=https%3A%2F%2Fclient.example%2Fcb%3Ftenant%3D7&state=xyz"

/-- It is accepted, whatever the page before it. -/
theorem redirects_end_iff_sample :
    NoSelfRedirect (showLoginPipe Sample.app (Sample.clientStore .PKCE)) false
        (clientLoginUrl, { previous := some (some "/health") }) ∧
      NoCycle (showLoginPipe Sample.app (Sample.clientStore .PKCE)) false
        (clientLoginUrl, { previous := some (some "/health") }) := by
  have hquery : Url.queryOf clientLoginUrl = Sample.query "xyz" := by decide +kernel
  have hshow : AuthorizationController.showLogin Sample.app (Sample.clientStore .PKCE)
      (Url.queryOf clientLoginUrl) = .ok (Sample.token "xyz") := by
    rw [hquery]
    exact Sample.showLogin_query (.inr rfl)
  exact (redirects_end_iff _ false (by decide +kernel) _).2 (.inl (congrArg validationErrors hshow))

/-- The login page without a query redirects to itself. -/
theorem login_page_redirects_to_itself :
    (showLoginPipe Sample.app (Sample.clientStore .PKCE) "/oauth/authorization").isSome = true ∧
      ¬ NoSelfRedirect (showLoginPipe Sample.app (Sample.clientStore .PKCE)) false
        ("/oauth/authorization", {}) := by
  have hrejected : (showLoginPipe Sample.app (Sample.clientStore .PKCE)
      "/oauth/authorization").isSome = true := by decide +kernel
  exact ⟨hrejected, not_noSelfRedirect (by decide +kernel)
    (Option.isSome_iff_ne_none.1 hrejected) (by decide +kernel)⟩

end ValidationRedirects

end NestTemplate
