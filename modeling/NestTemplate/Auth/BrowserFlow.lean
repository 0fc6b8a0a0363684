import NestTemplate.Auth.Session
import NestTemplate.Http.Pages
import NestTemplate.Http.ValidationPipe

/-!
# From `showLogin` back to the client

The authorization request travels as an encrypted token: through the form of
login.twig into the session, from there into the form of password.twig, and
back to `processLoginAttempt`, whose redirector builds the answer. Which pages a
browser may follow under their content security policy is left to the browser.

* `AuthorizationDto.get?_ofQuery`: what the token carries of the query.
* `showPassword_eq_ok`: when the password page comes up.
* `postLoginForm_eq_ok`: when the last request ends in a redirect.
* `browserFlow_eq_ok`: when the whole flow does.
-/

namespace NestTemplate

open Common

/-! ## `showLogin` -/

/-- `AuthorizationDto` and its initial values. -/
def AuthorizationDto.fields : Fields := [
  ("grant_type", none),
  ("client_id", none),
  ("code_challenge", some .null),
  ("algorithm", some .null),
  ("redirect_url", none),
  ("state", none)]

/-- The `AuthorizationDto` of a query. -/
def AuthorizationDto.ofQuery (query : Query) : Json :=
  plainToInstance AuthorizationDto.fields query.object

/-- `showLogin`: the token that login.twig prints. -/
def AuthorizationController.showLogin (app : App) (st : Store) (query : Query) :
    Except Failure String :=
  (ValidationPipe.transform AuthorizationDto.fields (AuthorizationDto.properties app st)
    query.object).map fun grantContent => app.encrypt grantContent.stringify

theorem AuthorizationDto.nodup_fields : (AuthorizationDto.fields.map Prod.fst).Nodup := by decide

/-- Every property of the request is the query's, or its initial value. -/
theorem AuthorizationDto.get?_ofQuery {query : Query} {name : String} {initial : Option Json}
    (h : (name, initial) ∈ AuthorizationDto.fields) :
    (ofQuery query).get? name = (query.value name).or initial := by
  rw [← query.get?_object]
  exact get?_plainToInstance nodup_fields query.object h

theorem AuthorizationDto.ofQuery_noNumber (query : Query) : (ofQuery query).noNumber = true := by
  refine noNumber_plainToInstance ?_ fun name v hv => ?_
  · simp [fields, Json.noNumber]
  · rw [query.get?_object] at hv
    exact Query.value_noNumber hv

/-- The token of an accepted request is made from the whole of it. -/
theorem AuthorizationController.showLogin_eq_ok {app : App} {st : Store} {query : Query}
    {token : String} :
    showLogin app st query = .ok token ↔
      (∀ p ∈ AuthorizationDto.properties app st, p.Holds (AuthorizationDto.ofQuery query)) ∧
        token = app.encrypt (AuthorizationDto.ofQuery query).stringify := by
  exact ValidationPipe.transform_map_eq_ok

/-! ## `registerEmailForPasswordFlow` -/

/-- `PasswordDto` has no initial values. -/
def PasswordDto.fields : Fields := [("token", none), ("email", none)]

namespace AuthorizationController

/-- `registerEmailForPasswordFlow`, up to what it leaves in the session. -/
def registerEmailForPasswordFlow (app : App) (passwordId : Uuid) (body : Json) :
    Except Failure PasswordContent :=
  (ValidationPipe.transform PasswordDto.fields (PasswordDto.properties app) (ownProperties body)).map
    fun passwordDto =>
      { token := text passwordDto "token", email := text passwordDto "email", passwordId }

/-- Which forms of login.twig are registered, and with what. -/
theorem registerEmailForPasswordFlow_eq_ok {app : App} {passwordId : Uuid} {token email : String}
    {content : PasswordContent} :
    registerEmailForPasswordFlow app passwordId (formBody [("token", token), ("email", email)]) =
        .ok content ↔
      token ≠ "" ∧ (app.isEmail email = true ∧ email ≠ "") ∧
        content = { token, email, passwordId } := by
  have hnodup : (PasswordDto.fields.map Prod.fst).Nodup := by decide
  have htoken : (plainToInstance PasswordDto.fields
      (ownProperties (formBody [("token", token), ("email", email)]))).get? "token" =
        some (.str token) :=
    (get?_plainToInstance hnodup _ (List.mem_cons_self ..)).trans
      (congrArg (Option.or · none) (get?_ofList_eq_lookup ..))
  have hemail : (plainToInstance PasswordDto.fields
      (ownProperties (formBody [("token", token), ("email", email)]))).get? "email" =
        some (.str email) :=
    (get?_plainToInstance hnodup _ (List.mem_cons_of_mem _ (List.mem_cons_self ..))).trans
      (congrArg (Option.or · none) (get?_ofList_eq_lookup ..))
  refine ValidationPipe.transform_map_eq_ok.trans ?_
  rw [text_of_get? htoken, text_of_get? hemail, ← and_assoc]
  refine and_congr_left fun _ => ?_
  simp only [PasswordDto.properties, List.forall_mem_cons, List.not_mem_nil, false_implies,
    implies_true, and_true, Property.Holds, htoken, hemail, forall_const, Constraint.isNotEmpty_check,
    Constraint.isString_check, Constraint.isEmail_check]
  simp

end AuthorizationController

/-- `PasswordRedirector.generateUrl`. -/
def PasswordRedirector.generateUrl (app : App) (result : PasswordContent) : String :=
  ((Url.ofFront app.passwordPage).append "stateId" result.passwordId.toString).toString

/-! ## `showPassword` -/

/-- `canActivate`. -/
def CheckShowPasswordGuard.canActivate (query : Query) (session : SessionContent) : Bool :=
  match query.value "stateId" with
  | some (.str stateId) =>
    stateId ≠ "" && session.passwordContent.any (·.passwordId.toString = stateId)
  | _ => false

namespace AppendFormActionHeaderInterceptor

/-- helmet's policy, in front of `form-action` and behind it. -/
def policyBefore : String := "default-src 'self';base-uri 'self';font-src 'self' https: data:;"

def policyAfter : String :=
  ";frame-ancestors 'self';img-src 'self' data:;object-src 'none';script-src 'self';" ++
    "script-src-attr 'none';style-src 'self' https: 'unsafe-inline';upgrade-insecure-requests"

/-- The policy with `redirect_url` as a further form action. -/
def policy (redirect_url : String) : List Char :=
  policyBefore.toList ++
    (replacement policyBefore.toList "form-action 'self'".toList policyAfter.toList
      ("form-action 'self' ".toList ++ redirect_url.toList) ++ policyAfter.toList)

/-- The last step of `intercept`: the page's content security policy. A value other than an object
    has no `redirect_url`. -/
def setHeader (authorizationDto : Json) : Except Failure String :=
  match authorizationDto with
  | .null => .error (.error "Cannot read properties of null (reading 'redirect_url')")
  | authorizationDto =>
    match (authorizationDto.get? "redirect_url").elim (some "undefined") templateText with
    | none => .error (.error "Cannot convert object to primitive value")
    | some redirect_url =>
      let value := policy redirect_url
      if isHeaderText value then .ok (String.ofList value)
      else .error (.error "Invalid character in header content [\"content-security-policy\"]")

/-- `intercept`, up to the page's content security policy. -/
def intercept (app : App) (content : PasswordContent) : Except Failure String :=
  match app.decrypt content.token with
  | .error e => .error e
  | .ok serializedToken =>
    match Json.parse serializedToken with
    | none => .error .syntaxError
    | some authorizationDto => setHeader authorizationDto

/-- Only the characters of the redirect URL can keep the policy from being sent. -/
theorem policy_isHeaderText (redirect_url : String) :
    isHeaderText (policy redirect_url) = isHeaderText redirect_url.toList := by
  have hbefore : isHeaderText policyBefore.toList = true := by decide
  have hafter : isHeaderText policyAfter.toList = true := by decide +kernel
  have hpattern : isHeaderText "form-action 'self'".toList = true := by decide
  have hpattern' : isHeaderText "form-action 'self' ".toList = true := by decide
  unfold policy
  rw [isHeaderText_append, isHeaderText_append, replacement_isHeaderText hbefore hpattern hafter,
    isHeaderText_append, hbefore, hafter, hpattern', Bool.true_and, Bool.true_and, Bool.and_true]

/-- For a token of the application, the page is sent iff the redirect URL fits in a header. -/
theorem intercept_eq_ok {app : App} {content : PasswordContent} {authorization : Json}
    {redirect_url contentSecurityPolicy : String} (hj : authorization.noNumber = true)
    (hurl : authorization.get? "redirect_url" = some (.str redirect_url))
    (htoken : content.token = app.encrypt authorization.stringify) :
    intercept app content = .ok contentSecurityPolicy ↔
      isHeaderText redirect_url.toList = true ∧
        contentSecurityPolicy = String.ofList (policy redirect_url) := by
  have hobject : ∃ ms, authorization = .obj ms := by
    cases authorization with
    | obj ms => exact ⟨ms, rfl⟩
    | _ => cases hurl
  obtain ⟨ms, rfl⟩ := hobject
  rw [intercept, htoken, App.decrypt_encrypt]
  simp only [Json.parse_stringify hj, setHeader, hurl, Option.elim_some, templateText,
    policy_isHeaderText]
  split
  · rename_i h
    simp [h, eq_comm]
  · rename_i h
    simp [h]

end AppendFormActionHeaderInterceptor

/-- What password.twig is rendered with. -/
structure PasswordPage where
  contentSecurityPolicy : String
  token : String
  email : String

/-- `showPassword` with its guard and its interceptor. The guard stops every session without a
    `passwordContent`. -/
def AuthorizationController.showPassword (app : App) (query : Query) (session : SessionContent) :
    Except Failure PasswordPage :=
  match session.passwordContent with
  | none => .error .forbidden
  | some content =>
    if CheckShowPasswordGuard.canActivate query session then
      (AppendFormActionHeaderInterceptor.intercept app content).map fun contentSecurityPolicy =>
        { contentSecurityPolicy, token := content.token, email := content.email }
    else .error .forbidden

/-- The guard lets the browser see the page it was redirected to. -/
theorem CheckShowPasswordGuard.canActivate_redirect (app : App) {content : PasswordContent}
    {session : SessionContent} (h : session.passwordContent = some content) :
    canActivate (Url.queryOf (PasswordRedirector.generateUrl app content)) session = true := by
  have hquery : Url.queryOf (PasswordRedirector.generateUrl app content) =
      [("stateId", content.passwordId.toString)] := by
    rw [PasswordRedirector.generateUrl, Url.queryOf_toString, Url.searchParams_append,
      Url.searchParams_ofFront, List.nil_append]
  have hvalue : Query.value [("stateId", content.passwordId.toString)] "stateId" =
      some (.str content.passwordId.toString) := rfl
  rw [canActivate, hquery, hvalue, h]
  simp [Uuid.toString_ne_empty]

/-- The page after the redirect, for a token of the application. -/
theorem AuthorizationController.showPassword_eq_ok {app : App} {content : PasswordContent}
    {session : SessionContent} {authorization : Json} {redirect_url : String} {page : PasswordPage}
    (hsession : session.passwordContent = some content) (hj : authorization.noNumber = true)
    (hurl : authorization.get? "redirect_url" = some (.str redirect_url))
    (htoken : content.token = app.encrypt authorization.stringify) :
    showPassword app (Url.queryOf (PasswordRedirector.generateUrl app content)) session =
        .ok page ↔
      isHeaderText redirect_url.toList = true ∧
        page = { contentSecurityPolicy := String.ofList
                  (AppendFormActionHeaderInterceptor.policy redirect_url)
                 token := content.token, email := content.email } := by
  unfold showPassword
  simp only [hsession, CheckShowPasswordGuard.canActivate_redirect app hsession, if_true,
    Action.map_eq_ok, AppendFormActionHeaderInterceptor.intercept_eq_ok hj hurl htoken]
  constructor
  · rintro ⟨csp, ⟨hheader, rfl⟩, rfl⟩
    exact ⟨hheader, rfl⟩
  · rintro ⟨hheader, rfl⟩
    exact ⟨_, ⟨hheader, rfl⟩, rfl⟩

/-! ## `AuthorizationRedirector` -/

/-- `generateUrl`, where `authorization` is the decrypted `request.body.token`. -/
def AuthorizationRedirector.generateUrl (app : App) (query : Query) (authorization : Json)
    (response : AuthorizationChallengeModel) : Except Failure String :=
  match Url.parse app.urlFront (text authorization "redirect_url") with
  | none => .error (.error "Invalid URL")
  | some url =>
    -- the query of this request, not the state in the token
    let state := ",".intercalate (query.values "state")
    .ok ((url.append "code" response.id.toString).append "state" state).toString

/-- Without a query the state of the answer is empty. -/
theorem AuthorizationRedirector.generateUrl_eq_ok {app : App} {authorization : Json}
    {response : AuthorizationChallengeModel} {location : String} :
    generateUrl app [] authorization response = .ok location ↔
      ∃ url, Url.parse app.urlFront (text authorization "redirect_url") = some url ∧
        location = ((url.append "code" response.id.toString).append "state" "").toString := by
  unfold generateUrl
  cases Url.parse app.urlFront (text authorization "redirect_url") with
  | none => simp
  | some url =>
    simp only [Except.ok.injEq, Option.some.injEq, exists_eq_left', eq_comm]
    rfl

/-! ## Requests -/

/-- The tables and the sessions. -/
abbrev Server := Store × Sessions

/-- The session that a request with the cookie of `id` starts with. -/
def Sessions.load (w : Sessions) (id : String) : Sessions where
  store := w.store
  objects := w.objects.alloc { id, content := w.incoming id }
  session := w.objects.next
  live := by rw [Heap.get?_alloc_next]; rfl

/-- `saveSession` of `RedirectRouteInterceptor`. -/
def RedirectRouteInterceptor.saveSession (env : SessionEnv) : Action String Sessions Unit :=
  fun w => Sessions.save env w.session w

@[simp] theorem Sessions.current_load (w : Sessions) (id : String) :
    (w.load id).current = { id, content := w.incoming id } :=
  current_eq (Heap.get?_alloc_next ..)

/-- What was saved is what the next request starts with. -/
theorem Sessions.incoming_put (w : Sessions) (id : String) (content : SessionContent) :
    (w.put id (some content)).incoming id = content := by
  unfold incoming put
  dsimp only
  rw [Function.update_self, Option.getD_some]

theorem RedirectRouteInterceptor.saveSession_eq_ok {env : SessionEnv} {w w' : Sessions} {u : Unit} :
    saveSession env w = (.ok u, w') ↔
      env.saveError = none ∧ w' = w.put w.current.id (some w.current.content) := by
  unfold saveSession Sessions.save
  rw [Sessions.get?_session]
  cases env.saveError <;> simp [eq_comm]

namespace Server

variable {α : Type}

/-- A computation over the tables. -/
def onTables (x : Db α) : Action Failure Server α := fun s => ((x s.1).1, ((x s.1).2, s.2))

/-- A computation over the sessions. -/
def onSessions (x : Action String Sessions α) : Action Failure Server α :=
  fun s => ((x s.2).1.mapError .error, (s.1, (x s.2).2))

/-- A change of the sessions that cannot fail. -/
def modifySessions (f : Sessions → Sessions) : Action Failure Server Unit :=
  fun s => (.ok (), (s.1, f s.2))

theorem onTables_eq_ok {x : Db α} {s s' : Server} {a : α} :
    onTables x s = (.ok a, s') ↔ x s.1 = (.ok a, s'.1) ∧ s'.2 = s.2 := by
  obtain ⟨st', w'⟩ := s'
  unfold onTables
  rcases x s.1 with ⟨r, st⟩
  simp only [Prod.mk.injEq, and_assoc, eq_comm]

theorem onSessions_eq_ok {x : Action String Sessions α} {s s' : Server} {a : α} :
    onSessions x s = (.ok a, s') ↔ x s.2 = (.ok a, s'.2) ∧ s'.1 = s.1 := by
  obtain ⟨st', w'⟩ := s'
  unfold onSessions
  rcases x s.2 with ⟨e | b, w⟩
  · simp [Except.mapError]
  · simp only [Except.mapError, Prod.mk.injEq, Except.ok.injEq]
    tauto

theorem modifySessions_bind {β : Type} (f : Sessions → Sessions) (g : Unit → Action Failure Server β)
    (s : Server) : (modifySessions f >>= g) s = g () (s.1, f s.2) := rfl

end Server

/-- `POST /oauth/authorization/password`. The handler saves the session too, but only the
    interceptor looks at what comes of it. -/
def postPassword (app : App) (senv : SessionEnv) (passwordId : Uuid) (cookie : String)
    (body : Json) : Action Failure Server String := do
  Server.modifySessions (·.load cookie)
  let content ← Action.lift
    (AuthorizationController.registerEmailForPasswordFlow app passwordId body)
  Server.modifySessions fun w =>
    w.assign w.session fun session => { session with passwordContent := some content }
  Server.onSessions (RedirectRouteInterceptor.saveSession senv)
  return PasswordRedirector.generateUrl app content

/-- The sessions after the form of login.twig was registered. -/
def Sessions.registered (w : Sessions) (cookie : String) (content : PasswordContent) : Sessions :=
  let w := w.load cookie
  let w := w.assign w.session fun session => { session with passwordContent := some content }
  w.put w.current.id (some w.current.content)

theorem Sessions.incoming_registered (w : Sessions) (cookie : String) (content : PasswordContent) :
    (w.registered cookie content).incoming cookie =
      { w.incoming cookie with passwordContent := some content } := by
  unfold registered
  simp only [current_assign, current_load]
  exact incoming_put ..

theorem postPassword_eq_ok {app : App} {senv : SessionEnv} {passwordId : Uuid} {cookie : String}
    {body : Json} {s s' : Server} {location : String} :
    postPassword app senv passwordId cookie body s = (.ok location, s') ↔
      ∃ content, AuthorizationController.registerEmailForPasswordFlow app passwordId body =
          .ok content ∧
        senv.saveError = none ∧ location = PasswordRedirector.generateUrl app content ∧
          s' = (s.1, s.2.registered cookie content) := by
  unfold postPassword
  rw [Server.modifySessions_bind, Action.lift_bind_eq_ok]
  refine exists_congr fun content => and_congr_right fun _ => ?_
  rw [Server.modifySessions_bind]
  simp only [Action.bind_eq_ok, Server.onSessions_eq_ok,
    RedirectRouteInterceptor.saveSession_eq_ok, Action.pure_run, Prod.mk.injEq, Except.ok.injEq]
  constructor
  · rintro ⟨-, ⟨st, w⟩, ⟨⟨hsave, hw⟩, hst⟩, rfl, rfl⟩
    exact ⟨hsave, rfl, Prod.ext hst hw⟩
  · rintro ⟨hsave, rfl, rfl⟩
    exact ⟨(), (s.1, s.2.registered cookie content), ⟨⟨hsave, rfl⟩, rfl⟩, rfl, rfl⟩

/-- `GET /oauth/authorization/password`. -/
def getPassword (app : App) (cookie : String) (query : Query) :
    Action Failure Server PasswordPage := do
  Server.modifySessions (·.load cookie)
  let session ← Action.read fun s : Server => s.2.current.content
  Action.lift (AuthorizationController.showPassword app query session)

theorem getPassword_eq_ok {app : App} {cookie : String} {query : Query} {s s' : Server}
    {page : PasswordPage} :
    getPassword app cookie query s = (.ok page, s') ↔
      AuthorizationController.showPassword app query (s.2.incoming cookie) = .ok page ∧
        s' = (s.1, s.2.load cookie) := by
  unfold getPassword
  rw [Server.modifySessions_bind, Action.read_bind_eq_ok, Action.lift_run, Prod.mk.injEq,
    Sessions.current_load, eq_comm (b := s')]

/-- `POST /oauth/authorization/login`, from its guard to its redirect. -/
def postLoginForm (app : App) (env : Env) (senv : SessionEnv) (cookie : String) (query : Query)
    (body : Json) : Action Failure Server String := do
  Server.modifySessions (·.load cookie)
  let (row, _, authorization) ← Server.onTables (postLogin app env (some body))
  let tables ← Action.read Prod.fst
  let row ← Server.onSessions (MapUserToSessionInterceptor.intercept senv tables row)
  Server.onSessions (RedirectRouteInterceptor.saveSession senv)
  Action.lift (AuthorizationRedirector.generateUrl app query authorization row)

/-- A login form ends in a redirect iff a code was created, the session store works and the redirect
    URL parses. -/
theorem postLoginForm_eq_ok {app : App} {env : Env} {senv : SessionEnv} {cookie : String}
    {query : Query} {body : Json} {s : Server} {st' : Store} {location : String} :
    (∃ w', postLoginForm app env senv cookie query body s = (.ok location, (st', w'))) ↔
      (senv.destroyError = none ∧ senv.saveError = none) ∧ ∃ row user authorization,
        postLogin app env (some body) s.1 = (.ok (row, user, authorization), st') ∧
          AuthorizationRedirector.generateUrl app query authorization row = .ok location := by
  unfold postLoginForm
  rw [Server.modifySessions_bind]
  simp only [Action.bind_eq_ok, Server.onTables_eq_ok, Action.read_run, Server.onSessions_eq_ok,
    RedirectRouteInterceptor.saveSession_eq_ok, Action.lift_run, Prod.mk.injEq, Except.ok.injEq]
  constructor
  · rintro ⟨w', ⟨row, user, authorization⟩, ⟨st, w⟩, ⟨hlogin, rfl⟩, _, _, ⟨rfl, rfl⟩, result, m,
      ⟨hmap, hm⟩, -, m', ⟨⟨hsave, -⟩, hm'⟩, hurl, hs⟩
    obtain ⟨rfl, hsession⟩ := (intercept_of_login hlogin).mp hmap
    obtain ⟨⟨hdestroy, -⟩, -⟩ := AuthService.mapSessionWithUser_eq_ok.mp hsession
    have hst : st = st' := by rw [hs] at hm'; exact (hm'.trans hm).symm
    exact ⟨⟨hdestroy, hsave⟩, result, user, authorization, hst ▸ hlogin, hurl⟩
  · rintro ⟨hworks, row, user, authorization, hlogin, hurl⟩
    have hsession : AuthService.mapSessionWithUser senv (s.2.load cookie).session user
        (s.2.load cookie) = (.ok true, (s.2.load cookie).afterLogin senv.sid user) :=
      AuthService.mapSessionWithUser_eq_ok.mpr ⟨hworks, rfl, rfl⟩
    have hmap := (intercept_of_login hlogin).mpr ⟨rfl, hsession⟩
    exact ⟨_, (row, user, authorization), (st', s.2.load cookie), ⟨hlogin, rfl⟩, st', _, ⟨rfl, rfl⟩,
      row, (st', _), ⟨hmap, rfl⟩, (), (st', _), ⟨⟨hworks.2, rfl⟩, rfl⟩, hurl, rfl⟩

namespace Browser

/-- The form of login.twig. -/
def loginForm (browser : Browser) (token email : String) : List (String × String) :=
  [("token", browser.attributeValue token), ("email", email)]

/-- The form of password.twig. -/
def passwordForm (browser : Browser) (page : PasswordPage) (password : String) :
    List (String × String) :=
  [("token", browser.attributeValue page.token), ("email", browser.attributeValue page.email),
    ("password", password)]

end Browser

/-- What the browser does with the token of the login page. The action of password.twig has no
    query. -/
def browserFlow (app : App) (browser : Browser) (env : Env) (senv : SessionEnv)
    (passwordId : Uuid) (cookie token email password : String) : Action Failure Server String := do
  let location ← postPassword app senv passwordId cookie (formBody (browser.loginForm token email))
  let page ← getPassword app cookie (Url.queryOf location)
  postLoginForm app env senv cookie [] (formBody (browser.passwordForm page password))

/-! ## The whole flow -/

/-- An encrypted JSON text is not empty. -/
theorem App.encrypt_stringify_ne_empty (app : App) {j : Json} (hj : j.noNumber = true) :
    app.encrypt j.stringify ≠ "" := by
  intro h
  have hparse := Json.parse_stringify hj
  have hdecrypt := app.decrypt_encrypt j.stringify
  have hempty : app.decrypt (app.encrypt "") = .ok "" := app.decrypt_encrypt ""
  rw [show app.encrypt "" = "" from rfl] at hempty
  rw [h, hempty, Except.ok.injEq] at hdecrypt
  rw [← hdecrypt] at hparse
  cases hparse

@[simp] theorem Browser.attributeValue_encrypt (browser : Browser) (app : App) (token : String) :
    browser.attributeValue (app.encrypt token) = app.encrypt token :=
  browser.attributeValue_hex _

/-- The flow of a token that the application made ends in a redirect iff its last request does,
    and the pages before it came up. -/
theorem browserFlow_eq_ok {app : App} {browser : Browser} {env : Env} {senv : SessionEnv}
    {passwordId : Uuid} {cookie email password redirect_url location : String} {s : Server}
    {st' : Store} {authorization : Json} (hj : authorization.noNumber = true)
    (hurl : authorization.get? "redirect_url" = some (.str redirect_url)) :
    (∃ w', browserFlow app browser env senv passwordId cookie
        (app.encrypt authorization.stringify) email password s = (.ok location, (st', w'))) ↔
      ((app.isEmail email = true ∧ email ≠ "") ∧ isHeaderText redirect_url.toList = true) ∧
        (senv.destroyError = none ∧ senv.saveError = none) ∧ ∃ row user content,
          postLogin app env (some (formBody [("token", app.encrypt authorization.stringify),
            ("email", browser.attributeValue email), ("password", password)])) s.1 =
              (.ok (row, user, content), st') ∧
            AuthorizationRedirector.generateUrl app [] content row = .ok location := by
  have htoken := app.encrypt_stringify_ne_empty hj
  have hsession := s.2.incoming_registered cookie
    { token := app.encrypt authorization.stringify, email, passwordId }
  have hpage := fun page => @AuthorizationController.showPassword_eq_ok app _ _ _ _ page
    (congrArg SessionContent.passwordContent hsession) hj hurl rfl
  unfold browserFlow
  simp only [Browser.loginForm, Browser.passwordForm, Browser.attributeValue_encrypt,
    Action.bind_eq_ok, postPassword_eq_ok, getPassword_eq_ok,
    AuthorizationController.registerEmailForPasswordFlow_eq_ok]
  constructor
  · rintro ⟨w', location', _, ⟨_, ⟨-, hemail, rfl⟩, hsave, rfl, rfl⟩, page, _, ⟨hshow, rfl⟩, hlogin⟩
    obtain ⟨hheader, rfl⟩ := (hpage page).mp hshow
    obtain ⟨hworks, hlogin⟩ := postLoginForm_eq_ok.mp ⟨w', hlogin⟩
    rw [Browser.attributeValue_encrypt] at hlogin
    exact ⟨⟨hemail, hheader⟩, hworks, hlogin⟩
  · rintro ⟨⟨hemail, hheader⟩, hworks, hlogin⟩
    -- the last request starts from the tables of the first
    obtain ⟨w', hlogin⟩ := (postLoginForm_eq_ok (s := (s.1, (s.2.registered cookie
      { token := app.encrypt authorization.stringify, email, passwordId }).load cookie))).mpr
        ⟨hworks, hlogin⟩
    refine ⟨w', _, _, ⟨_, ⟨htoken, hemail, rfl⟩, hworks.2, rfl, rfl⟩, _, _,
      ⟨(hpage _).mpr ⟨hheader, rfl⟩, rfl⟩, ?_⟩
    rw [Browser.attributeValue_encrypt]
    exact hlogin

end NestTemplate
