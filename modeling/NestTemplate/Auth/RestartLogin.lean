import NestTemplate.Auth.ClientAnswer
import NestTemplate.Http.UrlBuilder

/-!
# Restarting the login

From the password page the user may go back to the login page. The redirector
decrypts the token of the session and puts the authorization request in it,
with the e-mail, into the query of `showLogin`.

* `get?_ofList_eq_lookup`: what an object parsed from JSON has under a name.
* `generateUrl_keeps_request`: the new query is the authorization request that
  the token was made from.
* `getRestartLogin_after_postPassword`: so it is for the session that the login
  form left.
-/

namespace NestTemplate

open Common

/-! ## `restartLoginFlow` -/

/-- `canActivate`. -/
def CanRestartLoginGuard.canActivate (session : SessionContent) : Bool :=
  session.passwordContent.any fun passwordContent =>
    passwordContent.email ≠ "" && passwordContent.token ≠ ""

namespace RestartLoginRedirector

/-- `{ ...authorizationDto, email }`. -/
def queryParameters (authorizationDto : Json) (email : String) : JsObject Json :=
  (ownProperties authorizationDto).spread (.ofList [("email", .str email)])

/-- `generateUrl`. -/
def generateUrl (app : App) (urlBuilder : UrlBuilderService) (result : PasswordContent) :
    Except Failure String :=
  match app.decrypt result.token with
  | .error e => .error e
  | .ok serialized =>
    match Json.parse serialized with
    | none => .error .syntaxError
    | some authorizationDto =>
      urlBuilder.url "oauth/authorization" ∅ (queryParameters authorizationDto result.email)

end RestartLoginRedirector

/-- `GET /oauth/authorization/restart-login`, from its guard to its redirect. -/
def getRestartLogin (app : App) (urlBuilder : UrlBuilderService) (senv : SessionEnv)
    (cookie : String) : Action Failure Server String := do
  Server.modifySessions (·.load cookie)
  let session ← Action.read fun s : Server => s.2.current.content
  match session.passwordContent with
  | none => Action.fail .forbidden
  | some passwordContent =>
    if CanRestartLoginGuard.canActivate session then
      Server.modifySessions fun w =>
        w.assign w.session fun session => { session with passwordContent := none }
      Server.onSessions (RedirectRouteInterceptor.saveSession senv)
      Action.lift (RestartLoginRedirector.generateUrl app urlBuilder passwordContent)
    else Action.fail .forbidden

/-! ## The properties of the request -/

namespace RestartLoginRedirector

variable (query : Query) (email : String)

/-- Besides the e-mail the query has what the request has. -/
theorem get?_queryParameters {name : String} (h : name ≠ "email") :
    (queryParameters (AuthorizationDto.ofQuery query) email).get? name =
      (AuthorizationDto.ofQuery query).get? name := by
  rw [queryParameters, JsObject.get?_spread_of_not_hasOwn (by simpa using h)]
  exact get?_ofList_eq_lookup _ name

theorem hasText_of_isQueryValue {v : Json} (h : UrlBuilderService.IsQueryValue v) :
    hasText v = true := by
  rcases h with ⟨s, rfl⟩ | ⟨s, t, ss, rfl⟩
  · rfl
  · rw [hasText, haveTexts_iff]
    intro v hv
    obtain ⟨s, -, rfl⟩ := List.mem_map.mp hv
    rfl

/-- Every value of the request has a text. -/
theorem hasText_queryParameters :
    ∀ e ∈ queryParameters (AuthorizationDto.ofQuery query) email, hasText e.2 = true := by
  intro e he
  rcases JsObject.mem_spread.mp he with he | ⟨-, he⟩
  · rw [JsObject.mem_ofList_singleton.mp he]
    rfl
  · rcases mem_instanceObject (JsObject.mem_of_mem_ofList he) with hquery | ⟨f, hf, hinitial⟩
    · rw [← JsObject.get?_eq_some, query.get?_object] at hquery
      exact hasText_of_isQueryValue (UrlBuilderService.isQueryValue hquery)
    · -- the only initial value is `null`
      have : ∀ f ∈ AuthorizationDto.fields, ∀ v ∈ f.2, v = .null := by
        simp [AuthorizationDto.fields]
      rw [this f hf e.2 hinitial]
      rfl

/-- For a token of the application the redirector builds the URL of the request in it. -/
theorem generateUrl_encrypt {app : App} {urlBuilder : UrlBuilderService} {content : PasswordContent}
    {authorization : Json} (hj : authorization.noNumber = true)
    (htoken : content.token = app.encrypt authorization.stringify) :
    generateUrl app urlBuilder content =
      urlBuilder.url "oauth/authorization" ∅ (queryParameters authorization content.email) := by
  simp only [generateUrl, htoken, App.decrypt_encrypt, Json.parse_stringify hj]

end RestartLoginRedirector

/-! ## The new query -/

/-- `d'` asks for what `d` asks for. -/
structure AuthorizationDto.SameRequest (d d' : Json) : Prop where
  get? : ∀ name ∈ ["grant_type", "client_id", "redirect_url", "state"], d'.get? name = d.get? name
  pkce : d.get? "grant_type" = some (.str GrantTypes.PKCE.text) →
    ∀ name ∈ ["code_challenge", "algorithm"], d'.get? name = d.get? name

namespace RestartLoginRedirector

variable {app : App} {urlBuilder : UrlBuilderService} {st : Store} {query : Query}
  {token : String} {page : Url.Front}

/-- A field with text values, or with neither a value nor an initial one, reads back from the
    address. -/
theorem get?_ofQuery_searchParams {email name : String} {initial : Option Json} {url : Url}
    (hurl : UrlBuilderService.appendQueryParams
      (queryParameters (AuthorizationDto.ofQuery query) email) (Url.ofFront page) = .ok url)
    (hfield : (name, initial) ∈ AuthorizationDto.fields) (hemail : name ≠ "email")
    (hv : ∀ v ∈ (AuthorizationDto.ofQuery query).get? name, UrlBuilderService.IsQueryValue v)
    (hinitial : ((AuthorizationDto.ofQuery query).get? name).or initial =
      (AuthorizationDto.ofQuery query).get? name) :
    (AuthorizationDto.ofQuery url.searchParams).get? name =
      (AuthorizationDto.ofQuery query).get? name := by
  have hvalue : Query.value url.searchParams name = (AuthorizationDto.ofQuery query).get? name := by
    rw [← get?_queryParameters query email hemail] at hv ⊢
    exact UrlBuilderService.value_appendQueryParams hurl (Url.searchParams_ofFront page) hv
  rw [AuthorizationDto.get?_ofQuery hfield, hvalue, hinitial]

/-- The address reads back as the authorization request. -/
theorem sameRequest_of_appendQueryParams {email : String} {url : Url}
    (hholds : ∀ p ∈ AuthorizationDto.properties app st, p.Holds (AuthorizationDto.ofQuery query))
    (hurl : UrlBuilderService.appendQueryParams
      (queryParameters (AuthorizationDto.ofQuery query) email) (Url.ofFront page) = .ok url) :
    AuthorizationDto.SameRequest (AuthorizationDto.ofQuery query)
      (AuthorizationDto.ofQuery url.searchParams) := by
  refine ⟨fun name hname => ?_, fun hpkce name hname => ?_⟩
  · -- these properties have no initial value
    have hfield : (name, none) ∈ AuthorizationDto.fields := by
      simp only [List.mem_cons, List.not_mem_nil, or_false] at hname
      rcases hname with rfl | rfl | rfl | rfl <;> simp [AuthorizationDto.fields]
    refine get?_ofQuery_searchParams hurl hfield ?_ (fun v hv => ?_) (Option.or_none ..)
    · rintro rfl
      exact absurd hname (by decide)
    · rw [AuthorizationDto.get?_ofQuery hfield, Option.or_none] at hv
      exact UrlBuilderService.isQueryValue hv
  · have hfield : (name, some .null) ∈ AuthorizationDto.fields := by
      simp only [List.mem_cons, List.not_mem_nil, or_false] at hname
      rcases hname with rfl | rfl <;> simp [AuthorizationDto.fields]
    obtain ⟨⟨challenge, hchallenge, -⟩, algorithm, halgorithm, -⟩ :=
      (AuthorizationDto.valid_of_holds hholds).pkce hpkce
    obtain ⟨s, hs⟩ : ∃ s, (AuthorizationDto.ofQuery query).get? name = some (.str s) := by
      simp only [List.mem_cons, List.not_mem_nil, or_false] at hname
      rcases hname with rfl | rfl
      · exact ⟨challenge, hchallenge⟩
      · exact ⟨algorithm, halgorithm⟩
    refine get?_ofQuery_searchParams hurl hfield ?_ (fun v hv => ?_) (by rw [hs]; rfl)
    · rintro rfl
      exact absurd hname (by decide)
    · rw [hs] at hv
      exact .inl ⟨s, (Option.some.inj hv).symm⟩

/-- The redirector finds its way back from the token of a valid request. -/
theorem exists_generateUrl (content : PasswordContent)
    (hholds : ∀ p ∈ AuthorizationDto.properties app st, p.Holds (AuthorizationDto.ofQuery query))
    (hpage : urlBuilder.resolve "oauth/authorization" = some (Url.ofFront page))
    (htoken : content.token = app.encrypt (AuthorizationDto.ofQuery query).stringify) :
    ∃ location, generateUrl app urlBuilder content = .ok location ∧
      AuthorizationDto.SameRequest (AuthorizationDto.ofQuery query)
        (AuthorizationDto.ofQuery (Url.queryOf location)) := by
  obtain ⟨url, hurl⟩ := (@UrlBuilderService.appendQueryParams_isOk _ (Url.ofFront page)).mpr
    (hasText_queryParameters query content.email)
  refine ⟨url.toString, ?_, ?_⟩
  · rw [generateUrl_encrypt (AuthorizationDto.ofQuery_noNumber query) htoken,
      UrlBuilderService.url, UrlBuilderService.getReplacedPathParameters_empty, hpage]
    simp only [hurl, Except.map]
  · rw [Url.queryOf_toString]
    exact sameRequest_of_appendQueryParams hholds hurl

/-- **Main theorem**: whatever `showLogin` accepted and whatever the e-mail is, the redirector goes
    back to the authorization request that is encrypted in the session's token. -/
theorem generateUrl_keeps_request
    (hshow : AuthorizationController.showLogin app st query = .ok token)
    (hpage : urlBuilder.resolve "oauth/authorization" = some (Url.ofFront page))
    (content : PasswordContent) (htoken : content.token = token) :
    app.decrypt token = .ok (AuthorizationDto.ofQuery query).stringify ∧
      ∃ location, generateUrl app urlBuilder content = .ok location ∧
        AuthorizationDto.SameRequest (AuthorizationDto.ofQuery query)
          (AuthorizationDto.ofQuery (Url.queryOf location)) := by
  obtain ⟨hholds, rfl⟩ := AuthorizationController.showLogin_eq_ok.mp hshow
  exact ⟨App.decrypt_encrypt .., exists_generateUrl content hholds hpage htoken⟩

end RestartLoginRedirector

namespace Sample

def authorizationFront : Url.Front :=
  ⟨"https://auth.example/oauth/authorization".toList, by decide, by decide⟩

/-- `new URL` under `https://auth.example` for paths without a query. -/
def urlBuilder : UrlBuilderService where
  resolve path := if path = "oauth/authorization" then some (Url.ofFront authorizationFront) else none

theorem resolve_authorization :
    urlBuilder.resolve "oauth/authorization" = some (Url.ofFront authorizationFront) := rfl

end Sample

theorem RestartLoginRedirector.generateUrl_keeps_request_sample :
    Sample.app.decrypt (Sample.token "xyz") =
        .ok (AuthorizationDto.ofQuery (Sample.query "xyz")).stringify ∧
      ∃ location, generateUrl Sample.app Sample.urlBuilder
          { token := Sample.token "xyz", email := "a@example.com", passwordId := Sample.uuid 9 } =
            .ok location ∧
        AuthorizationDto.SameRequest (AuthorizationDto.ofQuery (Sample.query "xyz"))
          (AuthorizationDto.ofQuery (Url.queryOf location)) :=
  generateUrl_keeps_request (Sample.showLogin_query (.inr rfl)) Sample.resolve_authorization _ rfl

/-! ## After the login form -/

/-- The guard lets in whom the login form left with an e-mail and a token, and the session forgets
    both. -/
theorem getRestartLogin_eq_ok {app : App} {urlBuilder : UrlBuilderService} {senv : SessionEnv}
    {cookie : String} {s s' : Server} {location : String} :
    getRestartLogin app urlBuilder senv cookie s = (.ok location, s') ↔
      ∃ content, (s.2.incoming cookie).passwordContent = some content ∧
        (content.email ≠ "" ∧ content.token ≠ "") ∧ senv.saveError = none ∧
          RestartLoginRedirector.generateUrl app urlBuilder content = .ok location ∧
            s' = (s.1, ((s.2.load cookie).assign (s.2.load cookie).session fun session =>
              { session with passwordContent := none }).put cookie
                (some { s.2.incoming cookie with passwordContent := none })) := by
  unfold getRestartLogin
  rw [Server.modifySessions_bind, Action.read_bind_eq_ok, Sessions.current_load]
  dsimp only
  cases hcontent : (s.2.incoming cookie).passwordContent with
  | none => simp
  | some content =>
    have hguard : CanRestartLoginGuard.canActivate (s.2.incoming cookie) =
        (content.email ≠ "" && content.token ≠ "") := by
      rw [CanRestartLoginGuard.canActivate, hcontent, Option.any_some]
    dsimp only
    rw [hguard]
    by_cases h : content.email ≠ "" ∧ content.token ≠ ""
    · rw [if_pos (by simpa using h), Server.modifySessions_bind]
      simp only [Action.bind_eq_ok, Server.onSessions_eq_ok,
        RedirectRouteInterceptor.saveSession_eq_ok, Action.lift_run, Prod.mk.injEq,
        Sessions.current_assign, Sessions.current_load, Option.some.injEq, exists_eq_left']
      constructor
      · rintro ⟨-, ⟨st, w⟩, ⟨⟨hsave, hw⟩, hst⟩, hurl, rfl⟩
        exact ⟨h, hsave, hurl, Prod.ext hst hw⟩
      · rintro ⟨-, hsave, hurl, rfl⟩
        exact ⟨(), (_, _), ⟨⟨hsave, rfl⟩, rfl⟩, hurl, rfl⟩
    · rw [if_neg (by simpa using h)]
      simp [h]

/-- A login that was just begun can be started again: the browser comes back to `showLogin` with the
    request it came with. -/
theorem getRestartLogin_after_postPassword {app : App} {urlBuilder : UrlBuilderService}
    {senv : SessionEnv} {st : Store} {query : Query} {page : Url.Front} {passwordId : Uuid}
    {cookie token email address : String} {s s₁ : Server}
    (hshow : AuthorizationController.showLogin app st query = .ok token)
    (hpage : urlBuilder.resolve "oauth/authorization" = some (Url.ofFront page))
    (hpost : postPassword app senv passwordId cookie (formBody [("token", token), ("email", email)])
      s = (.ok address, s₁)) :
    ∃ location s₂, getRestartLogin app urlBuilder senv cookie s₁ = (.ok location, s₂) ∧
      AuthorizationDto.SameRequest (AuthorizationDto.ofQuery query)
        (AuthorizationDto.ofQuery (Url.queryOf location)) ∧
      (s₂.2.incoming cookie).passwordContent = none := by
  obtain ⟨content, hregister, hsave, -, rfl⟩ := postPassword_eq_ok.mp hpost
  obtain ⟨htoken, ⟨-, hemail⟩, rfl⟩ :=
    AuthorizationController.registerEmailForPasswordFlow_eq_ok.mp hregister
  have hcontent := congrArg SessionContent.passwordContent
    (s.2.incoming_registered cookie { token, email, passwordId })
  obtain ⟨hholds, htoken'⟩ := AuthorizationController.showLogin_eq_ok.mp hshow
  obtain ⟨location, hlocation, hsame⟩ :=
    RestartLoginRedirector.exists_generateUrl { token, email, passwordId } hholds hpage htoken'
  have hrestart := (getRestartLogin_eq_ok
    (s := (s.1, s.2.registered cookie { token, email, passwordId }))).mpr
      ⟨_, hcontent, ⟨hemail, htoken⟩, hsave, hlocation, rfl⟩
  refine ⟨location, _, hrestart, hsame, ?_⟩
  exact congrArg SessionContent.passwordContent (Sessions.incoming_put ..)

end NestTemplate
