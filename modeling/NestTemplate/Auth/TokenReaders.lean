import NestTemplate.Auth.RestartLogin

/-!
# The readers of the flow token

The token of the login form is kept as it came. Three components decrypt it
later: the password page for its header, the restarted login for its query,
and the guard of the login itself. Only the last one turns a token that it
cannot parse into an `UnprocessableEntityException`.

* `setHeader_isOk`, `url_isOk`: which requests the other two can use.
* `agree_iff`: the readers agree iff the token carries a request that all of
  them can use.
-/

namespace NestTemplate

open Common

/-- Whether an error is an `UnprocessableEntityException`. -/
def Failure.isUnprocessable : Failure → Bool
  | .unprocessable _ | .unprocessableCause _ => true
  | _ => false

namespace TokenReaders

/-- The body of a login form with this token, as far as `decryptToken` reads it. -/
def body (content : PasswordContent) : Json := formBody [("token", content.token)]

/-- The readers decode the same authorization request. -/
def Decode (app : App) (urlBuilder : UrlBuilderService) (content : PasswordContent) : Prop :=
  ∃ authorization policy location,
    AuthorizationLoginStrategy.decryptToken app (body content) = .ok authorization ∧
      (AppendFormActionHeaderInterceptor.intercept app content = .ok policy ∧
        AppendFormActionHeaderInterceptor.setHeader authorization = .ok policy) ∧
      RestartLoginRedirector.generateUrl app urlBuilder content = .ok location ∧
        urlBuilder.url "oauth/authorization" ∅
          (RestartLoginRedirector.queryParameters authorization content.email) = .ok location

/-- The readers reject the token with an `UnprocessableEntityException`. -/
def Reject (app : App) (urlBuilder : UrlBuilderService) (content : PasswordContent) : Prop :=
  ∃ e₁ e₂ e₃,
    (AuthorizationLoginStrategy.decryptToken app (body content) = .error e₁ ∧
      AppendFormActionHeaderInterceptor.intercept app content = .error e₂ ∧
        RestartLoginRedirector.generateUrl app urlBuilder content = .error e₃) ∧
    e₁.isUnprocessable = true ∧ e₂.isUnprocessable = true ∧ e₃.isUnprocessable = true

/-- No reader is alone in what it makes of the token. -/
def Agree (app : App) (urlBuilder : UrlBuilderService) (content : PasswordContent) : Prop :=
  Decode app urlBuilder content ∨ Reject app urlBuilder content

/-- An authorization request that every reader can use. -/
structure Usable (authorization : Json) : Prop where
  ne_null : authorization ≠ .null
  /-- The header of the password page can be sent. -/
  redirect_url : ∀ s, (authorization.get? "redirect_url").elim (some "undefined") templateText =
    some s → isHeaderText s.toList = true
  /-- Every property has a text for the query; the e-mail is replaced. -/
  texts : ∀ e ∈ ownProperties authorization, e.1 ≠ "email" → hasText e.2 = true

/-- The token is hexadecimal text as far as Node checks it, and the authorization request in it is
    usable. -/
def CarriesUsable (app : App) (token : String) : Prop :=
  utf16Length token % 2 = 0 ∧
    ∃ authorization, Json.parse (utf8Decode (xorBytes app.keystream (hexDecode token))) =
      some authorization ∧ Usable authorization

/-! ## Which requests a reader can use -/

/-- The header is sent for every request but `null` whose redirect URL fits in it. -/
theorem setHeader_isOk {authorization : Json} :
    (∃ policy, AppendFormActionHeaderInterceptor.setHeader authorization = .ok policy) ↔
      authorization ≠ .null ∧ ∃ s, (authorization.get? "redirect_url").elim (some "undefined")
        templateText = some s ∧ isHeaderText s.toList = true := by
  unfold AppendFormActionHeaderInterceptor.setHeader
  split
  · simp
  · rename_i hnull
    have hne : authorization ≠ .null := hnull
    cases (authorization.get? "redirect_url").elim (some "undefined") templateText with
    | none => simp
    | some s =>
      simp only [AppendFormActionHeaderInterceptor.policy_isHeaderText, Option.some.injEq,
        exists_eq_left', ne_eq, hne, not_false_eq_true, true_and]
      split <;> simp_all

theorem setHeader_error {authorization : Json} {e : Failure}
    (h : AppendFormActionHeaderInterceptor.setHeader authorization = .error e) :
    e.isUnprocessable = false := by
  unfold AppendFormActionHeaderInterceptor.setHeader at h
  split at h
  · cases h; rfl
  · split at h
    · cases h; rfl
    · dsimp only at h
      split at h <;> cases h
      rfl

/-- The login page has an address for every request whose properties have texts. -/
theorem url_isOk {urlBuilder : UrlBuilderService} {page : Url} {authorization : Json}
    {email : String} (hpage : urlBuilder.resolve "oauth/authorization" = some page) :
    (∃ location, urlBuilder.url "oauth/authorization" ∅
        (RestartLoginRedirector.queryParameters authorization email) = .ok location) ↔
      ∀ e ∈ ownProperties authorization, e.1 ≠ "email" → hasText e.2 = true := by
  have hparams : (∀ e ∈ RestartLoginRedirector.queryParameters authorization email,
      hasText e.2 = true) ↔
        ∀ e ∈ ownProperties authorization, e.1 ≠ "email" → hasText e.2 = true := by
    simp only [RestartLoginRedirector.queryParameters, JsObject.mem_spread,
      JsObject.mem_ofList_singleton, JsObject.hasOwn_ofList_singleton]
    constructor
    · exact fun h e he hne => h e (.inr ⟨hne, he⟩)
    · rintro h e (rfl | ⟨hne, he⟩)
      · rfl
      · exact h e he hne
  rw [← hparams, ← @UrlBuilderService.appendQueryParams_isOk _ page, UrlBuilderService.url,
    UrlBuilderService.getReplacedPathParameters_empty, hpage]
  simp only [Action.map_eq_ok]
  constructor
  · rintro ⟨_, url, hurl, -⟩
    exact ⟨url, hurl⟩
  · rintro ⟨url, hurl⟩
    exact ⟨_, url, hurl, rfl⟩

/-- A property of an object that has a text keeps the header from failing. -/
theorem redirect_url_of_texts {authorization : Json}
    (h : ∀ e ∈ ownProperties authorization, e.1 ≠ "email" → hasText e.2 = true) :
    ∃ s, (authorization.get? "redirect_url").elim (some "undefined") templateText = some s := by
  cases hget : authorization.get? "redirect_url" with
  | none => exact ⟨_, rfl⟩
  | some v =>
    have hmem : ("redirect_url", v) ∈ ownProperties authorization := by
      cases authorization with
      | obj ms => exact JsObject.get?_eq_some.mp ((get?_ofList_eq_lookup ms _).trans hget)
      | _ => cases hget
    have htext := h _ hmem (by decide : "redirect_url" ≠ "email")
    rw [← isSome_templateText] at htext
    exact Option.isSome_iff_exists.mp htext

theorem usable_iff {urlBuilder : UrlBuilderService} {page : Url} {authorization : Json}
    (email : String) (hpage : urlBuilder.resolve "oauth/authorization" = some page) :
    Usable authorization ↔
      (∃ policy, AppendFormActionHeaderInterceptor.setHeader authorization = .ok policy) ∧
        ∃ location, urlBuilder.url "oauth/authorization" ∅
          (RestartLoginRedirector.queryParameters authorization email) = .ok location := by
  rw [setHeader_isOk, url_isOk hpage]
  constructor
  · rintro ⟨hnull, hurl, htexts⟩
    obtain ⟨s, hs⟩ := redirect_url_of_texts htexts
    exact ⟨⟨hnull, s, hs, hurl s hs⟩, htexts⟩
  · rintro ⟨⟨hnull, s, hs, hheader⟩, htexts⟩
    refine ⟨hnull, fun s' hs' => ?_, htexts⟩
    obtain rfl := Option.some.inj (hs.symm.trans hs')
    exact hheader

/-! ## When the readers agree -/

section

variable {app : App} {urlBuilder : UrlBuilderService} {content : PasswordContent}

/-- The password page never answers with an `UnprocessableEntityException`. -/
theorem not_reject : ¬ Reject app urlBuilder content := by
  rintro ⟨e₁, e₂, e₃, ⟨-, h, -⟩, -, hunprocessable, -⟩
  have hfalse : e₂.isUnprocessable = false := by
    unfold AppendFormActionHeaderInterceptor.intercept at h
    split at h
    · rename_i e hdecrypt
      unfold App.decrypt at hdecrypt
      split at hdecrypt <;> cases hdecrypt
      cases h
      rfl
    · split at h
      · cases h; rfl
      · exact setHeader_error h
  rw [hfalse] at hunprocessable
  cases hunprocessable

/-- **Main theorem**: the readers agree on a token iff it carries an authorization request that
    every one of them can use. -/
theorem agree_iff {page : Url} (hpage : urlBuilder.resolve "oauth/authorization" = some page) :
    Agree app urlBuilder content ↔ CarriesUsable app content.token := by
  have hget : (body content).get? "token" = some (.str content.token) := rfl
  unfold Agree CarriesUsable
  rw [or_iff_left not_reject]
  unfold Decode AuthorizationLoginStrategy.decryptToken
    AppendFormActionHeaderInterceptor.intercept RestartLoginRedirector.generateUrl App.decrypt
  simp only [hget]
  by_cases heven : utf16Length content.token % 2 = 1
  · simp only [heven]
    simp
  · have heven' : utf16Length content.token % 2 = 0 := by omega
    simp only [heven', show ¬ (0 = 1) by decide, if_false, true_and]
    cases Json.parse (utf8Decode (xorBytes app.keystream (hexDecode content.token))) with
    | none => simp
    | some authorization =>
      simp only [Except.ok.injEq, Option.some.injEq, exists_eq_left']
      rw [usable_iff content.email hpage]
      constructor
      · rintro ⟨_, policy, location, rfl, ⟨hpolicy, -⟩, hlocation, -⟩
        exact ⟨⟨policy, hpolicy⟩, location, hlocation⟩
      · rintro ⟨⟨policy, hpolicy⟩, location, hlocation⟩
        exact ⟨authorization, policy, location, rfl, ⟨hpolicy, hpolicy⟩, hlocation, hlocation⟩

/-! ## The application's own tokens -/

theorem carriesUsable_of_decrypt {token serialized : String} {authorization : Json}
    (hdecrypt : app.decrypt token = .ok serialized)
    (hparse : Json.parse serialized = some authorization) (h : Usable authorization) :
    CarriesUsable app token := by
  unfold App.decrypt at hdecrypt
  split at hdecrypt
  · cases hdecrypt
  · cases hdecrypt
    exact ⟨by omega, authorization, hparse, h⟩

/-- A token of `showLogin` carries a usable request if its redirect URL fits in a header. -/
theorem carriesUsable_of_showLogin {st : Store} {query : Query} {token : String}
    (hshow : AuthorizationController.showLogin app st query = .ok token)
    (hheader : isHeaderText (text (AuthorizationDto.ofQuery query) "redirect_url").toList = true) :
    CarriesUsable app token := by
  have hurl := AuthorizationController.redirect_url_of_showLogin hshow
  obtain ⟨-, rfl⟩ := AuthorizationController.showLogin_eq_ok.mp hshow
  have hj := AuthorizationDto.ofQuery_noNumber query
  refine carriesUsable_of_decrypt (App.decrypt_encrypt ..) (Json.parse_stringify hj) ⟨?_, ?_, ?_⟩
  · rintro ⟨⟩
  · intro s hs
    rw [hurl, Option.elim_some, templateText, Option.some.injEq] at hs
    rw [← hs]
    exact hheader
  · intro e he hne
    refine RestartLoginRedirector.hasText_queryParameters query "" e ?_
    exact JsObject.mem_spread.mpr (.inr ⟨by simpa using hne, he⟩)

end

namespace Sample

/-- What the login form of `Sample.query` leaves in the session. -/
def content : PasswordContent where
  token := NestTemplate.Sample.token "xyz"
  email := "a@example.com"
  passwordId := NestTemplate.Sample.uuid 9

/-- A session whose form was sent with the token `zz`. -/
def badContent : PasswordContent := { content with token := "zz" }

end Sample

theorem agree_iff_sample :
    Agree NestTemplate.Sample.app NestTemplate.Sample.urlBuilder Sample.content :=
  (agree_iff NestTemplate.Sample.resolve_authorization).mpr
    (carriesUsable_of_showLogin (NestTemplate.Sample.showLogin_query (.inr rfl)) (by decide))

/-- The form accepts the token `zz`, which decrypts to the empty text: the guard of the login rejects
    it, and the other two end in a `SyntaxError`. -/
theorem zz_disagrees :
    AuthorizationController.registerEmailForPasswordFlow NestTemplate.Sample.app
        Sample.badContent.passwordId (formBody [("token", "zz"), ("email", "a@example.com")]) =
          .ok Sample.badContent ∧
      AuthorizationLoginStrategy.decryptToken NestTemplate.Sample.app (body Sample.badContent) =
        .error (credentialsError "token" "Token is not valid") ∧
      AppendFormActionHeaderInterceptor.intercept NestTemplate.Sample.app Sample.badContent =
        .error .syntaxError ∧
      RestartLoginRedirector.generateUrl NestTemplate.Sample.app NestTemplate.Sample.urlBuilder
        Sample.badContent = .error .syntaxError ∧
      ¬ Agree NestTemplate.Sample.app NestTemplate.Sample.urlBuilder Sample.badContent := by
  have hheader : AppendFormActionHeaderInterceptor.intercept NestTemplate.Sample.app
      Sample.badContent = .error .syntaxError := rfl
  refine ⟨AuthorizationController.registerEmailForPasswordFlow_eq_ok.mpr ⟨by decide, by decide, rfl⟩,
    rfl, hheader, rfl, ?_⟩
  rintro (⟨_, policy, _, -, ⟨hpolicy, -⟩, -⟩ | hreject)
  · rw [hheader] at hpolicy
    cases hpolicy
  · exact not_reject hreject

end TokenReaders

end NestTemplate
